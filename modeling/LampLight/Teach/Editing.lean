import LampLight.Media.Attachments
import LampLight.Media.Recordings

/-!
# Editing courses

The server actions that write courses, modules and lessons themselves, and the links that hang off
them. Each asks the authoring predicate with the id from the form and writes in the same
transaction.

The parser of URLs is a parameter. Form fields that name rows are uuids here; other texts do not get
past the database.

## Main definitions

* `addModuleAction`, `addLessonAction` — appending
* `updateCourseAction`, `updateModuleAction`, `updateLessonAction` — changing
* `addCourseLinkAction`, `addLessonLinkAction` — links
-/

namespace LampLight

open Js (Json)

/-! ### Statements -/

namespace Database

/-- The tenant has no such module. -/
def noModule (db : Database) (t m : Uuid) : Bool :=
  !db.modules.any fun x => x.tenantId = t && x.id = m

/-- A column of type `text` takes every character but the one with the code zero. -/
def unstorable (text : String) : Bool := Char.ofNat 0 ∈ text.toList

/-- `insert into modules`. -/
def insertModule (db : Database) (row : ModuleRow) : Except DbError Database :=
  checked
    [(.characterNotInRepertoire "title", unstorable row.title),
      (.numericValueOutOfRange "sort_order", 2 ^ 31 ≤ row.sortOrder),
      (.uniqueViolation "modules_pkey", db.modules.any fun m => m.id = row.id),
      (.foreignKeyViolation "modules_tenant_id_tenants_id_fk", db.noTenant row.tenantId),
      (.foreignKeyViolation "modules_tenant_id_course_id_fk",
        db.noCourse row.tenantId row.courseId)]
    { db with modules := db.modules ++ [row] }

/-- `insert into lessons`. -/
def insertLesson (db : Database) (row : LessonRow) : Except DbError Database :=
  checked
    [(.characterNotInRepertoire "title", unstorable row.title),
      (.numericValueOutOfRange "sort_order", 2 ^ 31 ≤ row.sortOrder),
      (.uniqueViolation "lessons_pkey", db.lessons.any fun l => l.id = row.id),
      (.uniqueViolation "lessons_tenant_id_module_id_slug_key", db.lessons.any fun l =>
        l.tenantId = row.tenantId && l.moduleId = row.moduleId && l.slug = row.slug),
      (.foreignKeyViolation "lessons_tenant_id_tenants_id_fk", db.noTenant row.tenantId),
      (.foreignKeyViolation "lessons_tenant_id_module_id_fk",
        db.noModule row.tenantId row.moduleId)]
    { db with lessons := db.lessons ++ [row] }

end Database

/-- `coalesce(max(sort_order), -1) + 1`. -/
def nextSortOrder (orders : List ℤ) : ℤ := orders.max?.getD (-1) + 1

/-! ### The frame of an action -/

/-- `String(formData.get(key) ?? '').trim()`. -/
def trimmedField (text : String) : String := String.ofList (Js.trim text.toList)

/-- A transaction that writes only for somebody who may. -/
def authored (decision : AuthorDecision) (write : Except DbError Database) :
    Except DbError (Option Database) :=
  if decision.allowed then write.map some else .ok none

/-- What the action answers, and the database it leaves. -/
def answerWith (denied : ActionResult) (db : Database) :
    Except DbError (Option Database) → Except DbError ActionResult × Database
  | .error e => (.error e, db)
  | .ok none => (.ok denied, db)
  | .ok (some db') => (.ok .ok, db')

/-- The same answer for everything that is edited. -/
def EDIT_DENIED : ActionResult := .error "That is not available to you."

/-- How long a description or the notes of a lesson may be. -/
def MAX_DESCRIPTION : ℕ := 20000

/-- How long a title may be. -/
def MAX_TITLE : ℕ := 200

/-- `title.length < 2 || title.length > MAX_TITLE`. -/
def badTitle (title : String) : Bool :=
  Js.length title.toList < 2 || MAX_TITLE < Js.length title.toList

/-- `text || null`. -/
def emptyAsNull (text : String) : Option String := if text = "" then none else some text

variable (db : Database) (ctx : AuthorContext) (now : Instant)

/-! ### Appending -/

/-- Appends a module to a course. -/
def addModuleAction (courseId : Uuid) (title : String) (id : Uuid) :
    Except DbError ActionResult × Database :=
  let title := trimmedField title
  if title = "" then (.ok (.error "A title is required."), db)
  else
    let scope : TenantScope := { tenantId := ctx.tenantId, now := now }
    answerWith DENIED db (authored (decideCourseAuthoring scope db ctx courseId)
      ((db.insertModule
        { id := id
          tenantId := ctx.tenantId
          courseId := courseId
          title := title
          sortOrder := nextSortOrder ((db.modules.filter fun m =>
            m.tenantId = ctx.tenantId && m.courseId = courseId).map (·.sortOrder)) }).bind
        fun db => db.insertAuditLog
          { tenantId := ctx.tenantId
            actorUserId := some ctx.userId
            action := "module.created"
            targetType := "course"
            targetId := some courseId
            metadataJson := [("title", .str title)] }))

/-- Runs of anything but `[a-z0-9]` become hyphens, and none stays at an end. -/
def slugify (title : String) : String :=
  let hyphenated := Js.replaceRuns (fun c => !Js.isLowerAlnum c) '-' (Js.toLowerCase title.toList)
  let stripped := (hyphenated.dropWhile (· = '-')).rdropWhile (· = '-')
  if stripped.take 60 = [] then "lesson" else String.ofList (stripped.take 60)

/-- The module is resolved to the course it belongs to, and the course decides. -/
def addLessonAction (moduleId : Uuid) (title : String) (isFreePreview : Option String) (id : Uuid) :
    Except DbError ActionResult × Database :=
  let title := trimmedField title
  if title = "" then (.ok (.error "A title is required."), db)
  else
    let scope : TenantScope := { tenantId := ctx.tenantId, now := now }
    match db.modules.find? fun m => m.tenantId = ctx.tenantId && m.id = moduleId with
    | none => (.ok DENIED, db)
    | some owning =>
      answerWith DENIED db (authored (decideCourseAuthoring scope db ctx owning.courseId)
        ((db.insertLesson
          { id := id
            tenantId := ctx.tenantId
            moduleId := moduleId
            title := title
            slug := slugify title
            contentMd := none
            durationSeconds := none
            isFreePreview := isFreePreview.isSome
            sortOrder := nextSortOrder ((db.lessons.filter fun l =>
              l.tenantId = ctx.tenantId && l.moduleId = moduleId).map (·.sortOrder)) }).bind
          fun db => db.insertAuditLog
            { tenantId := ctx.tenantId
              actorUserId := some ctx.userId
              action := "lesson.created"
              targetType := "module"
              targetId := some moduleId
              metadataJson :=
                [("title", .str title), ("isFreePreview", .bool isFreePreview.isSome)] }))

/-! ### Changing -/

/-- Changes the title and the description of a course. -/
def updateCourseAction (courseId : Uuid) (title descriptionMd : String) :
    Except DbError ActionResult × Database :=
  let title := trimmedField title
  let descriptionMd := trimmedField descriptionMd
  if badTitle title then (.ok (.error "A course needs a title."), db)
  else if MAX_DESCRIPTION < Js.length descriptionMd.toList then
    (.ok (.error "That description is too long."), db)
  else
    let scope : TenantScope := { tenantId := ctx.tenantId, now := now }
    answerWith EDIT_DENIED db (authored (decideCourseAuthoring scope db ctx courseId)
      (.ok { db with
        courses := Table.update (fun c => c.tenantId = ctx.tenantId && c.id = courseId)
          (fun c => { c with title := title, descriptionMd := emptyAsNull descriptionMd })
          db.courses }))

/-- Changes the title of a module. -/
def updateModuleAction (moduleId : Uuid) (title : String) :
    Except DbError ActionResult × Database :=
  let title := trimmedField title
  if badTitle title then (.ok (.error "A section needs a title."), db)
  else
    let scope : TenantScope := { tenantId := ctx.tenantId, now := now }
    answerWith EDIT_DENIED db (authored (decideModuleAuthoring scope db ctx moduleId)
      (.ok { db with
        modules := Table.update (fun m => m.tenantId = ctx.tenantId && m.id = moduleId)
          (fun m => { m with title := title }) db.modules }))

/-- Changes the title, the notes and the preview of a lesson. -/
def updateLessonAction (lessonId : Uuid) (title contentMd : String) (isFreePreview : String) :
    Except DbError ActionResult × Database :=
  let title := trimmedField title
  let contentMd := trimmedField contentMd
  if badTitle title then (.ok (.error "A lesson needs a title."), db)
  else if MAX_DESCRIPTION < Js.length contentMd.toList then
    (.ok (.error "Those notes are too long."), db)
  else
    let scope : TenantScope := { tenantId := ctx.tenantId, now := now }
    let opened : Bool := isFreePreview = "true"
    answerWith EDIT_DENIED db (authored (decideLessonAuthoring scope db ctx lessonId)
      (Database.insertAuditLog
        { db with
          lessons := Table.update (fun l => l.tenantId = ctx.tenantId && l.id = lessonId)
            (fun l => { l with
              title := title, contentMd := emptyAsNull contentMd, isFreePreview := opened })
            db.lessons }
        { tenantId := ctx.tenantId
          actorUserId := some ctx.userId
          action := "lesson.updated"
          targetType := "lesson"
          targetId := some lessonId
          metadataJson := [("isFreePreview", .bool opened)] }))

/-! ### Links -/

/-- What `new URL` makes of a text. -/
structure ParsedUrl where
  href : String
  protocol : String
  hostname : String

/-- Only http and https, or why not. -/
def readLink (parseUrl : String → Option ParsedUrl) (url : String) : Except String ParsedUrl :=
  match parseUrl (trimmedField url) with
  | none => .error "That is not a web address."
  | some parsed =>
    if parsed.protocol ≠ "https:" ∧ parsed.protocol ≠ "http:" then
      .error "Links must start with https."
    else .ok parsed

/-- Adds a link to the documents of a course. -/
def addCourseLinkAction (parseUrl : String → Option ParsedUrl) (courseId : Uuid)
    (title url isPublic : String) (id : Uuid) : Except DbError ActionResult × Database :=
  let title := trimmedField title
  if title = "" then (.ok (.error "Give the link a name."), db)
  else
    match readLink parseUrl url with
    | .error message => (.ok (.error message), db)
    | .ok parsed =>
      let scope : TenantScope := { tenantId := ctx.tenantId, now := now }
      answerWith EDIT_DENIED db (authored (decideCourseAuthoring scope db ctx courseId)
        (db.insertCourseResource
          { id := id
            tenantId := ctx.tenantId
            courseId := courseId
            kind := .link
            title := title
            storageKey := none
            url := some parsed.href
            filename := none
            byteSize := none
            isPublic := isPublic = "true"
            sortOrder := 0 }))

/-- A link has no object, so it is ready at once, with a size of zero. -/
def addLessonLinkAction (parseUrl : String → Option ParsedUrl) (lessonId : Uuid)
    (url title : String) (id : Uuid) : Except DbError ActionResult × Database :=
  match readLink parseUrl url with
  | .error message => (.ok (.error message), db)
  | .ok parsed =>
    let scope : TenantScope := { tenantId := ctx.tenantId, now := now }
    answerWith EDIT_DENIED db (authored (decideLessonAuthoring scope db ctx lessonId)
      (db.insertLessonResource
        { id := id
          tenantId := ctx.tenantId
          lessonId := lessonId
          kind := .link
          storageKey := none
          url := some parsed.href
          filename := some ((emptyAsNull (trimmedField title)).getD parsed.hostname)
          byteSize := some 0
          isDownloadable := true
          sortOrder := 1 }))

end LampLight
