import LampLight.Media.Resources

/-!
# Documents of a course or a lesson

One implementation for two tables: which table the row goes in and which predicate decides follow
from the target, and everything else is the same.

## Main results

* `reserveAttachment_viewOf`, `confirmAttachment_viewOf`, `removeAttachment_viewOf` — the three
  operations read the tenant's own rows
-/

namespace LampLight

open Js (Json Number)

/-- What a document is attached to. -/
inductive AttachmentTarget where
  | course (id : Uuid)
  | lesson (id : Uuid)
deriving DecidableEq

/-- The id of what a document is attached to. -/
def AttachmentTarget.id : AttachmentTarget → Uuid
  | .course id => id
  | .lesson id => id

/-- The kind of what a document is attached to. -/
def AttachmentTarget.kind : AttachmentTarget → String
  | .course _ => "course"
  | .lesson _ => "lesson"

/-- Same answer for "not yours" and "does not exist". -/
def attachmentDenied : String := "That is not available to you."

/-- Course attachments are decided by the course, lesson ones by the lesson. -/
def mayAuthor (scope : TenantScope) (db : Database) (ctx : AuthorContext)
    (target : AttachmentTarget) : Bool :=
  match target with
  | .course id => (decideCourseAuthoring scope db ctx id).allowed
  | .lesson id => (decideLessonAuthoring scope db ctx id).allowed

/-- The object key, null for a link, nothing when there is no such row here. -/
def findKey (tenantId : Uuid) (db : Database) (target : AttachmentTarget) (resourceId : Uuid) :
    Option (Option String) :=
  match target with
  | .course id => (db.courseResources.find? fun r =>
      r.tenantId = tenantId && r.id = resourceId && r.courseId = id).map (·.storageKey)
  | .lesson id => (db.lessonResources.find? fun r =>
      r.tenantId = tenantId && r.id = resourceId && r.lessonId = id).map (·.storageKey)

/-- A call of one of the three operations: who makes it and when. -/
structure AttachmentCall where
  ctx : AuthorContext
  now : Instant
  target : AttachmentTarget

/-- Where and when a request is served. -/
def AttachmentCall.scope (call : AttachmentCall) : TenantScope :=
  { tenantId := call.ctx.tenantId, now := call.now }

/-! ### Reserving -/

/-- What a form says about a file before it is uploaded. -/
structure AttachmentFile where
  filename : String
  contentType : String
  byteSize : Number
  title : Option String
  isPublic : Option Bool

/-- `file.title || file.filename`. -/
def AttachmentFile.displayName (file : AttachmentFile) : String :=
  (file.title.filter fun title => title ≠ "").getD file.filename

/-- Writes the row that a new document will fill. -/
def reserveDocument (db : Database) (call : AttachmentCall) (file : AttachmentFile)
    (resourceId : Uuid) : Except DbError (Option (String × Database)) :=
  let tenantId := call.ctx.tenantId
  if mayAuthor call.scope db call.ctx call.target = true then
    let objectKey := buildObjectKey
      { tenantId := tenantId, purpose := .lesson, objectId := resourceId,
        filename := file.filename }
    let inserted :=
      match call.target with
      | .course id => db.insertCourseResource
          { id := resourceId
            tenantId := tenantId
            courseId := id
            kind := .pdf
            title := file.displayName
            storageKey := some objectKey
            url := none
            filename := some file.filename
            byteSize := none
            isPublic := file.isPublic.getD false
            sortOrder := 0 }
      | .lesson id => db.insertLessonResource
          { id := resourceId
            tenantId := tenantId
            lessonId := id
            kind := .pdf
            storageKey := some objectKey
            url := none
            filename := some file.displayName
            byteSize := none
            isDownloadable := true
            sortOrder := 1 }
    inserted.map fun db => some (objectKey, db)
  else .ok none

/-- Reserves a row and issues a presigned PUT. -/
def reserveAttachment (s : MediaServices) (call : AttachmentCall) (file : AttachmentFile)
    (resourceId : Uuid) (w : MediaWorld) : Except MediaError UploadTicket × MediaWorld :=
  if storageConfigured s.env = false then
    (.ok (.error "File storage is not configured here. Add it as a link instead."), w)
  else
    match checkUpload s.numberText .document file.contentType file.byteSize with
    | .error message => (.ok (.error message), w)
    | .ok contentType =>
      match reserveDocument w.db call file resourceId with
      | .error e => (.error (.database e), w)
      | .ok none => (.ok (.error attachmentDenied), w)
      | .ok (some (key, db)) =>
        match signObjectWrite s.env s.signer call.ctx.tenantId key contentType call.now
            w.bucket with
        | .error e => (.error (.storage e), { w with db := db })
        | .ok (signed, bucket) =>
          (.ok (.ok { resourceId := resourceId, uploadUrl := signed.url,
                      contentType := contentType }), { db := db, bucket := bucket })

/-! ### Confirming -/

/-- Makes the row ready. -/
def commitAttachment (db : Database) (call : AttachmentCall) (resourceId : Uuid)
    (facts : ObjectFacts) : Except DbError Database :=
  let tenantId := call.ctx.tenantId
  let ready :=
    match call.target with
    | .course _ => db.updateCourseResource tenantId resourceId fun r =>
        { r with byteSize := some facts.byteSize }
    | .lesson _ => db.updateLessonResource tenantId resourceId fun r =>
        { r with byteSize := some facts.byteSize }
  ready.insertAuditLog
    { tenantId := tenantId
      actorUserId := some call.ctx.userId
      action := "attachment.uploaded"
      targetType := call.target.kind
      targetId := some call.target.id
      metadataJson :=
        [("resourceId", .str (uuidText resourceId)),
          ("byteSize", .num (.finite facts.byteSize))] }

/-- The key of an uploaded document, for somebody who may change what it hangs off. -/
def findAttachmentKey (db : Database) (call : AttachmentCall) (resourceId : Uuid) :
    Option String :=
  if mayAuthor call.scope db call.ctx call.target = true then
    (findKey call.ctx.tenantId db call.target resourceId).join.filter fun key => key ≠ ""
  else none

/-- Asks the bucket whether the upload arrived, and only then makes it visible. -/
def confirmAttachment (s : MediaServices) (call : AttachmentCall) (resourceId : Uuid)
    (w : MediaWorld) : Except MediaError ActionResult × MediaWorld :=
  match findAttachmentKey w.db call resourceId with
  | none => (.ok (.error attachmentDenied), w)
  | some key =>
    match inspectUpload s .document call.ctx.tenantId key w.bucket with
    | (.error e, bucket) => (.error (.storage e), { w with bucket := bucket })
    | (.ok (.refused message), bucket) => (.ok (.error message), { w with bucket := bucket })
    | (.ok (.accepted facts), bucket) =>
      match commitAttachment w.db call resourceId facts with
      | .error e => (.error (.database e), { w with bucket := bucket })
      | .ok db => (.ok .ok, { db := db, bucket := bucket })

/-! ### Removing -/

/-- Deletes the row, in a transaction that hands back its key. -/
def deleteAttachment (db : Database) (call : AttachmentCall) (resourceId : Uuid) :
    Except DbError (Option (Option String) × Database) :=
  let tenantId := call.ctx.tenantId
  if mayAuthor call.scope db call.ctx call.target = true then
    match findKey tenantId db call.target resourceId with
    | none => .ok (none, db)
    | some found =>
      let removed :=
        match call.target with
        | .course _ => db.deleteCourseResources tenantId [resourceId]
        | .lesson _ => db.deleteLessonResources tenantId [resourceId]
      (removed.insertAuditLog
        { tenantId := tenantId
          actorUserId := some call.ctx.userId
          action := "attachment.removed"
          targetType := call.target.kind
          targetId := some call.target.id
          metadataJson := [("resourceId", .str (uuidText resourceId))] }).map fun db =>
            (some found, db)
  else .ok (none, db)

/-- Removes an attachment. The object goes after the row, and a failure is left for the operator. -/
def removeAttachment (s : MediaServices) (call : AttachmentCall) (resourceId : Uuid)
    (w : MediaWorld) : Except MediaError ActionResult × MediaWorld :=
  match deleteAttachment w.db call resourceId with
  | .error e => (.error (.database e), w)
  | .ok (none, db) => (.ok (.error attachmentDenied), { w with db := db })
  | .ok (some found, db) =>
    match found.filter fun key => key ≠ "" with
    | none => (.ok .ok, { w with db := db })
    | some key =>
      if storageConfigured s.env = true then
        match deleteObject s.env call.ctx.tenantId key w.bucket with
        | .ok bucket => (.ok .ok, { db := db, bucket := bucket })
        | .error _ => (.ok .ok, { w with db := db })
      else (.ok .ok, { w with db := db })

/-! ### When they succeed -/

section Success

variable {s : MediaServices} {call : AttachmentCall} {resourceId : Uuid} {w : MediaWorld}
  {key : String} {db : Database}

/-- A reserved key that belongs is signed. -/
theorem reserveAttachment_eq (file : AttachmentFile) {type : String}
    (hs : storageConfigured s.env = true)
    (hcheck : checkUpload s.numberText .document file.contentType file.byteSize = .ok type)
    (hreserve : reserveDocument w.db call file resourceId = .ok (some (key, db)))
    (hkey : keyBelongsToTenant key call.ctx.tenantId = true) :
    let request : SignRequest :=
      { key := key, expiresInSeconds := 15 * 60, contentType := some type }
    let signed : SignedUrl :=
      { url := s.signer.signPut request, expiresAt := call.now + (15 * 60 : ℕ) * 1000 }
    reserveAttachment s call file resourceId w
      = (.ok (.ok { resourceId := resourceId, uploadUrl := signed.url, contentType := type }),
          { db := db
            bucket :=
              { w.bucket with signedPuts := w.bucket.signedPuts ++ [(request, signed)] } }) := by
  dsimp only
  rw [reserveAttachment, if_neg (by simp [hs]), hcheck]
  dsimp only
  rw [hreserve]
  dsimp only
  rw [signObjectWrite_eq hs hkey]

/-- An acceptable object makes its row ready. -/
theorem confirmAttachment_eq {facts : ObjectFacts} (hs : storageConfigured s.env = true)
    (hfind : findAttachmentKey w.db call resourceId = some key)
    (hkey : keyBelongsToTenant key call.ctx.tenantId = true)
    (hobject : w.bucket.objects key = some facts) (hfacts : Acceptable s .document facts)
    (hcommit : commitAttachment w.db call resourceId facts = .ok db) :
    confirmAttachment s call resourceId w = (.ok .ok, { w with db := db }) := by
  rw [confirmAttachment, hfind]
  dsimp only
  rw [inspectUpload_eq_accepted hs hkey hobject hfacts]
  dsimp only
  rw [hcommit]

end Success

/-! ### They read and write the tenant's own rows -/

section Views

variable {s : MediaServices} {db db' : Database} {call : AttachmentCall} {resourceId : Uuid}

theorem mayAuthor_viewOf {scope : TenantScope} {ctx : AuthorContext} {target : AttachmentTarget} :
    mayAuthor scope (db.viewOf scope.tenantId) ctx target = mayAuthor scope db ctx target := by
  cases target with
  | course id => exact congrArg AuthorDecision.allowed (decideCourseAuthoring_viewOf id)
  | lesson id => exact congrArg AuthorDecision.allowed decideLessonAuthoring_viewOf

theorem findKey_viewOf {t : Uuid} {target : AttachmentTarget} :
    findKey t (db.viewOf t) target resourceId = findKey t db target resourceId := by
  cases target with
  | course id =>
    exact congrArg (Option.map CourseResourceRow.storageKey)
      (Table.find?_owned (by simp +contextual) _)
  | lesson id =>
    exact congrArg (Option.map LessonResourceRow.storageKey)
      (Table.find?_owned (by simp +contextual) _)

theorem AttachmentCall.mayAuthor_viewOf :
    mayAuthor call.scope (db.viewOf call.ctx.tenantId) call.ctx call.target
      = mayAuthor call.scope db call.ctx call.target :=
  LampLight.mayAuthor_viewOf

theorem reserveDocument_viewOf {file : AttachmentFile}
    (hlesson : ∀ r ∈ db.lessonResources, r.id ≠ resourceId)
    (hcourse : ∀ r ∈ db.courseResources, r.id ≠ resourceId) :
    reserveDocument (db.viewOf call.ctx.tenantId) call file resourceId
      = (reserveDocument db call file resourceId).map
          (Option.map (Database.onView call.ctx.tenantId)) := by
  rw [reserveDocument, reserveDocument, call.mayAuthor_viewOf]
  split_ifs with hallowed
  · refine Machine.map_eq_map_map (Database.viewOf call.ctx.tenantId) ?_ fun _ => rfl
    cases call.target with
    | course id => exact Database.insertCourseResource_viewOf rfl hcourse
    | lesson id => exact Database.insertLessonResource_viewOf rfl hlesson
  · rfl

theorem reserveDocument_othersOf {file : AttachmentFile} {key : String}
    (h : reserveDocument db call file resourceId = .ok (some (key, db'))) :
    db'.othersOf call.ctx.tenantId = db.othersOf call.ctx.tenantId := by
  rw [reserveDocument] at h
  split_ifs at h with hallowed
  · obtain ⟨mid, hinsert, hpair⟩ := Machine.map_eq_ok.mp h
    obtain ⟨-, rfl⟩ := Prod.mk.inj (Option.some.inj hpair)
    cases htarget : call.target with
    | course id =>
      rw [htarget] at hinsert
      exact Database.insertCourseResource_othersOf rfl hinsert
    | lesson id =>
      rw [htarget] at hinsert
      exact Database.insertLessonResource_othersOf rfl hinsert
  · cases h

theorem commitAttachment_viewOf {facts : ObjectFacts} :
    commitAttachment (db.viewOf call.ctx.tenantId) call resourceId facts
      = (commitAttachment db call resourceId facts).map (Database.viewOf call.ctx.tenantId) := by
  rw [commitAttachment, commitAttachment]
  refine (congrArg (fun d : Database => d.insertAuditLog _) ?_).trans
    (Database.insertAuditLog_viewOf rfl)
  cases call.target with
  | course id => exact Database.updateCourseResource_viewOf (by exact fun _ => rfl)
  | lesson id => exact Database.updateLessonResource_viewOf (by exact fun _ => rfl)

theorem commitAttachment_othersOf {facts : ObjectFacts}
    (h : commitAttachment db call resourceId facts = .ok db') :
    db'.othersOf call.ctx.tenantId = db.othersOf call.ctx.tenantId := by
  rw [commitAttachment] at h
  refine (Database.insertAuditLog_othersOf rfl h).trans ?_
  cases call.target with
  | course id => exact Database.updateCourseResource_othersOf (by exact fun _ => rfl)
  | lesson id => exact Database.updateLessonResource_othersOf (by exact fun _ => rfl)

theorem findAttachmentKey_viewOf :
    findAttachmentKey (db.viewOf call.ctx.tenantId) call resourceId
      = findAttachmentKey db call resourceId := by
  rw [findAttachmentKey, findAttachmentKey, call.mayAuthor_viewOf, findKey_viewOf]

theorem deleteAttachment_viewOf :
    deleteAttachment (db.viewOf call.ctx.tenantId) call resourceId
      = (deleteAttachment db call resourceId).map (Database.onView call.ctx.tenantId) := by
  rw [deleteAttachment, deleteAttachment, call.mayAuthor_viewOf, findKey_viewOf]
  split_ifs with hallowed
  · cases findKey call.ctx.tenantId db call.target resourceId with
    | none => rfl
    | some found =>
      refine Machine.map_eq_map_map (Database.viewOf call.ctx.tenantId) ?_ fun _ => rfl
      refine (congrArg (fun d : Database => d.insertAuditLog _) ?_).trans
        (Database.insertAuditLog_viewOf rfl)
      cases call.target with
      | course id => exact Database.deleteCourseResources_viewOf _
      | lesson id => exact Database.deleteLessonResources_viewOf _
  · rfl

theorem deleteAttachment_othersOf {found : Option (Option String)}
    (h : deleteAttachment db call resourceId = .ok (found, db')) :
    db'.othersOf call.ctx.tenantId = db.othersOf call.ctx.tenantId := by
  rw [deleteAttachment] at h
  split_ifs at h with hallowed
  · split at h
    · obtain ⟨-, rfl⟩ := Prod.mk.inj (Except.ok.inj h)
      rfl
    · obtain ⟨mid, hlog, hpair⟩ := Machine.map_eq_ok.mp h
      obtain ⟨-, rfl⟩ := Prod.mk.inj hpair
      refine (Database.insertAuditLog_othersOf rfl hlog).trans ?_
      cases call.target with
      | course id => exact Database.deleteCourseResources_othersOf _
      | lesson id => exact Database.deleteLessonResources_othersOf _
  · obtain ⟨-, rfl⟩ := Prod.mk.inj (Except.ok.inj h)
    rfl

/-! #### The three operations -/

/-- The bucket, and the tenant's own rows. -/
def MediaWorld.viewOf (t : Uuid) (w : MediaWorld) : MediaWorld := { w with db := w.db.viewOf t }

/-- The answer stays, and the rows of other tenants are cut off. -/
def MediaWorld.onView (t : Uuid) {α : Type} (x : α × MediaWorld) : α × MediaWorld :=
  (x.1, x.2.viewOf t)

variable (s call resourceId) (w : MediaWorld)

/-- A reservation under an unused id. -/
theorem reserveAttachment_viewOf (file : AttachmentFile)
    (hlesson : ∀ r ∈ w.db.lessonResources, r.id ≠ resourceId)
    (hcourse : ∀ r ∈ w.db.courseResources, r.id ≠ resourceId) :
    reserveAttachment s call file resourceId (w.viewOf call.ctx.tenantId)
      = MediaWorld.onView call.ctx.tenantId (reserveAttachment s call file resourceId w) := by
  rw [reserveAttachment, reserveAttachment]
  split_ifs with hstorage
  · rfl
  · cases checkUpload s.numberText .document file.contentType file.byteSize with
    | error message => rfl
    | ok contentType =>
      dsimp only [MediaWorld.viewOf]
      rw [reserveDocument_viewOf hlesson hcourse]
      cases reserveDocument w.db call file resourceId with
      | error e => rfl
      | ok reserved =>
        cases reserved with
        | none => rfl
        | some x =>
          dsimp only [Except.map, Option.map, Database.onView]
          cases signObjectWrite s.env s.signer call.ctx.tenantId x.1 contentType call.now
              w.bucket with
          | error e => rfl
          | ok signed => rfl

theorem reserveAttachment_othersOf (file : AttachmentFile) :
    (reserveAttachment s call file resourceId w).2.db.othersOf call.ctx.tenantId
      = w.db.othersOf call.ctx.tenantId := by
  rw [reserveAttachment]
  split_ifs with hstorage
  · rfl
  · split
    · rfl
    · split
      · rfl
      · rfl
      · next key db' hreserve =>
        split
        · exact reserveDocument_othersOf hreserve
        · exact reserveDocument_othersOf hreserve

theorem confirmAttachment_viewOf :
    confirmAttachment s call resourceId (w.viewOf call.ctx.tenantId)
      = MediaWorld.onView call.ctx.tenantId (confirmAttachment s call resourceId w) := by
  rw [confirmAttachment, confirmAttachment]
  dsimp only [MediaWorld.viewOf]
  rw [findAttachmentKey_viewOf]
  cases findAttachmentKey w.db call resourceId with
  | none => rfl
  | some key =>
    dsimp only
    cases inspectUpload s .document call.ctx.tenantId key w.bucket with
    | mk inspection bucket =>
      cases inspection with
      | error e => rfl
      | ok inspection =>
        cases inspection with
        | refused message => rfl
        | accepted facts =>
          dsimp only
          rw [commitAttachment_viewOf]
          cases commitAttachment w.db call resourceId facts with
          | error e => rfl
          | ok db' => rfl

theorem confirmAttachment_othersOf :
    (confirmAttachment s call resourceId w).2.db.othersOf call.ctx.tenantId
      = w.db.othersOf call.ctx.tenantId := by
  rw [confirmAttachment]
  split
  · rfl
  · split
    · rfl
    · rfl
    · split
      · rfl
      · next db' hcommit => exact commitAttachment_othersOf hcommit

theorem removeAttachment_viewOf :
    removeAttachment s call resourceId (w.viewOf call.ctx.tenantId)
      = MediaWorld.onView call.ctx.tenantId (removeAttachment s call resourceId w) := by
  rw [removeAttachment, removeAttachment]
  dsimp only [MediaWorld.viewOf]
  rw [deleteAttachment_viewOf]
  cases deleteAttachment w.db call resourceId with
  | error e => rfl
  | ok x =>
    obtain ⟨found, db'⟩ := x
    cases found with
    | none => rfl
    | some found =>
      dsimp only [Except.map, Database.onView]
      cases found.filter fun key => key ≠ "" with
      | none => rfl
      | some key =>
        dsimp only
        split_ifs with hstorage
        · cases deleteObject s.env call.ctx.tenantId key w.bucket with
          | error e => rfl
          | ok bucket => rfl
        · rfl

theorem removeAttachment_othersOf :
    (removeAttachment s call resourceId w).2.db.othersOf call.ctx.tenantId
      = w.db.othersOf call.ctx.tenantId := by
  rw [removeAttachment]
  split
  · rfl
  · next db' hdelete => exact deleteAttachment_othersOf hdelete
  · next found db' hdelete =>
    have hothers := deleteAttachment_othersOf hdelete
    split
    · exact hothers
    · split_ifs with hstorage
      · split
        · exact hothers
        · exact hothers
      · exact hothers

end Views

end LampLight
