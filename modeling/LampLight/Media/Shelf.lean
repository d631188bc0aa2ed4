import LampLight.Teach.Confinement

/-!
# What stands on the shelf

A resource is reserved, confirmed or a link, and the two resource tables encode this differently: a
confirmed upload has a size in both, but a link has the size zero in one and none in the other. Here
a run of the authors' actions is watched from outside: `Shelf` remembers which ids were answered
with success by a confirmation and which by the addition of a link, for as long as the row stays.
What the columns say is then compared with what happened.

## Main definitions

* `Item` — what the two resource tables have in common
* `Shelf`, `MediaHistory`, `recordMedia` — a run with its memory of what was confirmed and linked
* `ItemStep` — what one action may do to one of the tables
* `Describes` — the columns of a table agree with the memory

## Main results

* `Describes.step` — an action keeps the agreement
* `teach_items` — every action is an `ItemStep` on both tables
* `described_run` — **in every run, what the columns say is what happened**
-/

namespace LampLight

open Machine (run Preserves)

/-! ### Items -/

/-- What the two resource tables have in common. -/
structure Item where
  id : Uuid
  tenantId : Uuid
  storageKey : Option String
  url : Option String
  byteSize : Option ℕ
deriving DecidableEq

/-- What is compared of a resource of a lesson. -/
def LessonResourceRow.item (r : LessonResourceRow) : Item where
  id := r.id
  tenantId := r.tenantId
  storageKey := r.storageKey
  url := r.url
  byteSize := r.byteSize

/-- What is compared of a resource of a course. -/
def CourseResourceRow.item (r : CourseResourceRow) : Item where
  id := r.id
  tenantId := r.tenantId
  storageKey := r.storageKey
  url := r.url
  byteSize := r.byteSize

/-- The resources of all lessons. -/
def lessonItems (db : Database) : List Item := db.lessonResources.map (·.item)

/-- The resources of all courses. -/
def courseItems (db : Database) : List Item := db.courseResources.map (·.item)

/-- The ids under which an upload was confirmed, and those under which a link was added. -/
structure Shelf where
  confirmed : List Uuid
  linked : List Uuid
deriving DecidableEq

/-- One more confirmation or link, and nothing about rows that are gone. -/
def Shelf.after (shelf : Shelf) (confirmed linked : Option Uuid) (items : List Item) : Shelf where
  confirmed := (shelf.confirmed ++ confirmed.toList).filter fun id => items.any fun i => i.id = id
  linked := (shelf.linked ++ linked.toList).filter fun id => items.any fun i => i.id = id

/-- The url is the parser's own spelling of some text. -/
def ParsedFrom (parseUrl : String → Option ParsedUrl) (url : Option String) : Prop :=
  ∃ text parsed, parseUrl text = some parsed ∧ url = some parsed.href

/-- What one action may do to a table: rows go, one is reserved, a link is added, or one of the
rows is confirmed, over an upload that storage answers for. -/
inductive ItemStep (env : Env) (parseUrl : String → Option ParsedUrl) (linkSize : Option ℕ)
    (items : List Item) : List Item → Option Uuid → Option Uuid → Prop
  | fewer {items' : List Item} (hfewer : items'.Sublist items) :
    ItemStep env parseUrl linkSize items items' none none
  | reserved {item : Item} (hfresh : ∀ i ∈ items, i.id ≠ item.id) (hurl : item.url = none)
    (hsize : item.byteSize = none) : ItemStep env parseUrl linkSize items
      (items ++ [item]) none none
  | linked {item : Item} (hfresh : ∀ i ∈ items, i.id ≠ item.id) (hkey : item.storageKey = none)
    (hurl : ParsedFrom parseUrl item.url) (hsize : item.byteSize = linkSize) :
    ItemStep env parseUrl linkSize items (items ++ [item]) none (some item.id)
  | confirmed {item : Item} {items' : List Item} {key : String} {size : ℕ} (hitem : item ∈ items)
    (hkey : item.storageKey = some key) (hne : key ≠ "")
    (hopen : openStorage env item.tenantId key = .ok ())
    (hfewer : items'.Sublist (Table.update (fun i => i.tenantId = item.tenantId && i.id = item.id)
      (fun i => { i with byteSize := some size }) items)) :
    ItemStep env parseUrl linkSize items items' (some item.id) none

/-- The columns of a table agree with what was confirmed and linked. -/
structure Describes (env : Env) (parseUrl : String → Option ParsedUrl) (linkSize : Option ℕ)
    (shelf : Shelf) (items : List Item) : Prop where
  ids : (items.map (·.id)).Nodup
  stays : ∀ id, id ∈ shelf.confirmed ∨ id ∈ shelf.linked → ∃ i ∈ items, i.id = id
  confirmed : ∀ i ∈ items, i.id ∈ shelf.confirmed → i.byteSize.isSome = true ∧ i.url = none ∧
    ∃ key, i.storageKey = some key ∧ key ≠ "" ∧ openStorage env i.tenantId key = .ok ()
  linked : ∀ i ∈ items, i.id ∈ shelf.linked →
    i.storageKey = none ∧ ParsedFrom parseUrl i.url ∧ i.byteSize = linkSize
  reserved : ∀ i ∈ items, i.id ∉ shelf.confirmed → i.id ∉ shelf.linked →
    i.byteSize = none ∧ i.url = none

section Steps

variable {env : Env} {parseUrl : String → Option ParsedUrl} {linkSize : Option ℕ} {shelf : Shelf}
  {items items' : List Item}
  {confirmed linked : Option Uuid}

@[simp] theorem mem_after_confirmed {id : Uuid} :
    id ∈ (shelf.after confirmed linked items).confirmed ↔
      (id ∈ shelf.confirmed ∨ confirmed = some id) ∧ ∃ i ∈ items, i.id = id := by
  simp [Shelf.after, List.mem_filter, or_and_right]

@[simp] theorem mem_after_linked {id : Uuid} :
    id ∈ (shelf.after confirmed linked items).linked ↔
      (id ∈ shelf.linked ∨ linked = some id) ∧ ∃ i ∈ items, i.id = id := by
  simp [Shelf.after, List.mem_filter, or_and_right]

theorem Describes.empty (env : Env) (parseUrl : String → Option ParsedUrl) (linkSize : Option ℕ) :
    Describes env parseUrl linkSize ⟨[], []⟩ [] := by
  constructor <;> simp

/-- Nothing about an id is remembered before its row is there. -/
theorem Describes.forgets (h : Describes env parseUrl linkSize shelf items) {id : Uuid}
    (hfresh : ∀ i ∈ items, i.id ≠ id) : id ∉ shelf.confirmed ∧ id ∉ shelf.linked := by
  refine ⟨fun hmem => ?_, fun hmem => ?_⟩
  · obtain ⟨i, hi, hid⟩ := h.stays id (Or.inl hmem)
    exact hfresh i hi hid
  · obtain ⟨i, hi, hid⟩ := h.stays id (Or.inr hmem)
    exact hfresh i hi hid

theorem Describes.fewer (h : Describes env parseUrl linkSize shelf items)
    (hfewer : items'.Sublist items) :
    Describes env parseUrl linkSize (shelf.after none none items') items' where
  ids := h.ids.sublist (hfewer.map _)
  stays := by simp only [mem_after_confirmed, mem_after_linked]; rintro id (h | h) <;> exact h.2
  confirmed := by
    intro i hi hconfirmed
    simp only [mem_after_confirmed, reduceCtorEq, or_false] at hconfirmed
    exact h.confirmed i (hfewer.subset hi) hconfirmed.1
  linked := by
    intro i hi hlinked
    simp only [mem_after_linked, reduceCtorEq, or_false] at hlinked
    exact h.linked i (hfewer.subset hi) hlinked.1
  reserved := by
    intro i hi hconfirmed hlinked
    refine h.reserved i (hfewer.subset hi) (fun hmem => hconfirmed ?_) fun hmem => hlinked ?_
    · simp only [mem_after_confirmed]
      exact ⟨Or.inl hmem, i, hi, rfl⟩
    · simp only [mem_after_linked]
      exact ⟨Or.inl hmem, i, hi, rfl⟩

/-- A new row, of which `linked` says whether it is a link. -/
theorem Describes.append (h : Describes env parseUrl linkSize shelf items) {item : Item}
    (hfresh : ∀ i ∈ items, i.id ≠ item.id)
    (hitem : if linked = some item.id
      then item.storageKey = none ∧ ParsedFrom parseUrl item.url ∧ item.byteSize = linkSize
      else item.byteSize = none ∧ item.url = none)
    (hlinked : ∀ i ∈ items, linked ≠ some i.id) :
    Describes env parseUrl linkSize (shelf.after none linked (items ++ [item]))
      (items ++ [item]) := by
  obtain ⟨hunconfirmed, hunlinked⟩ := h.forgets hfresh
  refine ⟨?_, ?_, ?_, ?_, ?_⟩
  · rw [List.map_append, List.map_singleton]
    refine List.nodup_append.mpr ⟨h.ids, List.nodup_singleton _, ?_⟩
    rintro _ ha _ hb rfl
    obtain ⟨i, hi, hid⟩ := List.mem_map.mp ha
    exact hfresh i hi (hid.trans (List.mem_singleton.mp hb))
  · simp only [mem_after_confirmed, mem_after_linked]
    rintro id (h | h) <;> exact h.2
  · intro i hi hconfirmed
    simp only [mem_after_confirmed, reduceCtorEq, or_false] at hconfirmed
    rcases List.mem_append.mp hi with hi | hi
    · exact h.confirmed i hi hconfirmed.1
    · rw [List.mem_singleton.mp hi] at hconfirmed
      exact absurd hconfirmed.1 hunconfirmed
  · intro i hi hmem
    simp only [mem_after_linked] at hmem
    rcases List.mem_append.mp hi with hi | hi
    · exact h.linked i hi (hmem.1.resolve_right (hlinked i hi))
    · rw [List.mem_singleton.mp hi] at hmem ⊢
      rwa [if_pos (hmem.1.resolve_left hunlinked)] at hitem
  · intro i hi hconfirmed hlink
    simp only [mem_after_confirmed, mem_after_linked] at hconfirmed hlink
    have hthere : ∃ j ∈ items ++ [item], j.id = i.id := ⟨i, hi, rfl⟩
    rcases List.mem_append.mp hi with hi | hi
    · exact h.reserved i hi (fun hmem => hconfirmed ⟨Or.inl hmem, hthere⟩)
        fun hmem => hlink ⟨Or.inl hmem, hthere⟩
    · obtain rfl := List.mem_singleton.mp hi
      rwa [if_neg fun hnew => hlink ⟨Or.inr hnew, hthere⟩] at hitem

/-- One row has its size, and perhaps others are gone. -/
theorem Describes.confirm (h : Describes env parseUrl linkSize shelf items) {item : Item}
    {key : String}
    {size : ℕ} (hitem : item ∈ items) (hkey : item.storageKey = some key) (hne : key ≠ "")
    (hopen : openStorage env item.tenantId key = .ok ())
    (hfewer : items'.Sublist (Table.update (fun i => i.tenantId = item.tenantId && i.id = item.id)
      (fun i => { i with byteSize := some size }) items)) :
    Describes env parseUrl linkSize (shelf.after (some item.id) none items') items' := by
  -- a row with a key is no link
  have hurl : item.url = none := by
    by_cases hlinked : item.id ∈ shelf.linked
    · rw [(h.linked item hitem hlinked).1] at hkey
      cases hkey
    · by_cases hconfirmed : item.id ∈ shelf.confirmed
      · exact (h.confirmed item hitem hconfirmed).2.1
      · exact (h.reserved item hitem hconfirmed hlinked).2
  have hunlinked : item.id ∉ shelf.linked := by
    intro hlinked
    rw [(h.linked item hitem hlinked).1] at hkey
    cases hkey
  have hcases : ∀ i ∈ items', (i ∈ items ∧ i.id ≠ item.id) ∨
      i = { item with byteSize := some size } := by
    intro i hi
    rcases Table.mem_update.mp (hfewer.subset hi) with ⟨hmem, hp⟩ | ⟨j, hj, hp, rfl⟩
    · refine Or.inl ⟨hmem, fun hid => ?_⟩
      obtain rfl := Table.eq_of_key_eq h.ids hmem hitem hid
      simp at hp
    · rw [Bool.and_eq_true, decide_eq_true_eq, decide_eq_true_eq] at hp
      obtain rfl := Table.eq_of_key_eq h.ids hj hitem hp.2
      exact Or.inr rfl
  refine ⟨?_, ?_, ?_, ?_, ?_⟩
  · have hids := hfewer.map (·.id)
    rw [Table.map_update (by exact fun _ => rfl)] at hids
    exact h.ids.sublist hids
  · simp only [mem_after_confirmed, mem_after_linked]
    rintro id (h | h) <;> exact h.2
  · intro i hi hmem
    simp only [mem_after_confirmed, Option.some.injEq] at hmem
    rcases hcases i hi with ⟨hold, hid⟩ | rfl
    · exact h.confirmed i hold (hmem.1.resolve_right fun heq => hid heq.symm)
    · exact ⟨rfl, hurl, key, hkey, hne, hopen⟩
  · intro i hi hmem
    simp only [mem_after_linked, reduceCtorEq, or_false] at hmem
    rcases hcases i hi with ⟨hold, -⟩ | rfl
    · exact h.linked i hold hmem.1
    · exact absurd hmem.1 hunlinked
  · intro i hi hconfirmed hlink
    simp only [mem_after_confirmed, mem_after_linked] at hconfirmed hlink
    have hthere : ∃ j ∈ items', j.id = i.id := ⟨i, hi, rfl⟩
    rcases hcases i hi with ⟨hold, -⟩ | rfl
    · exact h.reserved i hold (fun hmem => hconfirmed ⟨Or.inl hmem, hthere⟩)
        fun hmem => hlink ⟨Or.inl hmem, hthere⟩
    · exact absurd ⟨Or.inr rfl, hthere⟩ hconfirmed

/-- **An action keeps the agreement.** -/
theorem Describes.step (h : Describes env parseUrl linkSize shelf items)
    (hstep : ItemStep env parseUrl linkSize items items' confirmed linked) :
    Describes env parseUrl linkSize (shelf.after confirmed linked items') items' := by
  cases hstep with
  | fewer hfewer => exact h.fewer hfewer
  | reserved hfresh hurl hsize => exact h.append hfresh (by simp [hsize, hurl]) (by simp)
  | linked hfresh hkey hurl hsize =>
    refine h.append hfresh (by simp [hkey, hurl, hsize]) fun i hi hid => ?_
    exact hfresh i hi (Option.some.inj hid).symm
  | confirmed hitem hkey hne hopen hfewer => exact h.confirm hitem hkey hne hopen hfewer

end Steps

/-! ### Runs with a memory -/

/-- What is noted of an id when the action about it was answered with success. -/
def noted {ε : Type} (id : Uuid) : Except ε ActionResult → Option Uuid
  | .ok .ok => some id
  | .ok (.error _) => none
  | .error _ => none

section Memory

variable (s : MediaServices) (parseUrl : String → Option ParsedUrl) (ctx : AuthorContext)
  (now : Instant) (w : MediaWorld)

/-- The upload to a lesson that the action confirmed. -/
def confirmedUpload : TeachAction → Option Uuid
  | .completeUpload lessonId resourceId durationSeconds isDownloadable =>
    noted resourceId (completeUploadAction s
      ⟨ctx, now, lessonId, resourceId, durationSeconds, isDownloadable⟩ w).1
  | .confirmAttachment (.lesson id) resourceId =>
    noted resourceId (confirmAttachment s ⟨ctx, now, .lesson id⟩ resourceId w).1
  | _ => none

/-- The document of a course that the action confirmed. -/
def confirmedDocument : TeachAction → Option Uuid
  | .confirmAttachment (.course id) resourceId =>
    noted resourceId (confirmAttachment s ⟨ctx, now, .course id⟩ resourceId w).1
  | _ => none

/-- The link of a lesson that the action added. -/
def addedLessonLink : TeachAction → Option Uuid
  | .addLessonLink lessonId url title id =>
    noted id (addLessonLinkAction w.db ctx now parseUrl lessonId url title id).1
  | _ => none

/-- The link of a course that the action added. -/
def addedCourseLink : TeachAction → Option Uuid
  | .addCourseLink courseId title url isPublic id =>
    noted id (addCourseLinkAction w.db ctx now parseUrl courseId title url isPublic id).1
  | _ => none

end Memory

/-- What happens to media: the actions of authors, the PUTs of whoever holds a signed URL, and
between them any change at all to the other tables. -/
inductive MediaEvent
  | teach (ctx : AuthorContext) (now : Instant) (action : TeachAction)
  | put (signed : SignRequest × SignedUrl) (now : Instant) (facts : ObjectFacts)
  | elsewhere (db : Database)

/-- The media, with a record of how each resource came to be offered. -/
structure MediaHistory where
  world : MediaWorld
  lessons : Shelf
  courses : Shelf

/-- Before anything is on a shelf. -/
def MediaHistory.start (w : MediaWorld) : MediaHistory where
  world := w
  lessons := ⟨[], []⟩
  courses := ⟨[], []⟩

/-- One event, with the record kept. -/
def recordMedia (s : MediaServices) (parseUrl : String → Option ParsedUrl) (h : MediaHistory) :
    MediaEvent → MediaHistory
  | .teach ctx now action =>
    let world := teach s parseUrl ctx now h.world action
    { world := world
      lessons := h.lessons.after (confirmedUpload s ctx now h.world action)
        (addedLessonLink parseUrl ctx now h.world action) (lessonItems world.db)
      courses := h.courses.after (confirmedDocument s ctx now h.world action)
        (addedCourseLink parseUrl ctx now h.world action) (courseItems world.db) }
  | .put signed now facts => { h with world := mediaStep s h.world (.put signed now facts) }
  | .elsewhere db =>
    let db := { db with lessonResources := h.world.db.lessonResources
                        courseResources := h.world.db.courseResources }
    { h with world := { h.world with db := db } }

/-! ### Every action is such a step -/

section Actions

variable {s : MediaServices} {parseUrl : String → Option ParsedUrl} {ctx : AuthorContext}
  {now : Instant} {w : MediaWorld} {db db' : Database} {linkSize : Option ℕ}

theorem ItemStep.same (items : List Item) :
    ItemStep s.env parseUrl linkSize items items none none :=
  .fewer (List.Sublist.refl items)

/-- An action that writes only for somebody who may leaves the database alone or succeeds. -/
theorem answerWith_cases (db : Database) {denied : ActionResult} (hdenied : denied ≠ .ok)
    (decision : AuthorDecision) (write : Except DbError Database) :
    ((answerWith denied db (authored decision write)).2 = db ∧
        ∀ id, noted id (answerWith denied db (authored decision write)).1 = none) ∨
      ∃ db', write = .ok db' ∧ answerWith denied db (authored decision write) = (.ok .ok, db') := by
  rw [authored]
  split_ifs
  · cases write with
    | error e => exact Or.inl ⟨rfl, fun _ => rfl⟩
    | ok db' => exact Or.inr ⟨db', rfl, rfl⟩
  · cases denied with
    | ok => exact absurd rfl hdenied
    | error message => exact Or.inl ⟨rfl, fun _ => rfl⟩

/-- Neither table of resources changes. -/
structure KeepsItems (db db' : Database) : Prop where
  lessons : db'.lessonResources = db.lessonResources
  courses : db'.courseResources = db.courseResources

theorem KeepsItems.answerWith {denied : ActionResult} (hdenied : denied ≠ .ok)
    {decision : AuthorDecision} {write : Except DbError Database}
    (h : ∀ db', write = .ok db' → KeepsItems db db') :
    KeepsItems db (answerWith denied db (authored decision write)).2 := by
  rcases answerWith_cases db hdenied decision write with ⟨hsame, -⟩ | ⟨db', hwrite, hdone⟩
  · rw [hsame]
    exact ⟨rfl, rfl⟩
  · rw [hdone]
    exact h db' hwrite

theorem addModuleAction_keepsItems (courseId : Uuid) (title : String) (id : Uuid) :
    KeepsItems db (addModuleAction db ctx now courseId title id).2 := by
  rw [addModuleAction]
  split_ifs
  · exact ⟨rfl, rfl⟩
  · refine KeepsItems.answerWith (by simp [DENIED]) fun db' hwrite => ?_
    obtain ⟨mid, hinsert, hlog⟩ := Machine.bind_eq_ok.mp hwrite
    obtain ⟨-, rfl⟩ := Database.checked_ok.mp hinsert
    obtain rfl := Database.insertAuditLog_ok hlog
    exact ⟨rfl, rfl⟩

theorem addLessonAction_keepsItems (moduleId : Uuid) (title : String)
    (isFreePreview : Option String) (id : Uuid) :
    KeepsItems db (addLessonAction db ctx now moduleId title isFreePreview id).2 := by
  rw [addLessonAction]
  split_ifs
  · exact ⟨rfl, rfl⟩
  · dsimp only
    split
    · exact ⟨rfl, rfl⟩
    · refine KeepsItems.answerWith (by simp [DENIED]) fun db' hwrite => ?_
      obtain ⟨mid, hinsert, hlog⟩ := Machine.bind_eq_ok.mp hwrite
      obtain ⟨-, rfl⟩ := Database.checked_ok.mp hinsert
      obtain rfl := Database.insertAuditLog_ok hlog
      exact ⟨rfl, rfl⟩

theorem updateCourseAction_keepsItems (courseId : Uuid) (title descriptionMd : String) :
    KeepsItems db (updateCourseAction db ctx now courseId title descriptionMd).2 := by
  rw [updateCourseAction]
  split_ifs
  · exact ⟨rfl, rfl⟩
  · exact ⟨rfl, rfl⟩
  · refine KeepsItems.answerWith (by simp [EDIT_DENIED]) fun db' hwrite => ?_
    obtain rfl := Except.ok.inj hwrite
    exact ⟨rfl, rfl⟩

theorem updateModuleAction_keepsItems (moduleId : Uuid) (title : String) :
    KeepsItems db (updateModuleAction db ctx now moduleId title).2 := by
  rw [updateModuleAction]
  split_ifs
  · exact ⟨rfl, rfl⟩
  · refine KeepsItems.answerWith (by simp [EDIT_DENIED]) fun db' hwrite => ?_
    obtain rfl := Except.ok.inj hwrite
    exact ⟨rfl, rfl⟩

theorem updateLessonAction_keepsItems (lessonId : Uuid) (title contentMd isFreePreview : String) :
    KeepsItems db (updateLessonAction db ctx now lessonId title contentMd isFreePreview).2 := by
  rw [updateLessonAction]
  split_ifs
  · exact ⟨rfl, rfl⟩
  · exact ⟨rfl, rfl⟩
  · refine KeepsItems.answerWith (by simp [EDIT_DENIED]) fun db' hwrite => ?_
    obtain rfl := Database.insertAuditLog_ok hwrite
    exact ⟨rfl, rfl⟩

/-! ### Statements on items -/

theorem lessonItems_insert {row : LessonResourceRow} (h : db.insertLessonResource row = .ok db') :
    (∀ i ∈ lessonItems db, i.id ≠ row.item.id) ∧ lessonItems db' = lessonItems db ++ [row.item] ∧
      courseItems db' = courseItems db := by
  obtain ⟨hviolated, rfl⟩ := Database.checked_ok.mp h
  have hfresh := hviolated _ (List.mem_cons_self ..)
  refine ⟨?_, ?_, rfl⟩
  · simpa [lessonItems, LessonResourceRow.item] using hfresh
  · simp [lessonItems]

theorem courseItems_insert {row : CourseResourceRow} (h : db.insertCourseResource row = .ok db') :
    (∀ i ∈ courseItems db, i.id ≠ row.item.id) ∧ courseItems db' = courseItems db ++ [row.item] ∧
      lessonItems db' = lessonItems db := by
  obtain ⟨hviolated, rfl⟩ := Database.checked_ok.mp h
  have hfresh := hviolated _ (List.mem_cons_self ..)
  refine ⟨?_, ?_, rfl⟩
  · simpa [courseItems, CourseResourceRow.item] using hfresh
  · simp [courseItems]

/-! ### Links -/

/-- The url of a link that is read is the parser's. -/
theorem readLink_parsed {url : String} {parsed : ParsedUrl}
    (h : readLink parseUrl url = .ok parsed) :
    ParsedFrom parseUrl (some parsed.href) := by
  rw [readLink] at h
  split at h
  · cases h
  · next found hfound =>
    split_ifs at h
    obtain rfl := Except.ok.inj h
    exact ⟨_, found, hfound, rfl⟩

theorem addLessonLink_step (lessonId : Uuid) (url title : String) (id : Uuid) :
    let done := (addLessonLinkAction w.db ctx now parseUrl lessonId url title id).2
    ItemStep s.env parseUrl (some 0) (lessonItems w.db) (lessonItems done) none
        (addedLessonLink parseUrl ctx now w (.addLessonLink lessonId url title id)) ∧
      ItemStep s.env parseUrl none (courseItems w.db) (courseItems done) none none := by
  dsimp only
  rw [addedLessonLink, addLessonLinkAction]
  split
  · exact ⟨.same _, .same _⟩
  · next hparsed =>
    dsimp only
    rcases answerWith_cases w.db (show EDIT_DENIED ≠ .ok by simp [EDIT_DENIED]) _ _
      with ⟨hsame, hfailed⟩ | ⟨db', hinsert, hdone⟩
    · rw [hsame, hfailed]
      exact ⟨.same _, .same _⟩
    · rw [hdone]
      obtain ⟨hfresh, hitems, hcourses⟩ := lessonItems_insert hinsert
      show ItemStep s.env parseUrl (some 0) (lessonItems w.db) (lessonItems db') none (some id) ∧
        ItemStep s.env parseUrl none (courseItems w.db) (courseItems db') none none
      rw [hitems, hcourses]
      exact ⟨.linked hfresh rfl (readLink_parsed hparsed) rfl, .same _⟩

theorem addCourseLink_step (courseId : Uuid) (title url isPublic : String) (id : Uuid) :
    let done := (addCourseLinkAction w.db ctx now parseUrl courseId title url isPublic id).2
    ItemStep s.env parseUrl (some 0) (lessonItems w.db) (lessonItems done) none none ∧
      ItemStep s.env parseUrl none (courseItems w.db) (courseItems done) none
        (addedCourseLink parseUrl ctx now w (.addCourseLink courseId title url isPublic id)) := by
  dsimp only
  rw [addedCourseLink, addCourseLinkAction]
  split_ifs
  · exact ⟨.same _, .same _⟩
  · split
    · exact ⟨.same _, .same _⟩
    · next hparsed =>
      dsimp only
      rcases answerWith_cases w.db (show EDIT_DENIED ≠ .ok by simp [EDIT_DENIED]) _ _
        with ⟨hsame, hfailed⟩ | ⟨db', hinsert, hdone⟩
      · rw [hsame, hfailed]
        exact ⟨.same _, .same _⟩
      · rw [hdone]
        obtain ⟨hfresh, hitems, hlessons⟩ := courseItems_insert hinsert
        show ItemStep s.env parseUrl (some 0) (lessonItems w.db) (lessonItems db') none none ∧
          ItemStep s.env parseUrl none (courseItems w.db) (courseItems db') none (some id)
        rw [hitems, hlessons]
        exact ⟨.same _, .linked hfresh rfl (readLink_parsed hparsed) rfl⟩

/-! ### Recordings -/

theorem requestUploadAction_step (form : UploadForm) (draw : UploadDraw) :
    let done := (requestUploadAction s ctx form draw w).2.db
    ItemStep s.env parseUrl (some 0) (lessonItems w.db) (lessonItems done) none none ∧
      ItemStep s.env parseUrl none (courseItems w.db) (courseItems done) none none := by
  have hreserved : ∀ key db', reserveRecording w.db ctx form draw = .ok (some (key, db')) →
      ItemStep s.env parseUrl (some 0) (lessonItems w.db) (lessonItems db') none none ∧
        ItemStep s.env parseUrl none (courseItems w.db) (courseItems db') none none := by
    intro key db' h
    rw [reserveRecording] at h
    split_ifs at h
    · obtain ⟨db₂, hwrite, hpair⟩ := Machine.map_eq_ok.mp h
      obtain ⟨mid, hinsert, hlog⟩ := Machine.bind_eq_ok.mp hwrite
      obtain ⟨-, rfl⟩ := Prod.mk.inj (Option.some.inj hpair)
      obtain rfl := Database.insertAuditLog_ok hlog
      obtain ⟨hfresh, hitems, hcourses⟩ := lessonItems_insert hinsert
      show ItemStep s.env parseUrl (some 0) (lessonItems w.db) (lessonItems mid) none none ∧
        ItemStep s.env parseUrl none (courseItems w.db) (courseItems mid) none none
      rw [hitems, hcourses]
      exact ⟨.reserved hfresh rfl rfl, .same _⟩
    · cases h
  dsimp only
  rw [requestUploadAction]
  split_ifs
  · exact ⟨.same _, .same _⟩
  · split
    · exact ⟨.same _, .same _⟩
    · split
      · exact ⟨.same _, .same _⟩
      · exact ⟨.same _, .same _⟩
      · next key db' hreserve =>
        split
        · exact hreserved key db' hreserve
        · exact hreserved key db' hreserve

/-- An upload that storage answers for. -/
theorem openStorage_of_inspectUpload {kind : UploadKind} {tenantId : Uuid} {key : String}
    {bucket bucket' : Bucket} {facts : ObjectFacts}
    (h : inspectUpload s kind tenantId key bucket = (.ok (.accepted facts), bucket')) :
    openStorage s.env tenantId key = .ok () := by
  cases hopen : openStorage s.env tenantId key with
  | ok u => rfl
  | error e =>
    have hstat : statObject s.env tenantId key bucket = .error e := by
      rw [statObject, hopen]
      rfl
    rw [inspectUpload, hstat] at h
    cases h

theorem completeUploadAction_step (call : UploadCall) :
    let done := (completeUploadAction s call w).2.db
    ItemStep s.env parseUrl (some 0) (lessonItems w.db) (lessonItems done)
        (noted call.resourceId (completeUploadAction s call w).1) none ∧
      ItemStep s.env parseUrl none (courseItems w.db) (courseItems done) none none := by
  dsimp only
  rw [completeUploadAction]
  split_ifs
  · exact ⟨.same _, .same _⟩
  · split
    · exact ⟨.same _, .same _⟩
    · next key hkey =>
      split
      · exact ⟨.same _, .same _⟩
      · exact ⟨.same _, .same _⟩
      · next facts bucket hinspect =>
        dsimp only
        split
        · exact ⟨.same _, .same _⟩
        · next db' hcommit =>
          obtain ⟨-, hne, r, hr, htenant, hid, -, hstored⟩ := findRecordingKey_eq_some hkey
          rw [← htenant] at hinspect
          have hcourses : courseItems db' = courseItems w.db := by
            rw [courseItems, commitUpload_courseResources hcommit, courseItems]
          have hready : (Table.update (fun r => r.tenantId = call.ctx.tenantId &&
                r.id = call.resourceId)
              (fun r => { r with byteSize := some facts.byteSize,
                                 isDownloadable := call.isDownloadable })
              w.db.lessonResources).map (·.item)
              = Table.update (fun i => i.tenantId = r.item.tenantId && i.id = r.item.id)
                (fun i => { i with byteSize := some facts.byteSize }) (lessonItems w.db) := by
            rw [← htenant, ← hid]
            exact Table.map_update_comm (by exact fun _ => rfl) (by exact fun _ => rfl)
              w.db.lessonResources
          have hitems := (Table.delete_sublist
            (fun a => a.tenantId = call.ctx.tenantId && a.id ∈ (listSuperseded w.db call).map
              (·.id))
            (Table.update (fun r => r.tenantId = call.ctx.tenantId && r.id = call.resourceId)
              (fun r => { r with byteSize := some facts.byteSize,
                                 isDownloadable := call.isDownloadable })
              w.db.lessonResources)).map (·.item)
          rw [hready, ← (commitUpload_ok hcommit).1] at hitems
          have hopen : openStorage s.env r.item.tenantId key = .ok () :=
            openStorage_of_inspectUpload hinspect
          show ItemStep s.env parseUrl (some 0) (lessonItems w.db) (lessonItems db')
            (some call.resourceId)
              none ∧
            ItemStep s.env parseUrl none (courseItems w.db) (courseItems db') none none
          rw [hcourses, ← hid]
          exact ⟨.confirmed (List.mem_map_of_mem hr) hstored hne hopen hitems, .same _⟩

theorem removeResourceAction_step (call : UploadCall) :
    let done := (removeResourceAction s call w).2.db
    ItemStep s.env parseUrl (some 0) (lessonItems w.db) (lessonItems done) none none ∧
      ItemStep s.env parseUrl none (courseItems w.db) (courseItems done) none none := by
  dsimp only
  rw [removeResourceAction]
  split
  · exact ⟨.same _, .same _⟩
  · dsimp only
    split
    · exact ⟨.same _, .same _⟩
    · next db' hlog =>
      obtain rfl := Database.insertAuditLog_ok hlog
      exact ⟨.fewer ((Table.delete_sublist _ _).map _), .same _⟩

/-! ### Documents -/

/-- Reserving a document adds a row to one of the two tables. -/
theorem reserveAttachment_step (target : AttachmentTarget) (file : AttachmentFile)
    (resourceId : Uuid) :
    let done := (reserveAttachment s ⟨ctx, now, target⟩ file resourceId w).2.db
    ItemStep s.env parseUrl (some 0) (lessonItems w.db) (lessonItems done) none none ∧
      ItemStep s.env parseUrl none (courseItems w.db) (courseItems done) none none := by
  have hreserved : ∀ key db', reserveDocument w.db ⟨ctx, now, target⟩ file resourceId
      = .ok (some (key, db')) →
      ItemStep s.env parseUrl (some 0) (lessonItems w.db) (lessonItems db') none none ∧
        ItemStep s.env parseUrl none (courseItems w.db) (courseItems db') none none := by
    intro key db' h
    rw [reserveDocument] at h
    split_ifs at h
    · obtain ⟨mid, hinsert, hpair⟩ := Machine.map_eq_ok.mp h
      obtain ⟨-, rfl⟩ := Prod.mk.inj (Option.some.inj hpair)
      cases target with
      | course id =>
        obtain ⟨hfresh, hitems, hlessons⟩ := courseItems_insert hinsert
        rw [hlessons, hitems]
        exact ⟨.same _, .reserved hfresh rfl rfl⟩
      | lesson id =>
        obtain ⟨hfresh, hitems, hcourses⟩ := lessonItems_insert hinsert
        rw [hcourses, hitems]
        exact ⟨.reserved hfresh rfl rfl, .same _⟩
    · cases h
  dsimp only
  rw [reserveAttachment]
  split_ifs
  · exact ⟨.same _, .same _⟩
  · split
    · exact ⟨.same _, .same _⟩
    · split
      · exact ⟨.same _, .same _⟩
      · exact ⟨.same _, .same _⟩
      · next key db' hreserve =>
        split
        · exact hreserved key db' hreserve
        · exact hreserved key db' hreserve

/-- Confirming a document asks storage about the key that was found, and then commits. -/
theorem confirmAttachment_cases (call : AttachmentCall) (resourceId : Uuid) :
    ((confirmAttachment s call resourceId w).2.db = w.db ∧
        noted resourceId (confirmAttachment s call resourceId w).1 = none) ∨
      ∃ key facts db', findKey call.ctx.tenantId w.db call.target resourceId = some (some key) ∧
        key ≠ "" ∧ openStorage s.env call.ctx.tenantId key = .ok () ∧
        commitAttachment w.db call resourceId facts = .ok db' ∧
        (confirmAttachment s call resourceId w).2.db = db' ∧
        noted resourceId (confirmAttachment s call resourceId w).1 = some resourceId := by
  rw [confirmAttachment]
  split
  · exact Or.inl ⟨rfl, rfl⟩
  · next key hkey =>
    split
    · exact Or.inl ⟨rfl, rfl⟩
    · exact Or.inl ⟨rfl, rfl⟩
    · next facts bucket hinspect =>
      split
      · exact Or.inl ⟨rfl, rfl⟩
      · next db' hcommit =>
        rw [findAttachmentKey] at hkey
        split_ifs at hkey
        · obtain ⟨hjoin, hne⟩ := Option.filter_eq_some_iff.mp hkey
          exact Or.inr ⟨key, facts, db', Option.join_eq_some_iff.mp hjoin, by simpa using hne,
            openStorage_of_inspectUpload hinspect, hcommit, rfl, rfl⟩

theorem findKey_course_eq_some {tenantId id resourceId : Uuid} {found : Option String}
    (h : findKey tenantId db (.course id) resourceId = some found) :
    ∃ r ∈ db.courseResources, r.tenantId = tenantId ∧ r.id = resourceId ∧ r.courseId = id ∧
      r.storageKey = found := by
  obtain ⟨r, hr, hkey⟩ := Option.map_eq_some_iff.mp h
  have hp := List.find?_some hr
  simp only [Bool.and_eq_true, decide_eq_true_eq] at hp
  exact ⟨r, List.mem_of_find?_eq_some hr, hp.1.1, hp.1.2, hp.2, hkey⟩

/-- Making one row ready is a confirmation, in either table. -/
theorem lessonItems_ready {r : LessonResourceRow} (hr : r ∈ db.lessonResources) {key : String}
    (hkey : r.storageKey = some key) (hne : key ≠ "")
    (hopen : openStorage s.env r.tenantId key = .ok ()) (size : ℕ) :
    ItemStep s.env parseUrl linkSize (lessonItems db)
      (lessonItems
        (db.updateLessonResource r.tenantId r.id fun r => { r with byteSize := some size }))
      (some r.id) none := by
  have hready : lessonItems (db.updateLessonResource r.tenantId r.id fun r =>
        { r with byteSize := some size })
      = Table.update (fun i => i.tenantId = r.item.tenantId && i.id = r.item.id)
        (fun i => { i with byteSize := some size }) (lessonItems db) :=
    Table.map_update_comm (by exact fun _ => rfl) (by exact fun _ => rfl) db.lessonResources
  rw [hready]
  have hstored : r.item.storageKey = some key := hkey
  exact .confirmed (List.mem_map_of_mem hr) hstored hne hopen (List.Sublist.refl _)

theorem courseItems_ready {r : CourseResourceRow} (hr : r ∈ db.courseResources) {key : String}
    (hkey : r.storageKey = some key) (hne : key ≠ "")
    (hopen : openStorage s.env r.tenantId key = .ok ()) (size : ℕ) :
    ItemStep s.env parseUrl linkSize (courseItems db)
      (courseItems
        (db.updateCourseResource r.tenantId r.id fun r => { r with byteSize := some size }))
      (some r.id) none := by
  have hready : courseItems (db.updateCourseResource r.tenantId r.id fun r =>
        { r with byteSize := some size })
      = Table.update (fun i => i.tenantId = r.item.tenantId && i.id = r.item.id)
        (fun i => { i with byteSize := some size }) (courseItems db) :=
    Table.map_update_comm (by exact fun _ => rfl) (by exact fun _ => rfl) db.courseResources
  rw [hready]
  have hstored : r.item.storageKey = some key := hkey
  exact .confirmed (List.mem_map_of_mem hr) hstored hne hopen (List.Sublist.refl _)

/-- Confirming a document makes a row of one of the two tables ready. -/
theorem confirmAttachment_step (target : AttachmentTarget) (resourceId : Uuid) :
    let done := (confirmAttachment s ⟨ctx, now, target⟩ resourceId w).2.db
    ItemStep s.env parseUrl (some 0) (lessonItems w.db) (lessonItems done)
        (confirmedUpload s ctx now w (.confirmAttachment target resourceId)) none ∧
      ItemStep s.env parseUrl none (courseItems w.db) (courseItems done)
        (confirmedDocument s ctx now w (.confirmAttachment target resourceId)) none := by
  dsimp only
  cases target with
  | lesson id =>
    simp only [confirmedUpload, confirmedDocument]
    rcases confirmAttachment_cases (s := s) (w := w) ⟨ctx, now, .lesson id⟩ resourceId with
      ⟨hsame, hnoted⟩ | ⟨key, facts, db', hfind, hne, hopen, hcommit, hdone, hnoted⟩
    · rw [hsame, hnoted]
      exact ⟨.same _, .same _⟩
    · rw [hdone, hnoted]
      obtain ⟨r, hr, htenant, rfl, -, hkey⟩ := findKey_lesson_eq_some hfind
      obtain rfl := Database.insertAuditLog_ok hcommit
      dsimp only at htenant hopen
      rw [← htenant] at hopen ⊢
      exact ⟨lessonItems_ready hr hkey hne hopen facts.byteSize, .same _⟩
  | course id =>
    simp only [confirmedUpload, confirmedDocument]
    rcases confirmAttachment_cases (s := s) (w := w) ⟨ctx, now, .course id⟩ resourceId with
      ⟨hsame, hnoted⟩ | ⟨key, facts, db', hfind, hne, hopen, hcommit, hdone, hnoted⟩
    · rw [hsame, hnoted]
      exact ⟨.same _, .same _⟩
    · rw [hdone, hnoted]
      obtain ⟨r, hr, htenant, rfl, -, hkey⟩ := findKey_course_eq_some hfind
      obtain rfl := Database.insertAuditLog_ok hcommit
      dsimp only at htenant hopen
      rw [← htenant] at hopen ⊢
      exact ⟨.same _, courseItems_ready hr hkey hne hopen facts.byteSize⟩

/-- Removing a document takes rows from one of the two tables. -/
theorem removeAttachment_step (target : AttachmentTarget) (resourceId : Uuid) :
    let done := (removeAttachment s ⟨ctx, now, target⟩ resourceId w).2.db
    ItemStep s.env parseUrl (some 0) (lessonItems w.db) (lessonItems done) none none ∧
      ItemStep s.env parseUrl none (courseItems w.db) (courseItems done) none none := by
  have hdeleted : ∀ found db', deleteAttachment w.db ⟨ctx, now, target⟩ resourceId
      = .ok (found, db') →
      ItemStep s.env parseUrl (some 0) (lessonItems w.db) (lessonItems db') none none ∧
        ItemStep s.env parseUrl none (courseItems w.db) (courseItems db') none none := by
    intro found db' h
    rw [deleteAttachment] at h
    split_ifs at h
    · split at h
      · obtain ⟨-, rfl⟩ := Prod.mk.inj (Except.ok.inj h)
        exact ⟨.same _, .same _⟩
      · obtain ⟨mid, hlog, hpair⟩ := Machine.map_eq_ok.mp h
        obtain ⟨-, rfl⟩ := Prod.mk.inj hpair
        cases target with
        | course id =>
          obtain rfl := Database.insertAuditLog_ok hlog
          exact ⟨.same _, .fewer ((Table.delete_sublist _ _).map _)⟩
        | lesson id =>
          obtain rfl := Database.insertAuditLog_ok hlog
          exact ⟨.fewer ((Table.delete_sublist _ _).map _), .same _⟩
    · obtain ⟨-, rfl⟩ := Prod.mk.inj (Except.ok.inj h)
      exact ⟨.same _, .same _⟩
  dsimp only
  rw [removeAttachment]
  split
  · exact ⟨.same _, .same _⟩
  · next db' hdelete => exact hdeleted none db' hdelete
  · next found db' hdelete =>
    have hdb := hdeleted (some found) db' hdelete
    split
    · exact hdb
    · split_ifs
      · split
        · exact hdb
        · exact hdb
      · exact hdb

/-! ### The thirteen actions -/

theorem KeepsItems.steps (h : KeepsItems w.db db') :
    ItemStep s.env parseUrl (some 0) (lessonItems w.db) (lessonItems db') none none ∧
      ItemStep s.env parseUrl none (courseItems w.db) (courseItems db') none none := by
  rw [lessonItems, lessonItems, courseItems, courseItems, h.lessons, h.courses]
  exact ⟨.same _, .same _⟩

/-- **What an action does to the tables of resources, and what it answers, fit together.** -/
theorem teach_items (s : MediaServices) (parseUrl : String → Option ParsedUrl)
    (ctx : AuthorContext) (now : Instant) (w : MediaWorld) (action : TeachAction) :
    let done := (teach s parseUrl ctx now w action).db
    ItemStep s.env parseUrl (some 0) (lessonItems w.db) (lessonItems done)
        (confirmedUpload s ctx now w action) (addedLessonLink parseUrl ctx now w action) ∧
      ItemStep s.env parseUrl none (courseItems w.db) (courseItems done)
        (confirmedDocument s ctx now w action) (addedCourseLink parseUrl ctx now w action) := by
  cases action with
  | addModule courseId title id =>
    simp only [teach, confirmedUpload, confirmedDocument, addedLessonLink, addedCourseLink]
    exact (addModuleAction_keepsItems courseId title id).steps
  | addLesson moduleId title isFreePreview id =>
    simp only [teach, confirmedUpload, confirmedDocument, addedLessonLink, addedCourseLink]
    exact (addLessonAction_keepsItems moduleId title isFreePreview id).steps
  | updateCourse courseId title descriptionMd =>
    simp only [teach, confirmedUpload, confirmedDocument, addedLessonLink, addedCourseLink]
    exact (updateCourseAction_keepsItems courseId title descriptionMd).steps
  | updateModule moduleId title =>
    simp only [teach, confirmedUpload, confirmedDocument, addedLessonLink, addedCourseLink]
    exact (updateModuleAction_keepsItems moduleId title).steps
  | updateLesson lessonId title contentMd isFreePreview =>
    simp only [teach, confirmedUpload, confirmedDocument, addedLessonLink, addedCourseLink]
    exact (updateLessonAction_keepsItems lessonId title contentMd isFreePreview).steps
  | addLessonLink lessonId url title id =>
    simp only [teach, confirmedUpload, confirmedDocument, addedCourseLink]
    exact addLessonLink_step lessonId url title id
  | addCourseLink courseId title url isPublic id =>
    simp only [teach, confirmedUpload, confirmedDocument, addedLessonLink]
    exact addCourseLink_step courseId title url isPublic id
  | requestUpload form resourceId =>
    simp only [teach, confirmedUpload, confirmedDocument, addedLessonLink, addedCourseLink]
    exact requestUploadAction_step form ⟨resourceId, now⟩
  | completeUpload lessonId resourceId durationSeconds isDownloadable =>
    simp only [teach, confirmedUpload, confirmedDocument, addedLessonLink, addedCourseLink]
    exact completeUploadAction_step
      ⟨ctx, now, lessonId, resourceId, durationSeconds, isDownloadable⟩
  | removeResource lessonId resourceId =>
    simp only [teach, confirmedUpload, confirmedDocument, addedLessonLink, addedCourseLink]
    exact removeResourceAction_step ⟨ctx, now, lessonId, resourceId, .finite 0, false⟩
  | reserveAttachment target file resourceId =>
    simp only [teach, confirmedUpload, confirmedDocument, addedLessonLink, addedCourseLink]
    exact reserveAttachment_step target file resourceId
  | confirmAttachment target resourceId =>
    simp only [teach, addedLessonLink, addedCourseLink]
    exact confirmAttachment_step target resourceId
  | removeAttachment target resourceId =>
    simp only [teach, confirmedUpload, confirmedDocument, addedLessonLink, addedCourseLink]
    exact removeAttachment_step target resourceId

end Actions

/-! ### Runs -/

/-- Both shelves are described by their tables. -/
def Described (env : Env) (parseUrl : String → Option ParsedUrl) (h : MediaHistory) : Prop :=
  Describes env parseUrl (some 0) h.lessons (lessonItems h.world.db) ∧
    Describes env parseUrl none h.courses (courseItems h.world.db)

theorem recordMedia_described (s : MediaServices) (parseUrl : String → Option ParsedUrl) :
    Preserves (recordMedia s parseUrl) (fun _ _ => True) (Described s.env parseUrl) := by
  intro h event _ hdescribed
  cases event with
  | teach ctx now action =>
    obtain ⟨hlessons, hcourses⟩ := teach_items s parseUrl ctx now h.world action
    exact ⟨hdescribed.1.step hlessons, hdescribed.2.step hcourses⟩
  | put signed now facts =>
    have hdb : (mediaStep s h.world (.put signed now facts)).db = h.world.db := by
      simp only [mediaStep]
      split_ifs <;> rfl
    show Describes s.env parseUrl (some 0) h.lessons (lessonItems (mediaStep s h.world _).db) ∧
      Describes s.env parseUrl none h.courses (courseItems (mediaStep s h.world _).db)
    rw [hdb]
    exact hdescribed
  | elsewhere db => exact hdescribed

/-- **In every run, from an institute without resources, what the columns say is what happened.** -/
theorem described_run (s : MediaServices) (parseUrl : String → Option ParsedUrl) {w : MediaWorld}
    (hlessons : w.db.lessonResources = []) (hcourses : w.db.courseResources = [])
    (events : List MediaEvent) :
    Described s.env parseUrl (run (recordMedia s parseUrl) (.start w) events) := by
  refine (recordMedia_described s parseUrl).run ?_ (Machine.meets_true _ _ _)
  refine ⟨?_, ?_⟩
  · rw [lessonItems, MediaHistory.start, hlessons]
    exact Describes.empty _ _ _
  · rw [courseItems, MediaHistory.start, hcourses]
    exact Describes.empty _ _ _

end LampLight
