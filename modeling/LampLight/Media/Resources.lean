import LampLight.Access.Authoring
import LampLight.Media.Uploads
import LampLight.Storage.Objects

/-!
# Rows and objects

A piece of media is a row in the database and an object in the bucket, and no transaction spans the
two. A row is *reserved* while its size is null and *ready* once it has one; every read that offers
media filters on that.

This module has what the two upload flows share: the statements on the two resource tables, and the
inspection of an upload, which asks the bucket what has arrived and deletes what may not stay.

## Main results

* `inspectUpload_cases` — the outcomes of an inspection
* `member_of_decideCourseAuthoring`, `member_of_decideLessonAuthoring` — whoever may change content
  is a member, so the audit log accepts them
-/

namespace LampLight

/-- What the two flows are given: configuration, the presigner and how numbers are printed. -/
structure MediaServices where
  env : Env
  signer : StorageSigner
  numberText : ℚ → String

/-- The database and the store. -/
structure MediaWorld where
  db : Database
  bucket : Bucket

/-- What an action throws. -/
inductive MediaError where
  | database (e : DbError)
  | storage (e : StorageError)
deriving DecidableEq

/-- What an action answers. -/
inductive ActionResult where
  | ok
  | error (message : String)
deriving DecidableEq

/-- A reserved upload, handed to the browser. -/
structure Ticket where
  resourceId : Uuid
  uploadUrl : String
  contentType : String
deriving DecidableEq

/-- Where a file may be uploaded to, or why not. -/
inductive UploadTicket where
  | ok (ticket : Ticket)
  | error (message : String)
deriving DecidableEq

/-- Whether a row is offered to students. -/
def LessonResourceRow.ready (r : LessonResourceRow) : Bool := r.byteSize.isSome

/-! ### Statements -/

namespace Database

/-- `insert into lesson_resources`. -/
def insertLessonResource (db : Database) (row : LessonResourceRow) : Except DbError Database :=
  checked
    [(.uniqueViolation "lesson_resources_pkey", db.lessonResources.any fun r => r.id = row.id),
      (.foreignKeyViolation "lesson_resources_tenant_id_tenants_id_fk", db.noTenant row.tenantId),
      (.foreignKeyViolation "lesson_resources_tenant_id_lesson_id_fk",
        db.noLesson row.tenantId row.lessonId)]
    { db with lessonResources := db.lessonResources ++ [row] }

/-- `insert into course_resources`. -/
def insertCourseResource (db : Database) (row : CourseResourceRow) : Except DbError Database :=
  checked
    [(.uniqueViolation "course_resources_pkey", db.courseResources.any fun r => r.id = row.id),
      (.foreignKeyViolation "course_resources_tenant_id_tenants_id_fk", db.noTenant row.tenantId),
      (.foreignKeyViolation "course_resources_tenant_id_course_id_fk",
        db.noCourse row.tenantId row.courseId)]
    { db with courseResources := db.courseResources ++ [row] }

/-- `update lesson_resources set … where tenant_id = t and id = i`. -/
def updateLessonResource (db : Database) (t i : Uuid)
    (set : LessonResourceRow → LessonResourceRow) : Database :=
  { db with
    lessonResources := Table.update (fun r => r.tenantId = t && r.id = i) set db.lessonResources }

/-- `update course_resources`. -/
def updateCourseResource (db : Database) (t i : Uuid)
    (set : CourseResourceRow → CourseResourceRow) : Database :=
  { db with
    courseResources := Table.update (fun r => r.tenantId = t && r.id = i) set db.courseResources }

/-- `delete from lesson_resources where tenant_id = t and id in ids`. -/
def deleteLessonResources (db : Database) (t : Uuid) (ids : List Uuid) : Database :=
  { db with
    lessonResources := Table.delete (fun r => r.tenantId = t && r.id ∈ ids) db.lessonResources }

/-- `delete from course_resources`. -/
def deleteCourseResources (db : Database) (t : Uuid) (ids : List Uuid) : Database :=
  { db with
    courseResources := Table.delete (fun r => r.tenantId = t && r.id ∈ ids) db.courseResources }

end Database

/-! ### They read and write the tenant's own rows -/

namespace Database

section Views

variable {db db' : Database} {t : Uuid}

/-- A new row under an unused id. -/
theorem insertLessonResource_viewOf {row : LessonResourceRow} (h : row.tenantId = t)
    (hid : ∀ r ∈ db.lessonResources, r.id ≠ row.id) :
    (db.viewOf t).insertLessonResource row
      = (db.insertLessonResource row).map (Database.viewOf t) := by
  subst h
  have hpkey : (Table.owned LessonResourceRow.tenantId row.tenantId db.lessonResources).any
      (fun r => r.id = row.id) = db.lessonResources.any fun r => r.id = row.id :=
    Table.any_owned_of_none fun r hr => by simpa using hid r hr
  rw [insertLessonResource, insertLessonResource, ← checked_viewOf, viewOf_lessonResources, hpkey,
    noTenant_viewOf, noLesson_viewOf, ← Table.owned_append_of_owned (by simp)]
  rfl

theorem insertCourseResource_viewOf {row : CourseResourceRow} (h : row.tenantId = t)
    (hid : ∀ r ∈ db.courseResources, r.id ≠ row.id) :
    (db.viewOf t).insertCourseResource row
      = (db.insertCourseResource row).map (Database.viewOf t) := by
  subst h
  have hpkey : (Table.owned CourseResourceRow.tenantId row.tenantId db.courseResources).any
      (fun r => r.id = row.id) = db.courseResources.any fun r => r.id = row.id :=
    Table.any_owned_of_none fun r hr => by simpa using hid r hr
  rw [insertCourseResource, insertCourseResource, ← checked_viewOf, viewOf_courseResources, hpkey,
    noTenant_viewOf, noCourse_viewOf, ← Table.owned_append_of_owned (by simp)]
  rfl

theorem insertLessonResource_othersOf {row : LessonResourceRow} (h : row.tenantId = t)
    (hok : db.insertLessonResource row = .ok db') : db'.othersOf t = db.othersOf t := by
  obtain ⟨-, rfl⟩ := checked_ok.mp hok
  simp only [othersOf]
  rw [Table.others_append_of_owned (by simpa using h)]

theorem insertCourseResource_othersOf {row : CourseResourceRow} (h : row.tenantId = t)
    (hok : db.insertCourseResource row = .ok db') : db'.othersOf t = db.othersOf t := by
  obtain ⟨-, rfl⟩ := checked_ok.mp hok
  simp only [othersOf]
  rw [Table.others_append_of_owned (by simpa using h)]

theorem updateLessonResource_viewOf {i : Uuid} {set : LessonResourceRow → LessonResourceRow}
    (hset : ∀ r, (set r).tenantId = r.tenantId) :
    (db.viewOf t).updateLessonResource t i set = (db.updateLessonResource t i set).viewOf t := by
  rw [updateLessonResource, viewOf_lessonResources, ← Table.owned_update hset]
  rfl

theorem updateCourseResource_viewOf {i : Uuid} {set : CourseResourceRow → CourseResourceRow}
    (hset : ∀ r, (set r).tenantId = r.tenantId) :
    (db.viewOf t).updateCourseResource t i set = (db.updateCourseResource t i set).viewOf t := by
  rw [updateCourseResource, viewOf_courseResources, ← Table.owned_update hset]
  rfl

theorem updateLessonResource_othersOf {i : Uuid} {set : LessonResourceRow → LessonResourceRow}
    (hset : ∀ r, (set r).tenantId = r.tenantId) :
    (db.updateLessonResource t i set).othersOf t = db.othersOf t := by
  simp only [othersOf, updateLessonResource]
  rw [Table.others_update (by simp +contextual) hset]

theorem updateCourseResource_othersOf {i : Uuid} {set : CourseResourceRow → CourseResourceRow}
    (hset : ∀ r, (set r).tenantId = r.tenantId) :
    (db.updateCourseResource t i set).othersOf t = db.othersOf t := by
  simp only [othersOf, updateCourseResource]
  rw [Table.others_update (by simp +contextual) hset]

theorem deleteLessonResources_viewOf (ids : List Uuid) :
    (db.viewOf t).deleteLessonResources t ids = (db.deleteLessonResources t ids).viewOf t := by
  rw [deleteLessonResources, viewOf_lessonResources, ← Table.owned_delete]
  rfl

theorem deleteCourseResources_viewOf (ids : List Uuid) :
    (db.viewOf t).deleteCourseResources t ids = (db.deleteCourseResources t ids).viewOf t := by
  rw [deleteCourseResources, viewOf_courseResources, ← Table.owned_delete]
  rfl

theorem deleteLessonResources_othersOf (ids : List Uuid) :
    (db.deleteLessonResources t ids).othersOf t = db.othersOf t := by
  simp only [othersOf, deleteLessonResources]
  rw [Table.others_delete (by simp +contextual)]

theorem deleteCourseResources_othersOf (ids : List Uuid) :
    (db.deleteCourseResources t ids).othersOf t = db.othersOf t := by
  simp only [othersOf, deleteCourseResources]
  rw [Table.others_delete (by simp +contextual)]

end Views

end Database

/-- Nobody joins or leaves. -/
structure SamePeople (db db' : Database) : Prop where
  memberships : db'.memberships = db.memberships
  tenants : db'.tenants = db.tenants
  users : db'.users = db.users

/-! ### Inspecting an upload -/

/-- What looking at an uploaded object came to. -/
inductive Inspection where
  | accepted (facts : ObjectFacts)
  | refused (message : String)
deriving DecidableEq

/-- Asks the bucket whether the upload arrived. An object that is not what was asked for does not
get to stay. -/
def inspectUpload (s : MediaServices) (kind : UploadKind) (tenantId : Uuid) (key : String)
    (bucket : Bucket) : Except StorageError Inspection × Bucket :=
  match statObject s.env tenantId key bucket with
  | .error e => (.error e, bucket)
  | .ok none =>
    (.ok (.refused "That upload did not arrive. Try sending the file again."), bucket)
  | .ok (some facts) =>
    match checkUpload s.numberText kind (facts.contentType.getD "") (.finite facts.byteSize) with
    | .ok _ => (.ok (.accepted facts), bucket)
    | .error message =>
      match deleteObject s.env tenantId key bucket with
      | .error e => (.error e, bucket)
      | .ok bucket' => (.ok (.refused message), bucket')

/-- Whether an object may stay as an upload of this kind. -/
def Acceptable (s : MediaServices) (kind : UploadKind) (facts : ObjectFacts) : Prop :=
  ∃ type, checkUpload s.numberText kind (facts.contentType.getD "") (.finite facts.byteSize)
    = .ok type

instance (s : MediaServices) (kind : UploadKind) (facts : ObjectFacts) :
    Decidable (Acceptable s kind facts) :=
  match h : checkUpload s.numberText kind (facts.contentType.getD "") (.finite facts.byteSize) with
  | .ok type => isTrue ⟨type, h⟩
  | .error _ => isFalse fun ⟨_, h'⟩ => by rw [h] at h'; cases h'

variable {s : MediaServices} {kind : UploadKind} {tenantId : Uuid} {key : String} {bucket : Bucket}

/-- An inspection accepts what is there and acceptable, deletes what is there and not acceptable,
and otherwise changes nothing. -/
theorem inspectUpload_cases (hs : storageConfigured s.env = true) :
    (∃ facts, inspectUpload s kind tenantId key bucket = (.ok (.accepted facts), bucket) ∧
      keyBelongsToTenant key tenantId = true ∧ bucket.objects key = some facts ∧
      Acceptable s kind facts) ∨
    (∃ facts message,
      inspectUpload s kind tenantId key bucket = (.ok (.refused message), bucket.remove key) ∧
      keyBelongsToTenant key tenantId = true ∧ bucket.objects key = some facts ∧
      ¬ Acceptable s kind facts) ∨
    ((∀ facts, (inspectUpload s kind tenantId key bucket).1 ≠ .ok (.accepted facts)) ∧
      (inspectUpload s kind tenantId key bucket).2 = bucket ∧
      (keyBelongsToTenant key tenantId = true → bucket.objects key = none)) := by
  cases hstat : statObject s.env tenantId key bucket with
  | error e =>
    refine Or.inr (Or.inr ⟨?_, ?_, fun hkey => ?_⟩)
    · intro facts h
      rw [inspectUpload, hstat] at h
      cases h
    · rw [inspectUpload, hstat]
    · rw [statObject_eq hs hkey] at hstat
      cases hstat
  | ok answer =>
    obtain ⟨hkey, hobject⟩ := statObject_ok hstat
    cases answer with
    | none =>
      refine Or.inr (Or.inr ⟨?_, ?_, fun _ => hobject.symm⟩)
      · intro facts h
        rw [inspectUpload, hstat] at h
        cases h
      · rw [inspectUpload, hstat]
    | some facts =>
      cases hcheck : checkUpload s.numberText kind (facts.contentType.getD "")
          (.finite facts.byteSize) with
      | ok type =>
        refine Or.inl ⟨facts, ?_, hkey, hobject.symm, type, hcheck⟩
        rw [inspectUpload, hstat]
        dsimp only
        rw [hcheck]
      | error message =>
        refine Or.inr (Or.inl ⟨facts, message, ?_, hkey, hobject.symm, ?_⟩)
        · rw [inspectUpload, hstat]
          dsimp only
          rw [hcheck]
          dsimp only
          rw [deleteObject_eq hs hkey]
        · rintro ⟨type, htype⟩
          rw [hcheck] at htype
          cases htype

theorem inspectUpload_eq_accepted {facts : ObjectFacts} (hs : storageConfigured s.env = true)
    (hkey : keyBelongsToTenant key tenantId = true) (hobject : bucket.objects key = some facts)
    (hfacts : Acceptable s kind facts) :
    inspectUpload s kind tenantId key bucket = (.ok (.accepted facts), bucket) := by
  obtain ⟨type, hcheck⟩ := hfacts
  rw [inspectUpload, statObject_eq hs hkey, hobject]
  dsimp only
  rw [hcheck]

/-! ### Whoever may change content is a member -/

variable {scope : TenantScope} {db : Database} {ctx : AuthorContext}

theorem member_of_decideCourseAuthoring {courseId : Uuid}
    (h : (decideCourseAuthoring scope db ctx courseId).allowed = true) :
    ∃ m ∈ db.memberships, m.tenantId = scope.tenantId ∧ m.userId = ctx.userId := by
  rw [decideCourseAuthoring] at h
  split at h
  · cases hfind : findMembership scope db ctx.userId with
    | none =>
      rw [hfind] at h
      cases h
    | some membership =>
      obtain ⟨m, hm, -⟩ := Option.map_eq_some_iff.mp hfind
      have hp := List.find?_some hm
      rw [Bool.and_eq_true, decide_eq_true_eq, decide_eq_true_eq] at hp
      exact ⟨m, List.mem_of_find?_eq_some hm, hp⟩
  · cases h

theorem member_of_decideLessonAuthoring {lessonId : Uuid}
    (h : (decideLessonAuthoring scope db ctx lessonId).allowed = true) :
    ∃ m ∈ db.memberships, m.tenantId = scope.tenantId ∧ m.userId = ctx.userId := by
  rw [decideLessonAuthoring] at h
  split at h
  · cases h
  · exact member_of_decideCourseAuthoring h

end LampLight
