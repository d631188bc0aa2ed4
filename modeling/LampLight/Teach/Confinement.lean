import LampLight.Media.Ready
import LampLight.Teach.Editing

/-!
# Authors touch only their own courses

Thirteen actions take ids from the client, authorise one and write through another. Whatever the ids
are and whichever rows they name, what is written hangs off one course of the caller's institute
that the caller may change, and without such a course nothing is written.

## Main definitions

* `Confined` — two states differ only in what hangs off one course
* `TeachAction`, `teach` — the thirteen actions

## Main results

* `teach_inOwnCourse` — every action is confined to one course the caller may change
-/

namespace LampLight

open Js (Number)
open Table (Differ differ_append differ_update differ_update_key differ_delete differ_delete_key)

/-! ### What hangs off a course -/

section Under

variable (t courseId : Uuid)

/-- It is the course. -/
def CourseRow.Under (c : CourseRow) : Prop := c.tenantId = t ∧ c.id = courseId

/-- A module of the course. -/
def ModuleRow.Under (m : ModuleRow) : Prop := m.tenantId = t ∧ m.courseId = courseId

/-- A lesson of the course. -/
def LessonRow.Under (modules : List ModuleRow) (l : LessonRow) : Prop :=
  l.tenantId = t ∧ ∃ m ∈ modules, m.id = l.moduleId ∧ m.Under t courseId

/-- A resource of a lesson of the course. -/
def LessonResourceRow.Under (modules : List ModuleRow) (lessons : List LessonRow)
    (r : LessonResourceRow) : Prop :=
  r.tenantId = t ∧ ∃ l ∈ lessons, l.id = r.lessonId ∧ l.Under t courseId modules

/-- A document of the course. -/
def CourseResourceRow.Under (r : CourseResourceRow) : Prop :=
  r.tenantId = t ∧ r.courseId = courseId

/-- Two states differ in rows that hang off this course of this tenant, and in the audit log. -/
structure Confined (db db' : Database) : Prop where
  courses : Differ db.courses db'.courses (CourseRow.Under t courseId)
    (CourseRow.Under t courseId)
  modules : Differ db.modules db'.modules (ModuleRow.Under t courseId)
    (ModuleRow.Under t courseId)
  lessons : Differ db.lessons db'.lessons (LessonRow.Under t courseId db.modules)
    (LessonRow.Under t courseId db'.modules)
  lessonResources : Differ db.lessonResources db'.lessonResources
    (LessonResourceRow.Under t courseId db.modules db.lessons)
    (LessonResourceRow.Under t courseId db'.modules db'.lessons)
  courseResources : Differ db.courseResources db'.courseResources
    (CourseResourceRow.Under t courseId) (CourseResourceRow.Under t courseId)
  rest : db' = { db with
    courses := db'.courses
    modules := db'.modules
    lessons := db'.lessons
    lessonResources := db'.lessonResources
    courseResources := db'.courseResources
    auditLog := db'.auditLog }

end Under

/-- The keys of the tables of content. -/
structure ContentKeys (db : Database) : Prop where
  courses : (db.courses.map (·.id)).Nodup
  modules : (db.modules.map (·.id)).Nodup
  lessons : (db.lessons.map (·.id)).Nodup
  lessonResources : (db.lessonResources.map (·.id)).Nodup
  courseResources : (db.courseResources.map (·.id)).Nodup

instance (db : Database) : Decidable (ContentKeys db) :=
  decidable_of_iff ((db.courses.map (·.id)).Nodup ∧ (db.modules.map (·.id)).Nodup ∧
      (db.lessons.map (·.id)).Nodup ∧ (db.lessonResources.map (·.id)).Nodup ∧
      (db.courseResources.map (·.id)).Nodup)
    ⟨fun h => ⟨h.1, h.2.1, h.2.2.1, h.2.2.2.1, h.2.2.2.2⟩,
      fun h => ⟨h.courses, h.modules, h.lessons, h.lessonResources, h.courseResources⟩⟩

/-! ### The actions -/

/-- What an instructor can do. -/
inductive TeachAction
  | addModule (courseId : Uuid) (title : String) (id : Uuid)
  | addLesson (moduleId : Uuid) (title : String) (isFreePreview : Option String) (id : Uuid)
  | requestUpload (form : UploadForm) (resourceId : Uuid)
  | completeUpload (lessonId resourceId : Uuid) (durationSeconds : Number) (isDownloadable : Bool)
  | removeResource (lessonId resourceId : Uuid)
  | updateCourse (courseId : Uuid) (title descriptionMd : String)
  | updateModule (moduleId : Uuid) (title : String)
  | updateLesson (lessonId : Uuid) (title contentMd isFreePreview : String)
  | addCourseLink (courseId : Uuid) (title url isPublic : String) (id : Uuid)
  | addLessonLink (lessonId : Uuid) (url title : String) (id : Uuid)
  | reserveAttachment (target : AttachmentTarget) (file : AttachmentFile) (resourceId : Uuid)
  | confirmAttachment (target : AttachmentTarget) (resourceId : Uuid)
  | removeAttachment (target : AttachmentTarget) (resourceId : Uuid)

/-- What one call of an action leaves. -/
def teach (s : MediaServices) (parseUrl : String → Option ParsedUrl) (ctx : AuthorContext)
    (now : Instant) (w : MediaWorld) : TeachAction → MediaWorld
  | .addModule courseId title id =>
    { w with db := (addModuleAction w.db ctx now courseId title id).2 }
  | .addLesson moduleId title isFreePreview id =>
    { w with db := (addLessonAction w.db ctx now moduleId title isFreePreview id).2 }
  | .requestUpload form resourceId => (requestUploadAction s ctx form ⟨resourceId, now⟩ w).2
  | .completeUpload lessonId resourceId durationSeconds isDownloadable =>
    (completeUploadAction s ⟨ctx, now, lessonId, resourceId, durationSeconds, isDownloadable⟩ w).2
  | .removeResource lessonId resourceId =>
    -- The form of a removal has neither of the last two fields, and nothing reads them.
    (removeResourceAction s ⟨ctx, now, lessonId, resourceId, .finite 0, false⟩ w).2
  | .updateCourse courseId title descriptionMd =>
    { w with db := (updateCourseAction w.db ctx now courseId title descriptionMd).2 }
  | .updateModule moduleId title =>
    { w with db := (updateModuleAction w.db ctx now moduleId title).2 }
  | .updateLesson lessonId title contentMd isFreePreview =>
    { w with db := (updateLessonAction w.db ctx now lessonId title contentMd isFreePreview).2 }
  | .addCourseLink courseId title url isPublic id =>
    { w with db := (addCourseLinkAction w.db ctx now parseUrl courseId title url isPublic id).2 }
  | .addLessonLink lessonId url title id =>
    { w with db := (addLessonLinkAction w.db ctx now parseUrl lessonId url title id).2 }
  | .reserveAttachment target file resourceId =>
    (reserveAttachment s ⟨ctx, now, target⟩ file resourceId w).2
  | .confirmAttachment target resourceId => (confirmAttachment s ⟨ctx, now, target⟩ resourceId w).2
  | .removeAttachment target resourceId => (removeAttachment s ⟨ctx, now, target⟩ resourceId w).2

/-! ### What a decision says -/

section Decisions

variable {scope : TenantScope} {db : Database} {ctx : AuthorContext}

/-- Whoever may change a module may change the course it belongs to. -/
theorem course_of_decideModuleAuthoring {moduleId : Uuid}
    (h : (decideModuleAuthoring scope db ctx moduleId).allowed = true) :
    ∃ m ∈ db.modules, m.tenantId = scope.tenantId ∧ m.id = moduleId ∧
      (decideCourseAuthoring scope db ctx m.courseId).allowed = true := by
  rw [decideModuleAuthoring] at h
  split at h
  · cases h
  · next m hm =>
    have hp := List.find?_some hm
    simp only [Bool.and_eq_true, decide_eq_true_eq] at hp
    exact ⟨m, List.mem_of_find?_eq_some hm, hp.1, hp.2, h⟩

/-- Whoever may change a lesson may change the course it belongs to. -/
theorem course_of_decideLessonAuthoring {lessonId : Uuid}
    (h : (decideLessonAuthoring scope db ctx lessonId).allowed = true) :
    ∃ courseId, (decideCourseAuthoring scope db ctx courseId).allowed = true ∧
      ∃ l ∈ db.lessons, l.id = lessonId ∧ l.Under scope.tenantId courseId db.modules := by
  rw [decideLessonAuthoring] at h
  split at h
  · cases h
  · next x hx =>
    obtain ⟨hjoin, hp⟩ := List.mem_filter.mp (List.mem_of_head? hx)
    obtain ⟨hl, hm, hon⟩ := Table.mem_innerJoin.mp hjoin
    simp only [Bool.and_eq_true, decide_eq_true_eq] at hp hon
    exact ⟨x.2.courseId, h, x.1, hl, hp.2, hp.1, x.2, hm, hon.2, hon.1.trans hp.1, rfl⟩

end Decisions

/-! ### What one statement does -/

section Statements

variable {t courseId : Uuid} {db mid db' : Database}

theorem Confined.of_courses {courses : List CourseRow}
    (h : Differ db.courses courses (CourseRow.Under t courseId) (CourseRow.Under t courseId)) :
    Confined t courseId db { db with courses := courses } :=
  ⟨h, .refl .., .refl .., .refl .., .refl .., rfl⟩

theorem Confined.of_modules {modules : List ModuleRow}
    (h : Differ db.modules modules (ModuleRow.Under t courseId) (ModuleRow.Under t courseId)) :
    Confined t courseId db { db with modules := modules } :=
  ⟨.refl .., h, .refl .., .refl .., .refl .., rfl⟩

/-- Lessons and what hangs off them may change at once. -/
theorem Confined.of_lessons {lessons : List LessonRow} {resources : List LessonResourceRow}
    (h : Differ db.lessons lessons (LessonRow.Under t courseId db.modules)
      (LessonRow.Under t courseId db.modules))
    (h' : Differ db.lessonResources resources
      (LessonResourceRow.Under t courseId db.modules db.lessons)
      (LessonResourceRow.Under t courseId db.modules lessons)) :
    Confined t courseId db { db with lessons := lessons, lessonResources := resources } :=
  ⟨.refl .., .refl .., h, h', .refl .., rfl⟩

theorem Confined.of_lessonResources {resources : List LessonResourceRow}
    (h : Differ db.lessonResources resources
      (LessonResourceRow.Under t courseId db.modules db.lessons)
      (LessonResourceRow.Under t courseId db.modules db.lessons)) :
    Confined t courseId db { db with lessonResources := resources } :=
  .of_lessons (.refl ..) h

theorem Confined.of_courseResources {resources : List CourseResourceRow}
    (h : Differ db.courseResources resources (CourseResourceRow.Under t courseId)
      (CourseResourceRow.Under t courseId)) :
    Confined t courseId db { db with courseResources := resources } :=
  ⟨.refl .., .refl .., .refl .., .refl .., h, rfl⟩

/-- The audit log may say more. -/
theorem Confined.logged {row : AuditRow} (h : Confined t courseId db mid)
    (hlog : mid.insertAuditLog row = .ok db') : Confined t courseId db db' := by
  obtain rfl := Database.insertAuditLog_ok hlog
  exact
    { courses := h.courses
      modules := h.modules
      lessons := h.lessons
      lessonResources := h.lessonResources
      courseResources := h.courseResources
      rest := congrArg (fun d : Database => { d with auditLog := mid.auditLog ++ [row] }) h.rest }

theorem confined_insertModule {row : ModuleRow} (h : db.insertModule row = .ok db')
    (hrow : row.Under t courseId) : Confined t courseId db db' := by
  obtain ⟨-, rfl⟩ := Database.checked_ok.mp h
  exact .of_modules (differ_append hrow _)

theorem confined_insertLesson {row : LessonRow} (h : db.insertLesson row = .ok db')
    (hrow : row.Under t courseId db.modules) : Confined t courseId db db' := by
  obtain ⟨-, rfl⟩ := Database.checked_ok.mp h
  exact .of_lessons (differ_append hrow _) (.refl ..)

theorem confined_insertLessonResource {row : LessonResourceRow}
    (h : db.insertLessonResource row = .ok db')
    (hrow : row.Under t courseId db.modules db.lessons) : Confined t courseId db db' := by
  obtain ⟨-, rfl⟩ := Database.checked_ok.mp h
  exact .of_lessonResources (differ_append hrow _)

theorem confined_insertCourseResource {row : CourseResourceRow}
    (h : db.insertCourseResource row = .ok db') (hrow : row.Under t courseId) :
    Confined t courseId db db' := by
  obtain ⟨-, rfl⟩ := Database.checked_ok.mp h
  exact .of_courseResources (differ_append hrow _)

theorem confined_updateCourse {f : CourseRow → CourseRow}
    (hf : ∀ c, (f c).tenantId = c.tenantId ∧ (f c).id = c.id) :
    Confined t courseId db
      { db with
        courses := Table.update (fun c => c.tenantId = t && c.id = courseId) f db.courses } := by
  have hunder : ∀ c : CourseRow, (c.tenantId = t && c.id = courseId : Bool) = true →
      c.Under t courseId := by
    intro c hp
    rwa [Bool.and_eq_true, decide_eq_true_eq, decide_eq_true_eq] at hp
  refine .of_courses (differ_update ?_ ?_)
  · intro c _ hp
    exact hunder c hp
  · intro c _ hp
    exact ⟨(hf c).1.trans (hunder c hp).1, (hf c).2.trans (hunder c hp).2⟩

theorem confined_updateModule (hkeys : ContentKeys db) {m : ModuleRow} (hm : m ∈ db.modules)
    (hunder : m.Under t courseId) {f : ModuleRow → ModuleRow}
    (hf : ∀ m, (f m).tenantId = m.tenantId ∧ (f m).courseId = m.courseId) :
    Confined t courseId db
      { db with
        modules := Table.update (fun a => a.tenantId = t && a.id = m.id) f db.modules } := by
  refine .of_modules (differ_update_key hkeys.modules hm ?_ hunder ?_)
  · simp
  · exact ⟨(hf m).1.trans hunder.1, (hf m).2.trans hunder.2⟩

/-- A change to one lesson, which stays where it is. -/
theorem confined_updateLesson (hkeys : ContentKeys db) {l : LessonRow} (hl : l ∈ db.lessons)
    (hunder : l.Under t courseId db.modules) {f : LessonRow → LessonRow}
    (hf : ∀ l, (f l).tenantId = l.tenantId ∧ (f l).moduleId = l.moduleId) :
    Confined t courseId db
      { db with
        lessons := Table.update (fun a => a.tenantId = t && a.id = l.id) f db.lessons } := by
  refine .of_lessons (differ_update_key hkeys.lessons hl ?_ hunder ?_) (.refl ..)
  · simp
  · obtain ⟨htenant, m, hm, hid, hmodule⟩ := hunder
    exact ⟨(hf l).1.trans htenant, m, hm, hid.trans (hf l).2.symm, hmodule⟩

theorem confined_updateLessonResource (hkeys : ContentKeys db) {r : LessonResourceRow}
    (hr : r ∈ db.lessonResources) (hunder : r.Under t courseId db.modules db.lessons)
    {f : LessonResourceRow → LessonResourceRow}
    (hf : ∀ r, (f r).tenantId = r.tenantId ∧ (f r).lessonId = r.lessonId) :
    Confined t courseId db (db.updateLessonResource t r.id f) := by
  refine .of_lessonResources (differ_update_key hkeys.lessonResources hr ?_ hunder ?_)
  · simp
  · obtain ⟨htenant, l, hl, hid, hlesson⟩ := hunder
    exact ⟨(hf r).1.trans htenant, l, hl, hid.trans (hf r).2.symm, hlesson⟩

theorem confined_updateCourseResource (hkeys : ContentKeys db) {r : CourseResourceRow}
    (hr : r ∈ db.courseResources) (hunder : r.Under t courseId)
    {f : CourseResourceRow → CourseResourceRow}
    (hf : ∀ r, (f r).tenantId = r.tenantId ∧ (f r).courseId = r.courseId) :
    Confined t courseId db (db.updateCourseResource t r.id f) := by
  refine .of_courseResources (differ_update_key hkeys.courseResources hr ?_ hunder ?_)
  · simp
  · exact ⟨(hf r).1.trans hunder.1, (hf r).2.trans hunder.2⟩

theorem confined_deleteLessonResource (hkeys : ContentKeys db) {r : LessonResourceRow}
    (hr : r ∈ db.lessonResources) (hunder : r.Under t courseId db.modules db.lessons) :
    Confined t courseId db (db.deleteLessonResources t [r.id]) :=
  .of_lessonResources (differ_delete_key hkeys.lessonResources hr (by simp) hunder)

theorem confined_deleteCourseResource (hkeys : ContentKeys db) {r : CourseResourceRow}
    (hr : r ∈ db.courseResources) (hunder : r.Under t courseId) :
    Confined t courseId db (db.deleteCourseResources t [r.id]) :=
  .of_courseResources (differ_delete_key hkeys.courseResources hr (by simp) hunder)

end Statements

/-! ### What one action does -/

/-- The database is as it was, or what changed hangs off one course the caller may change. -/
def InOwnCourse (ctx : AuthorContext) (now : Instant) (db db' : Database) : Prop :=
  db' = db ∨ ∃ courseId,
    (decideCourseAuthoring { tenantId := ctx.tenantId, now := now } db ctx courseId).allowed
      = true ∧
      Confined ctx.tenantId courseId db db'

section Actions

variable {ctx : AuthorContext} {now : Instant} {db db' : Database}

/-- An action whose transaction writes only for somebody who may leaves the database alone or
commits what it writes. -/
theorem answerWith_inOwnCourse {denied : ActionResult} {decision : AuthorDecision}
    {write : Except DbError Database}
    (h : decision.allowed = true → ∀ db', write = .ok db' → InOwnCourse ctx now db db') :
    InOwnCourse ctx now db (answerWith denied db (authored decision write)).2 := by
  by_cases hallowed : decision.allowed = true
  · rw [authored, if_pos hallowed]
    cases hwrite : write with
    | error e => exact Or.inl rfl
    | ok db' => exact h hallowed db' hwrite
  · rw [authored, if_neg hallowed]
    exact Or.inl rfl

theorem addModuleAction_inOwnCourse (courseId : Uuid) (title : String) (id : Uuid) :
    InOwnCourse ctx now db (addModuleAction db ctx now courseId title id).2 := by
  rw [addModuleAction]
  split_ifs with htitle
  · exact Or.inl rfl
  · refine answerWith_inOwnCourse fun hallowed db' hwrite => ?_
    obtain ⟨mid, hinsert, hlog⟩ := Machine.bind_eq_ok.mp hwrite
    exact Or.inr ⟨courseId, hallowed, (confined_insertModule hinsert ⟨rfl, rfl⟩).logged hlog⟩

theorem addLessonAction_inOwnCourse (moduleId : Uuid) (title : String)
    (isFreePreview : Option String) (id : Uuid) :
    InOwnCourse ctx now db (addLessonAction db ctx now moduleId title isFreePreview id).2 := by
  rw [addLessonAction]
  split_ifs with htitle
  · exact Or.inl rfl
  · dsimp only
    split
    · exact Or.inl rfl
    · next owning howning =>
      have hp := List.find?_some howning
      rw [Bool.and_eq_true, decide_eq_true_eq, decide_eq_true_eq] at hp
      refine answerWith_inOwnCourse fun hallowed db' hwrite => ?_
      obtain ⟨mid, hinsert, hlog⟩ := Machine.bind_eq_ok.mp hwrite
      have hinserted := confined_insertLesson hinsert
        ⟨rfl, owning, List.mem_of_find?_eq_some howning, hp.2, hp.1, rfl⟩
      exact Or.inr ⟨owning.courseId, hallowed, hinserted.logged hlog⟩

theorem updateCourseAction_inOwnCourse (courseId : Uuid) (title descriptionMd : String) :
    InOwnCourse ctx now db (updateCourseAction db ctx now courseId title descriptionMd).2 := by
  rw [updateCourseAction]
  split_ifs with htitle hdescription
  · exact Or.inl rfl
  · exact Or.inl rfl
  · refine answerWith_inOwnCourse fun hallowed db' hwrite => ?_
    obtain rfl := Except.ok.inj hwrite
    exact Or.inr ⟨courseId, hallowed, confined_updateCourse fun c => ⟨rfl, rfl⟩⟩

theorem updateModuleAction_inOwnCourse (hkeys : ContentKeys db) (moduleId : Uuid)
    (title : String) : InOwnCourse ctx now db (updateModuleAction db ctx now moduleId title).2 := by
  rw [updateModuleAction]
  split_ifs with htitle
  · exact Or.inl rfl
  · refine answerWith_inOwnCourse fun hallowed db' hwrite => ?_
    obtain rfl := Except.ok.inj hwrite
    obtain ⟨m, hm, htenant, rfl, hcourse⟩ := course_of_decideModuleAuthoring hallowed
    exact Or.inr ⟨m.courseId, hcourse,
      confined_updateModule hkeys hm ⟨htenant, rfl⟩ fun m => ⟨rfl, rfl⟩⟩

theorem updateLessonAction_inOwnCourse (hkeys : ContentKeys db) (lessonId : Uuid)
    (title contentMd isFreePreview : String) :
    InOwnCourse ctx now db
      (updateLessonAction db ctx now lessonId title contentMd isFreePreview).2 := by
  rw [updateLessonAction]
  split_ifs with htitle hcontent
  · exact Or.inl rfl
  · exact Or.inl rfl
  · refine answerWith_inOwnCourse fun hallowed db' hwrite => ?_
    obtain ⟨courseId, hcourse, l, hl, rfl, hunder⟩ := course_of_decideLessonAuthoring hallowed
    refine Or.inr ⟨courseId, hcourse, Confined.logged ?_ hwrite⟩
    exact confined_updateLesson hkeys hl hunder fun l => ⟨rfl, rfl⟩

theorem addCourseLinkAction_inOwnCourse (parseUrl : String → Option ParsedUrl) (courseId : Uuid)
    (title url isPublic : String) (id : Uuid) :
    InOwnCourse ctx now db
      (addCourseLinkAction db ctx now parseUrl courseId title url isPublic id).2 := by
  rw [addCourseLinkAction]
  split_ifs with htitle
  · exact Or.inl rfl
  · split
    · exact Or.inl rfl
    · refine answerWith_inOwnCourse fun hallowed db' hwrite => ?_
      exact Or.inr ⟨courseId, hallowed, confined_insertCourseResource hwrite ⟨rfl, rfl⟩⟩

theorem addLessonLinkAction_inOwnCourse (parseUrl : String → Option ParsedUrl) (lessonId : Uuid)
    (url title : String) (id : Uuid) :
    InOwnCourse ctx now db (addLessonLinkAction db ctx now parseUrl lessonId url title id).2 := by
  rw [addLessonLinkAction]
  split
  · exact Or.inl rfl
  · refine answerWith_inOwnCourse fun hallowed db' hwrite => ?_
    obtain ⟨courseId, hcourse, hlesson⟩ := course_of_decideLessonAuthoring hallowed
    exact Or.inr ⟨courseId, hcourse, confined_insertLessonResource hwrite ⟨rfl, hlesson⟩⟩

/-! ### Recordings -/

theorem requestUploadAction_inOwnCourse (s : MediaServices) (form : UploadForm)
    (resourceId : Uuid) (w : MediaWorld) :
    InOwnCourse ctx now w.db (requestUploadAction s ctx form ⟨resourceId, now⟩ w).2.db := by
  have hreserved : ∀ key db', reserveRecording w.db ctx form ⟨resourceId, now⟩
      = .ok (some (key, db')) → InOwnCourse ctx now w.db db' := by
    intro key db' h
    rw [reserveRecording] at h
    split_ifs at h with hallowed
    · obtain ⟨db₂, hwrite, hpair⟩ := Machine.map_eq_ok.mp h
      obtain ⟨mid, hinsert, hlog⟩ := Machine.bind_eq_ok.mp hwrite
      obtain ⟨-, rfl⟩ := Prod.mk.inj (Option.some.inj hpair)
      obtain ⟨courseId, hcourse, hlesson⟩ := course_of_decideLessonAuthoring hallowed
      exact Or.inr ⟨courseId, hcourse,
        (confined_insertLessonResource hinsert ⟨rfl, hlesson⟩).logged hlog⟩
    · cases h
  rw [requestUploadAction]
  split_ifs with hstorage
  · exact Or.inl rfl
  · split
    · exact Or.inl rfl
    · split
      · exact Or.inl rfl
      · exact Or.inl rfl
      · next key db' hreserve =>
        split
        · exact hreserved key db' hreserve
        · exact hreserved key db' hreserve

/-- Making a recording ready changes its row, drops the other recordings of the lesson, and may
record a duration on the lesson itself. -/
theorem confined_commitUpload (hkeys : ContentKeys db) {numberText : ℚ → String}
    {call : UploadCall} {facts : ObjectFacts} {courseId : Uuid} {r : LessonResourceRow}
    {l : LessonRow}
    (h : commitUpload numberText db call facts (listSuperseded db call) = .ok db')
    (hr : r ∈ db.lessonResources) (htenant : r.tenantId = call.ctx.tenantId)
    (hid : r.id = call.resourceId) (hlesson : r.lessonId = call.lessonId) (hl : l ∈ db.lessons)
    (hlid : l.id = call.lessonId) (hunder : l.Under call.ctx.tenantId courseId db.modules) :
    Confined call.ctx.tenantId courseId db db' := by
  have hreplaced : ∀ lessons : List LessonRow,
      (∃ l ∈ lessons, l.id = call.lessonId ∧ l.Under call.ctx.tenantId courseId db.modules) →
      Differ db.lessonResources
        (Table.delete (fun r => r.tenantId = call.ctx.tenantId &&
            r.id ∈ (listSuperseded db call).map (·.id))
          (Table.update (fun r => r.tenantId = call.ctx.tenantId && r.id = call.resourceId)
            (fun r => { r with byteSize := some facts.byteSize,
                               isDownloadable := call.isDownloadable }) db.lessonResources))
        (LessonResourceRow.Under call.ctx.tenantId courseId db.modules db.lessons)
        (LessonResourceRow.Under call.ctx.tenantId courseId db.modules lessons) := by
    rintro lessons ⟨l', hl', hlid', hunder'⟩
    refine (differ_update_key hkeys.lessonResources hr ?_ ?_ ?_).trans (differ_delete ?_)
    · simp [hid]
    · exact ⟨htenant, l, hl, hlid.trans hlesson.symm, hunder⟩
    · exact ⟨htenant, l', hl', hlid'.trans hlesson.symm, hunder'⟩
    · intro a ha hp
      rw [Bool.and_eq_true, decide_eq_true_eq, decide_eq_true_eq] at hp
      obtain ⟨old, hold, hoid⟩ := List.mem_map.mp hp.2
      obtain ⟨b, hb, hbt, hbl, -, hbne, rfl⟩ := mem_listSuperseded.mp hold
      rcases Table.mem_update.mp ha with ⟨ha, -⟩ | ⟨c, -, hc, rfl⟩
      · obtain rfl := Table.eq_of_key_eq hkeys.lessonResources hb ha hoid
        exact ⟨hbt, l, hl, hlid.trans hbl.symm, hunder⟩
      · -- What the update wrote is not among what is replaced.
        rw [Bool.and_eq_true, decide_eq_true_eq, decide_eq_true_eq] at hc
        exact absurd (hoid.trans hc.2) hbne
  obtain ⟨mid, hchecked, hlog⟩ := Machine.bind_eq_ok.mp h
  obtain ⟨-, rfl⟩ := Database.checked_ok.mp hchecked
  refine Confined.logged ?_ hlog
  cases readDuration call.durationSeconds with
  | none => exact .of_lessonResources (hreplaced _ ⟨l, hl, hlid, hunder⟩)
  | some seconds =>
    refine .of_lessons (differ_update_key hkeys.lessons hl ?_ hunder hunder)
      (hreplaced _ ⟨{ l with durationSeconds := some seconds }, ?_, hlid, hunder⟩)
    · simp [hlid]
    · exact Table.mem_update.mpr (Or.inr ⟨l, hl, by simp [hunder.1, hlid], rfl⟩)

theorem completeUploadAction_inOwnCourse (s : MediaServices) (call : UploadCall) (w : MediaWorld)
    (hkeys : ContentKeys w.db) :
    InOwnCourse call.ctx call.now w.db (completeUploadAction s call w).2.db := by
  rw [completeUploadAction]
  split_ifs with hstorage
  · exact Or.inl rfl
  · split
    · exact Or.inl rfl
    · next key hkey =>
      split
      · exact Or.inl rfl
      · exact Or.inl rfl
      · dsimp only
        split
        · exact Or.inl rfl
        · next db' hcommit =>
          obtain ⟨hallowed, -, r, hr, htenant, hid, hlesson, -⟩ := findRecordingKey_eq_some hkey
          obtain ⟨courseId, hcourse, l, hl, hlid, hunder⟩ :=
            course_of_decideLessonAuthoring hallowed
          exact Or.inr ⟨courseId, hcourse,
            confined_commitUpload hkeys hcommit hr htenant hid hlesson hl hlid hunder⟩

theorem removeResourceAction_inOwnCourse (s : MediaServices) (call : UploadCall) (w : MediaWorld)
    (hkeys : ContentKeys w.db) :
    InOwnCourse call.ctx call.now w.db (removeResourceAction s call w).2.db := by
  rw [removeResourceAction]
  split
  · exact Or.inl rfl
  · next key hkey =>
    dsimp only
    split
    · exact Or.inl rfl
    · next db' hlog =>
      obtain ⟨hallowed, -, r, hr, htenant, hid, hlesson, -⟩ := findRecordingKey_eq_some hkey
      obtain ⟨courseId, hcourse, l, hl, hlid, hunder⟩ := course_of_decideLessonAuthoring hallowed
      rw [← hid] at hlog
      exact Or.inr ⟨courseId, hcourse, (confined_deleteLessonResource hkeys hr
        ⟨htenant, l, hl, hlid.trans hlesson.symm, hunder⟩).logged hlog⟩

/-! ### Documents -/

theorem confined_reserveDocument {target : AttachmentTarget} {file : AttachmentFile}
    {resourceId : Uuid} {key : String}
    (h : reserveDocument db ⟨ctx, now, target⟩ file resourceId = .ok (some (key, db'))) :
    InOwnCourse ctx now db db' := by
  rw [reserveDocument] at h
  split_ifs at h with hallowed
  · obtain ⟨db₂, hinsert, hpair⟩ := Machine.map_eq_ok.mp h
    obtain ⟨-, rfl⟩ := Prod.mk.inj (Option.some.inj hpair)
    cases target with
    | course id =>
      exact Or.inr ⟨id, hallowed, confined_insertCourseResource hinsert ⟨rfl, rfl⟩⟩
    | lesson id =>
      obtain ⟨courseId, hcourse, hlesson⟩ := course_of_decideLessonAuthoring hallowed
      exact Or.inr ⟨courseId, hcourse, confined_insertLessonResource hinsert ⟨rfl, hlesson⟩⟩
  · cases h

theorem reserveAttachment_inOwnCourse (s : MediaServices) (target : AttachmentTarget)
    (file : AttachmentFile) (resourceId : Uuid) (w : MediaWorld) :
    InOwnCourse ctx now w.db (reserveAttachment s ⟨ctx, now, target⟩ file resourceId w).2.db := by
  rw [reserveAttachment]
  split_ifs with hstorage
  · exact Or.inl rfl
  · split
    · exact Or.inl rfl
    · split
      · exact Or.inl rfl
      · exact Or.inl rfl
      · next key db' hreserve =>
        dsimp only
        split
        · exact confined_reserveDocument hreserve
        · exact confined_reserveDocument hreserve

/-- A document that is found hangs off the target that was named. -/
theorem mem_of_findKey_course {id resourceId : Uuid} {found : Option String}
    (h : findKey ctx.tenantId db (.course id) resourceId = some found) :
    ∃ r ∈ db.courseResources, r.id = resourceId ∧ r.Under ctx.tenantId id := by
  obtain ⟨r, hr, -⟩ := Option.map_eq_some_iff.mp h
  have hp := List.find?_some hr
  simp only [Bool.and_eq_true, decide_eq_true_eq] at hp
  exact ⟨r, List.mem_of_find?_eq_some hr, hp.1.2, hp.1.1, hp.2⟩

theorem mem_of_findKey_lesson {id resourceId courseId : Uuid} {found : Option String}
    (h : findKey ctx.tenantId db (.lesson id) resourceId = some found)
    (hlesson : ∃ l ∈ db.lessons, l.id = id ∧ l.Under ctx.tenantId courseId db.modules) :
    ∃ r ∈ db.lessonResources, r.id = resourceId ∧
      r.Under ctx.tenantId courseId db.modules db.lessons := by
  obtain ⟨r, hr, -⟩ := Option.map_eq_some_iff.mp h
  have hp := List.find?_some hr
  simp only [Bool.and_eq_true, decide_eq_true_eq] at hp
  obtain ⟨l, hl, hlid, hunder⟩ := hlesson
  exact ⟨r, List.mem_of_find?_eq_some hr, hp.1.2, hp.1.1, l, hl, hlid.trans hp.2.symm, hunder⟩

theorem confined_commitAttachment (hkeys : ContentKeys db) {target : AttachmentTarget}
    {resourceId : Uuid} {key : String} {facts : ObjectFacts}
    (hkey : findAttachmentKey db ⟨ctx, now, target⟩ resourceId = some key)
    (h : commitAttachment db ⟨ctx, now, target⟩ resourceId facts = .ok db') :
    InOwnCourse ctx now db db' := by
  rw [findAttachmentKey] at hkey
  split_ifs at hkey with hallowed
  · obtain ⟨hjoin, -⟩ := Option.filter_eq_some_iff.mp hkey
    have hfound := Option.join_eq_some_iff.mp hjoin
    cases target with
    | course id =>
      obtain ⟨r, hr, rfl, hunder⟩ := mem_of_findKey_course hfound
      refine Or.inr ⟨id, hallowed, Confined.logged ?_ h⟩
      exact confined_updateCourseResource hkeys hr hunder fun r => ⟨rfl, rfl⟩
    | lesson id =>
      obtain ⟨courseId, hcourse, hlesson⟩ := course_of_decideLessonAuthoring hallowed
      obtain ⟨r, hr, rfl, hunder⟩ := mem_of_findKey_lesson hfound hlesson
      refine Or.inr ⟨courseId, hcourse, Confined.logged ?_ h⟩
      exact confined_updateLessonResource hkeys hr hunder fun r => ⟨rfl, rfl⟩

theorem confirmAttachment_inOwnCourse (s : MediaServices) (target : AttachmentTarget)
    (resourceId : Uuid) (w : MediaWorld) (hkeys : ContentKeys w.db) :
    InOwnCourse ctx now w.db (confirmAttachment s ⟨ctx, now, target⟩ resourceId w).2.db := by
  rw [confirmAttachment]
  split
  · exact Or.inl rfl
  · next key hkey =>
    split
    · exact Or.inl rfl
    · exact Or.inl rfl
    · split
      · exact Or.inl rfl
      · next db' hcommit => exact confined_commitAttachment hkeys hkey hcommit

theorem confined_deleteAttachment (hkeys : ContentKeys db) {target : AttachmentTarget}
    {resourceId : Uuid} {found : Option (Option String)}
    (h : deleteAttachment db ⟨ctx, now, target⟩ resourceId = .ok (found, db')) :
    InOwnCourse ctx now db db' := by
  rw [deleteAttachment] at h
  split_ifs at h with hallowed
  · split at h
    · obtain ⟨-, rfl⟩ := Prod.mk.inj (Except.ok.inj h)
      exact Or.inl rfl
    · next key hfound =>
      obtain ⟨db₂, hlog, hpair⟩ := Machine.map_eq_ok.mp h
      obtain ⟨-, rfl⟩ := Prod.mk.inj hpair
      cases target with
      | course id =>
        obtain ⟨r, hr, rfl, hunder⟩ := mem_of_findKey_course hfound
        exact Or.inr ⟨id, hallowed, (confined_deleteCourseResource hkeys hr hunder).logged hlog⟩
      | lesson id =>
        obtain ⟨courseId, hcourse, hlesson⟩ := course_of_decideLessonAuthoring hallowed
        obtain ⟨r, hr, rfl, hunder⟩ := mem_of_findKey_lesson hfound hlesson
        exact Or.inr ⟨courseId, hcourse,
          (confined_deleteLessonResource hkeys hr hunder).logged hlog⟩
  · obtain ⟨-, rfl⟩ := Prod.mk.inj (Except.ok.inj h)
    exact Or.inl rfl

theorem removeAttachment_inOwnCourse (s : MediaServices) (target : AttachmentTarget)
    (resourceId : Uuid) (w : MediaWorld) (hkeys : ContentKeys w.db) :
    InOwnCourse ctx now w.db (removeAttachment s ⟨ctx, now, target⟩ resourceId w).2.db := by
  rw [removeAttachment]
  split
  · exact Or.inl rfl
  · next db' hdelete => exact confined_deleteAttachment hkeys hdelete
  · next found db' hdelete =>
    have hdb := confined_deleteAttachment hkeys hdelete
    split
    · exact hdb
    · split_ifs with hstorage
      · split
        · exact hdb
        · exact hdb
      · exact hdb

end Actions

/-! ### The thirteen actions -/

/-- **Whatever ids an action is given, and whichever rows they name, the rows it inserts, changes or
deletes hang off one course of the caller's institute that the caller may change. Without such a
course the database stays as it is.** -/
theorem teach_inOwnCourse (s : MediaServices) (parseUrl : String → Option ParsedUrl)
    (ctx : AuthorContext) (now : Instant) (w : MediaWorld) (hkeys : ContentKeys w.db)
    (action : TeachAction) :
    InOwnCourse ctx now w.db (teach s parseUrl ctx now w action).db := by
  cases action with
  | addModule courseId title id =>
    simp only [teach]
    exact addModuleAction_inOwnCourse courseId title id
  | addLesson moduleId title isFreePreview id =>
    simp only [teach]
    exact addLessonAction_inOwnCourse moduleId title isFreePreview id
  | requestUpload form resourceId =>
    simp only [teach]
    exact requestUploadAction_inOwnCourse s form resourceId w
  | completeUpload lessonId resourceId durationSeconds isDownloadable =>
    simp only [teach]
    exact completeUploadAction_inOwnCourse s
      ⟨ctx, now, lessonId, resourceId, durationSeconds, isDownloadable⟩ w hkeys
  | removeResource lessonId resourceId =>
    simp only [teach]
    exact removeResourceAction_inOwnCourse s ⟨ctx, now, lessonId, resourceId, .finite 0, false⟩ w
      hkeys
  | updateCourse courseId title descriptionMd =>
    simp only [teach]
    exact updateCourseAction_inOwnCourse courseId title descriptionMd
  | updateModule moduleId title =>
    simp only [teach]
    exact updateModuleAction_inOwnCourse hkeys moduleId title
  | updateLesson lessonId title contentMd isFreePreview =>
    simp only [teach]
    exact updateLessonAction_inOwnCourse hkeys lessonId title contentMd isFreePreview
  | addCourseLink courseId title url isPublic id =>
    simp only [teach]
    exact addCourseLinkAction_inOwnCourse parseUrl courseId title url isPublic id
  | addLessonLink lessonId url title id =>
    simp only [teach]
    exact addLessonLinkAction_inOwnCourse parseUrl lessonId url title id
  | reserveAttachment target file resourceId =>
    simp only [teach]
    exact reserveAttachment_inOwnCourse s target file resourceId w
  | confirmAttachment target resourceId =>
    simp only [teach]
    exact confirmAttachment_inOwnCourse s target resourceId w hkeys
  | removeAttachment target resourceId =>
    simp only [teach]
    exact removeAttachment_inOwnCourse s target resourceId w hkeys

/-- The teacher of a lesson renames it. -/
theorem teach_inOwnCourse_rename : ContentKeys classroom.db ∧
    InOwnCourse teacher 0 classroom.db (teach studio (fun _ => none) teacher 0 classroom
      (.updateLesson 12 "In the beginning" "" "true")).db :=
  ⟨by decide, teach_inOwnCourse studio (fun _ => none) teacher 0 classroom (by decide)
    (.updateLesson 12 "In the beginning" "" "true")⟩

end LampLight
