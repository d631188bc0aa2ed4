import LampLight.Repositories.Entitlements

/-!
# Lesson and course reads

A lesson hangs off a module and a module off a course, so the course a lesson belongs to comes from
two joins. Both joins name the tenant again.

## Main results

* `findLessonWithCourse_eq_some` — what the two joins find
* `map_filter_lessonsWithCourse` — each lesson of a module comes out of the joins once
-/

namespace LampLight

open Table (innerJoin owned)

variable {scope : TenantScope} {db : Database} {lessonId courseId : Uuid}

/-! ### A lesson and its course -/

/-- A lesson, and the course it is in. -/
structure LessonWithCourse where
  id : Uuid
  title : String
  slug : String
  contentMd : Option String
  isFreePreview : Bool
  durationSeconds : Option ℤ
  moduleId : Uuid
  courseId : Uuid
  courseTitle : String
  courseSlug : String
deriving DecidableEq

/-- The columns selected from a lesson, its module and its course. -/
def LessonWithCourse.of (l : LessonRow) (m : ModuleRow) (c : CourseRow) : LessonWithCourse where
  id := l.id
  title := l.title
  slug := l.slug
  contentMd := l.contentMd
  isFreePreview := l.isFreePreview
  durationSeconds := l.durationSeconds
  moduleId := l.moduleId
  courseId := m.courseId
  courseTitle := c.title
  courseSlug := c.slug

/-- Lessons joined to their modules and courses, both looked up in the scope's tenant. -/
def lessonsWithCourse (scope : TenantScope) (db : Database) :
    List ((LessonRow × ModuleRow) × CourseRow) :=
  innerJoin (fun x c => c.tenantId = scope.tenantId && c.id = x.2.courseId)
    (innerJoin (fun l m => m.tenantId = scope.tenantId && m.id = l.moduleId)
      db.lessons db.modules) db.courses

/-- One lesson of an institute, with its course. -/
def findLessonWithCourse (scope : TenantScope) (db : Database) (lessonId : Uuid) :
    Option LessonWithCourse :=
  (((lessonsWithCourse scope db).filter fun x =>
    x.1.1.tenantId = scope.tenantId && x.1.1.id = lessonId).head?).map fun x =>
      .of x.1.1 x.1.2 x.2

/-- The lesson, its module and its course all exist in the tenant. -/
structure LessonIn (db : Database) (tenantId lessonId : Uuid) (l : LessonRow) (m : ModuleRow)
    (c : CourseRow) : Prop where
  lesson : l ∈ db.lessons
  lesson_tenant : l.tenantId = tenantId
  lesson_id : l.id = lessonId
  module : m ∈ db.modules
  module_tenant : m.tenantId = tenantId
  module_id : m.id = l.moduleId
  course : c ∈ db.courses
  course_tenant : c.tenantId = tenantId
  course_id : c.id = m.courseId

theorem mem_lessonsWithCourse {x : (LessonRow × ModuleRow) × CourseRow} :
    x ∈ (lessonsWithCourse scope db).filter
        (fun x => x.1.1.tenantId = scope.tenantId && x.1.1.id = lessonId) ↔
      LessonIn db scope.tenantId lessonId x.1.1 x.1.2 x.2 := by
  obtain ⟨⟨l, m⟩, c⟩ := x
  simp only [lessonsWithCourse, List.mem_filter, Table.mem_innerJoin, Bool.and_eq_true,
    decide_eq_true_eq]
  constructor
  · rintro ⟨⟨⟨hl, hm, hmt, hmid⟩, hc, hct, hcid⟩, hlt, hlid⟩
    exact ⟨hl, hlt, hlid, hm, hmt, hmid, hc, hct, hcid⟩
  · rintro ⟨hl, hlt, hlid, hm, hmt, hmid, hc, hct, hcid⟩
    exact ⟨⟨⟨hl, hm, hmt, hmid⟩, hc, hct, hcid⟩, hlt, hlid⟩

/-- Primary keys leave one lesson, one module and one course to find. -/
theorem LessonIn.unique (hdb : db.Consistent) {tenantId : Uuid} {l l' : LessonRow}
    {m m' : ModuleRow} {c c' : CourseRow} (h : LessonIn db tenantId lessonId l m c)
    (h' : LessonIn db tenantId lessonId l' m' c') : l = l' ∧ m = m' ∧ c = c' := by
  have hl : l = l' := Table.eq_of_key_eq hdb.lessons_pkey h.lesson h'.lesson
    (h.lesson_id.trans h'.lesson_id.symm)
  have hm : m = m' := Table.eq_of_key_eq hdb.modules_pkey h.module h'.module
    (h.module_id.trans (by rw [hl, h'.module_id]))
  have hc : c = c' := Table.eq_of_key_eq hdb.courses_pkey h.course h'.course
    (h.course_id.trans (by rw [hm, h'.course_id]))
  exact ⟨hl, hm, hc⟩

theorem findLessonWithCourse_eq_some (hdb : db.Consistent) {found : LessonWithCourse} :
    findLessonWithCourse scope db lessonId = some found ↔
      ∃ l m c, LessonIn db scope.tenantId lessonId l m c ∧ found = .of l m c := by
  rw [findLessonWithCourse, Option.map_eq_some_iff]
  constructor
  · rintro ⟨x, hx, rfl⟩
    exact ⟨x.1.1, x.1.2, x.2, mem_lessonsWithCourse.mp (List.mem_of_head? hx), rfl⟩
  · rintro ⟨l, m, c, h, rfl⟩
    have hmem := mem_lessonsWithCourse (x := ((l, m), c)).mpr h
    refine ⟨((l, m), c), ?_, rfl⟩
    cases hhead : ((lessonsWithCourse scope db).filter fun x =>
        x.1.1.tenantId = scope.tenantId && x.1.1.id = lessonId).head? with
    | none =>
      rw [List.head?_eq_none_iff.mp hhead] at hmem
      exact absurd hmem List.not_mem_nil
    | some x =>
      obtain ⟨⟨l', m'⟩, c'⟩ := x
      obtain ⟨rfl, rfl, rfl⟩ :=
        h.unique hdb (mem_lessonsWithCourse.mp (List.mem_of_head? hhead))
      rfl

theorem findLessonWithCourse_viewOf :
    findLessonWithCourse scope (db.viewOf scope.tenantId) lessonId
      = findLessonWithCourse scope db lessonId := by
  let wanted (l : LessonRow) : Bool := l.tenantId = scope.tenantId && l.id = lessonId
  refine congrArg (fun rows : List ((LessonRow × ModuleRow) × CourseRow) =>
    rows.head?.map fun x => LessonWithCourse.of x.1.1 x.1.2 x.2) ?_
  refine Table.filter_innerJoin_owned (q := fun x : LessonRow × ModuleRow => wanted x.1)
    ?_ (by simp +contextual) _
  exact Table.filter_innerJoin_owned (q := wanted)
    (Table.filter_owned (by simp +contextual [wanted]) _) (by simp +contextual) _

/-! ### A course and its lessons -/

/-- The join with the course's product always matches, so it is left out. -/
def findCourseBySlug (scope : TenantScope) (db : Database) (slug : String) : Option CourseRow :=
  db.courses.find? fun c => c.tenantId = scope.tenantId && c.slug = slug

/-- In the order of the modules, and within a module in the order of its lessons. -/
def listLessonsForCourse (scope : TenantScope) (db : Database) (courseId : Uuid) :
    List LessonWithCourse :=
  let rows := (lessonsWithCourse scope db).filter fun x =>
    x.1.1.tenantId = scope.tenantId && x.1.2.courseId = courseId
  -- both sorts are stable, so the later one is the leading one
  (Table.orderBy (fun x => x.1.2.sortOrder) (Table.orderBy (fun x => x.1.1.sortOrder) rows)).map
    fun x => .of x.1.1 x.1.2 x.2

theorem findCourseBySlug_eq_some (hslug : (db.courses.map fun c => (c.tenantId, c.slug)).Nodup)
    {course : CourseRow} (hcourse : course ∈ db.courses)
    (htenant : course.tenantId = scope.tenantId) :
    findCourseBySlug scope db course.slug = some course := by
  refine Table.find?_eq_some_of_unique hcourse (by simp [htenant]) fun other hother hp => ?_
  simp only [Bool.and_eq_true, decide_eq_true_eq] at hp
  refine Table.eq_of_key_eq hslug hother hcourse ?_
  rw [hp.1, hp.2, htenant]

theorem mem_listLessonsForCourse {found : LessonWithCourse} :
    found ∈ listLessonsForCourse scope db courseId ↔ ∃ l m c,
      LessonIn db scope.tenantId l.id l m c ∧ m.courseId = courseId ∧ found = .of l m c := by
  simp only [listLessonsForCourse, List.mem_map, Table.mem_orderBy, List.mem_filter,
    Bool.and_eq_true, decide_eq_true_eq]
  constructor
  · rintro ⟨x, ⟨hx, htenant, hcourse⟩, rfl⟩
    have hin : LessonIn db scope.tenantId x.1.1.id x.1.1 x.1.2 x.2 :=
      mem_lessonsWithCourse.mp (List.mem_filter.mpr ⟨hx, by simp [htenant]⟩)
    exact ⟨x.1.1, x.1.2, x.2, hin, hcourse, rfl⟩
  · rintro ⟨l, m, c, hin, hcourse, rfl⟩
    have hx := mem_lessonsWithCourse (x := ((l, m), c)).mpr hin
    exact ⟨((l, m), c), ⟨(List.mem_filter.mp hx).1, hin.lesson_tenant, hcourse⟩, rfl⟩

/-- The joins give a lesson its own module. -/
theorem module_of_mem_lessonsWithCourse (hdb : db.Consistent) {m : ModuleRow} (hm : m ∈ db.modules)
    {x : (LessonRow × ModuleRow) × CourseRow} (hx : x ∈ lessonsWithCourse scope db)
    (h : x.1.1.moduleId = m.id) : x.1.2 = m := by
  obtain ⟨-, hm', hon⟩ := Table.mem_innerJoin.mp (Table.mem_innerJoin.mp hx).1
  simp only [Bool.and_eq_true, decide_eq_true_eq] at hon
  exact Table.eq_of_key_eq hdb.modules_pkey hm' hm (hon.2.trans h)

/-- Each lesson of a module comes out of the joins once. -/
theorem map_filter_lessonsWithCourse (hdb : db.Consistent) {m : ModuleRow} (hm : m ∈ db.modules)
    (htenant : m.tenantId = scope.tenantId) :
    ((lessonsWithCourse scope db).filter fun x =>
        x.1.1.tenantId = scope.tenantId && x.1.1.moduleId = m.id).map (fun x => x.1.1)
      = db.lessons.filter fun l => l.tenantId = scope.tenantId && l.moduleId = m.id := by
  let within (l : LessonRow) : Bool := l.tenantId = scope.tenantId && l.moduleId = m.id
  obtain ⟨c, hc, hct, hcid⟩ := hdb.modules_course_fk m hm
  have hcourses : ((lessonsWithCourse scope db).filter fun x => within x.1.1).map Prod.fst
      = (innerJoin (fun l m => m.tenantId = scope.tenantId && m.id = l.moduleId)
          db.lessons db.modules).filter fun x => within x.1 := by
    refine Table.map_fst_filter_innerJoin (p := fun x : LessonRow × ModuleRow => within x.1)
      fun x hx hw => ⟨c, ?_⟩
    simp only [within, Bool.and_eq_true, decide_eq_true_eq] at hw
    have hfind : x.2 = m := by
      obtain ⟨-, hx', hon⟩ := Table.mem_innerJoin.mp hx
      simp only [Bool.and_eq_true, decide_eq_true_eq] at hon
      exact Table.eq_of_key_eq hdb.modules_pkey hx' hm (hon.2.trans hw.2)
    refine Table.filter_eq_singleton (List.Nodup.of_map _ hdb.courses_pkey) hc fun b hb => ?_
    simp only [hfind, Bool.and_eq_true, decide_eq_true_eq]
    constructor
    · rintro ⟨-, hid⟩
      exact Table.eq_of_key_eq hdb.courses_pkey hb hc (hid.trans hcid.symm)
    · rintro rfl
      exact ⟨hct.trans htenant, hcid⟩
  show ((lessonsWithCourse scope db).filter fun x => within x.1.1).map (Prod.fst ∘ Prod.fst) = _
  rw [← List.map_map, hcourses]
  refine Table.map_fst_filter_innerJoin (p := within) fun l hl hw => ⟨m, ?_⟩
  simp only [within, Bool.and_eq_true, decide_eq_true_eq] at hw
  refine Table.filter_eq_singleton (List.Nodup.of_map _ hdb.modules_pkey) hm fun b hb => ?_
  simp only [Bool.and_eq_true, decide_eq_true_eq]
  constructor
  · rintro ⟨-, hid⟩
    exact Table.eq_of_key_eq hdb.modules_pkey hb hm (hid.trans hw.2)
  · rintro rfl
    exact ⟨htenant, hw.2.symm⟩

/-! ### Resources -/

/-- A resource of a lesson. -/
structure LessonResource where
  id : Uuid
  kind : ResourceKind
  storageKey : Option String
  filename : Option String
  isDownloadable : Bool
deriving DecidableEq

/-- The rows a student may be offered: those whose object is confirmed to exist, which is what a
non-null size says. -/
def listLessonResources (scope : TenantScope) (db : Database) (lessonId : Uuid) :
    List LessonResource :=
  (Table.orderBy LessonResourceRow.sortOrder (db.lessonResources.filter fun r =>
    r.tenantId = scope.tenantId && r.lessonId = lessonId && r.byteSize.isSome)).map fun r =>
      { id := r.id, kind := r.kind, storageKey := r.storageKey, filename := r.filename,
        isDownloadable := r.isDownloadable }

/-- A resource of a lesson as its authors see it. -/
structure AuthoringResource extends LessonResource where
  lessonId : Uuid
  /-- None while an upload is reserved but unconfirmed. -/
  byteSize : Option ℕ
deriving DecidableEq

/-- Every recording attached to these lessons, unfinished uploads included. -/
def listResourcesForLessons (scope : TenantScope) (db : Database) (lessonIds : List Uuid) :
    List AuthoringResource :=
  if lessonIds.length = 0 then []
  else
    (Table.orderBy LessonResourceRow.sortOrder (db.lessonResources.filter fun r =>
      r.tenantId = scope.tenantId && decide (r.lessonId ∈ lessonIds))).map fun r =>
        { id := r.id, lessonId := r.lessonId, kind := r.kind, storageKey := r.storageKey,
          filename := r.filename, isDownloadable := r.isDownloadable, byteSize := r.byteSize }

/-- A document of a course. -/
structure CourseResource where
  id : Uuid
  kind : ResourceKind
  title : String
  storageKey : Option String
  url : Option String
  filename : Option String
  byteSize : Option ℕ
  isPublic : Bool
deriving DecidableEq

/-- Every resource of the course, public or not, ready or not. -/
def listCourseResources (scope : TenantScope) (db : Database) (courseId : Uuid) :
    List CourseResource :=
  (Table.orderBy CourseResourceRow.sortOrder (db.courseResources.filter fun r =>
    r.tenantId = scope.tenantId && r.courseId = courseId)).map fun r =>
      { id := r.id, kind := r.kind, title := r.title, storageKey := r.storageKey, url := r.url,
        filename := r.filename, byteSize := r.byteSize, isPublic := r.isPublic }

theorem listLessonResources_viewOf :
    listLessonResources scope (db.viewOf scope.tenantId) lessonId
      = listLessonResources scope db lessonId :=
  congrArg (fun rows => (Table.orderBy LessonResourceRow.sortOrder rows).map _)
    (Table.filter_owned (by simp +contextual) _)

theorem listCourseResources_viewOf :
    listCourseResources scope (db.viewOf scope.tenantId) courseId
      = listCourseResources scope db courseId :=
  congrArg (fun rows => (Table.orderBy CourseResourceRow.sortOrder rows).map _)
    (Table.filter_owned (by simp +contextual) _)

end LampLight
