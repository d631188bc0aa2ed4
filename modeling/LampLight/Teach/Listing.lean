import LampLight.Access.Authoring
import LampLight.Auth.Guards

/-!
# The teaching list

The list asks the database once, by the role of whoever looks; the actions ask the predicate course
by course. An admin is shown the courses of the tenant, an instructor the courses that are joined to
an assignment of theirs, and a student the page for what does not exist.

## Main definitions

* `teachPage` — the list, or none for `notFound`
* `MayEdit` — the predicate, asked for whoever is signed in
* `Database.AssignedOnce` — nobody is assigned to a course twice

## Main results

* `map_id_teachView` — the list is the query, course by course
* `teachPage_eq_none_iff` — who gets no list
* `teachPage_lists` — the list is what may be edited, and who gets none may edit nothing
-/

namespace LampLight

open Table (innerJoin)

/-! ### The page -/

/-- A recording as the teaching page lists it. -/
structure TeachRecording where
  id : Uuid
  filename : Option String
  byteSize : Option ℕ
  isDownloadable : Bool
deriving DecidableEq

/-- A lesson as the teaching page lists it. -/
structure TeachLesson where
  id : Uuid
  moduleId : Uuid
  title : String
  isFreePreview : Bool
  editable : Bool
  recordings : List TeachRecording
deriving DecidableEq

/-- A module as the teaching page lists it. -/
structure TeachModule where
  id : Uuid
  courseId : Uuid
  title : String
  lessons : List TeachLesson
deriving DecidableEq

/-- A course as the teaching page lists it. -/
structure TeachCourse where
  id : Uuid
  title : String
  modules : List TeachModule
deriving DecidableEq

/-- The courses of the tenant. -/
def tenantCourses (scope : TenantScope) (collate : Collation) (db : Database) : List CourseRow :=
  (db.courses.filter fun c => c.tenantId = scope.tenantId).insertionSort
    fun a b => collate.database a.title b.title

/-- The courses of the tenant joined to the assignments of one person. -/
def assignedCourses (scope : TenantScope) (collate : Collation) (db : Database) (userId : Uuid) :
    List CourseRow :=
  (((innerJoin (fun c i => i.tenantId = c.tenantId && i.courseId = c.id)
    db.courses db.courseInstructors).filter fun x =>
      x.1.tenantId = scope.tenantId && x.2.userId = userId).insertionSort
        fun x y => collate.database x.1.title y.1.title).map Prod.fst

/-- What the page reads for a viewer who is no student. -/
def teachView (scope : TenantScope) (collate : Collation) (db : Database) (viewer : Viewer) :
    List TeachCourse :=
  let mine :=
    if viewer.role = .admin then tenantCourses scope collate db
    else assignedCourses scope collate db viewer.userId
  if mine.length = 0 then []
  else
    let courseIds := mine.map (·.id)
    let allModules := Table.orderBy ModuleRow.sortOrder
      (db.modules.filter fun m => m.tenantId = scope.tenantId && decide (m.courseId ∈ courseIds))
    let allLessons :=
      if allModules.length = 0 then []
      else Table.orderBy LessonRow.sortOrder (db.lessons.filter fun l =>
        l.tenantId = scope.tenantId && decide (l.moduleId ∈ allModules.map (·.id)))
    let resources := listResourcesForLessons scope db (allLessons.map (·.id))
    mine.map fun course =>
      { id := course.id
        title := course.title
        modules := (allModules.filter fun item => item.courseId = course.id).map fun item =>
          { id := item.id
            courseId := item.courseId
            title := item.title
            lessons := (allLessons.filter fun lesson => lesson.moduleId = item.id).map fun lesson =>
              { id := lesson.id
                moduleId := lesson.moduleId
                title := lesson.title
                isFreePreview := lesson.isFreePreview
                editable := true
                recordings := (resources.filter fun r => r.lessonId = lesson.id).map fun r =>
                  { id := r.id, filename := r.filename, byteSize := r.byteSize,
                    isDownloadable := r.isDownloadable } } } }

/-- `TeachPage`, where none is `notFound`. -/
def teachPage (collate : Collation) (db : Database) (tenant : TenantContext)
    (user : Option SessionUser) (now : Instant) : Option (List TeachCourse) :=
  match getViewer db tenant user now with
  | none => none
  | some viewer =>
    if viewer.role = .student then none
    else some (teachView ⟨viewer.tenant.id, now⟩ collate db viewer)

/-- What the predicate says of whoever is signed in. -/
def MayEdit (db : Database) (tenant : TenantContext) (user : Option SessionUser) (now : Instant)
    (courseId : Uuid) : Prop :=
  ∃ viewer, user = some viewer ∧
    (decideCourseAuthoring ⟨tenant.id, now⟩ db ⟨tenant.id, viewer.id⟩ courseId).allowed = true

/-- `course_instructors_pkey`. -/
def Database.AssignedOnce (db : Database) : Prop :=
  (db.courseInstructors.map fun i => (i.tenantId, i.courseId, i.userId)).Nodup

/-! ### The two queries -/

section Queries

variable {scope : TenantScope} {collate : Collation} {db : Database} {userId courseId : Uuid}

theorem mem_tenantCourses {course : CourseRow} :
    course ∈ tenantCourses scope collate db ↔
      course ∈ db.courses ∧ course.tenantId = scope.tenantId := by
  simp [tenantCourses, List.mem_insertionSort]

theorem mem_assignedCourses {course : CourseRow} :
    course ∈ assignedCourses scope collate db userId ↔
      course ∈ db.courses ∧ course.tenantId = scope.tenantId ∧
        isInstructorOf scope db userId course.id = true := by
  simp only [assignedCourses, List.mem_map, List.mem_insertionSort, List.mem_filter,
    Bool.and_eq_true, decide_eq_true_eq, isInstructorOf_iff]
  constructor
  · rintro ⟨⟨c, i⟩, ⟨hjoin, htenant, huser⟩, rfl⟩
    obtain ⟨hc, hi, hon⟩ := Table.mem_innerJoin.mp hjoin
    simp only [Bool.and_eq_true, decide_eq_true_eq] at hon
    exact ⟨hc, htenant, i, hi, hon.1.trans htenant, huser, hon.2⟩
  · rintro ⟨hc, htenant, i, hi, hit, huser, hcourse⟩
    refine ⟨(course, i), ⟨Table.mem_innerJoin.mpr ⟨hc, hi, ?_⟩, htenant, huser⟩, rfl⟩
    simp [hit, htenant, hcourse]

theorem nodup_tenantCourses (hdb : db.Consistent) :
    ((tenantCourses scope collate db).map (·.id)).Nodup := by
  have hperm := List.perm_insertionSort (fun a b : CourseRow => collate.database a.title b.title)
    (db.courses.filter fun c => c.tenantId = scope.tenantId)
  rw [tenantCourses, (hperm.map _).nodup_iff]
  exact hdb.courses_pkey.sublist (List.filter_sublist.map _)

/-- A course is joined to one assignment of a person at most. -/
theorem nodup_assignedCourses (hdb : db.Consistent) (hassigned : db.AssignedOnce) :
    ((assignedCourses scope collate db userId).map (·.id)).Nodup := by
  have hperm := List.perm_insertionSort
    (fun x y : CourseRow × CourseInstructorRow => collate.database x.1.title y.1.title)
    ((innerJoin (fun c i => i.tenantId = c.tenantId && i.courseId = c.id)
      db.courses db.courseInstructors).filter fun x =>
        x.1.tenantId = scope.tenantId && x.2.userId = userId)
  rw [assignedCourses, ((hperm.map Prod.fst).map _).nodup_iff]
  refine hdb.courses_pkey.sublist (List.Sublist.map _ ?_)
  refine Table.map_fst_filter_innerJoin_sublist fun c _ => ?_
  refine Table.length_filter_le_one (k := (c.tenantId, c.id, userId)) hassigned fun i hi => ?_
  simp only [Bool.and_eq_true, decide_eq_true_eq] at hi
  rw [hi.2.1, hi.2.2, hi.1.2]

theorem decideCourseAuthoring_allowed_iff {tenantId : Uuid} {membership : MembershipRecord}
    (h : findMembership scope db userId = some membership) :
    (decideCourseAuthoring scope db ⟨tenantId, userId⟩ courseId).allowed = true ↔
      (∃ c ∈ db.courses, c.tenantId = scope.tenantId ∧ c.id = courseId) ∧
        (membership.role = .admin ∨
          membership.role = .instructor ∧ isInstructorOf scope db userId courseId = true) := by
  have hcourse : (db.courses.any fun c => c.tenantId = scope.tenantId && c.id = courseId) = true ↔
      ∃ c ∈ db.courses, c.tenantId = scope.tenantId ∧ c.id = courseId := by
    simp
  rw [decideCourseAuthoring, h, ← hcourse]
  dsimp only
  split_ifs with hfound hadmin hassigned
  · simp [AuthorDecision.allowed, hfound, hadmin]
  · simp [AuthorDecision.allowed, hfound, hassigned]
  · simpa [AuthorDecision.allowed, hfound, hadmin] using hassigned
  · simp [AuthorDecision.allowed, hfound]

theorem decideCourseAuthoring_of_stranger {tenantId : Uuid}
    (h : findMembership scope db userId = none) :
    (decideCourseAuthoring scope db ⟨tenantId, userId⟩ courseId).allowed = false := by
  rw [decideCourseAuthoring, h]
  split_ifs <;> rfl

/-- The page shows what its query found, in the query's order. -/
theorem map_id_teachView {viewer : Viewer} :
    (teachView scope collate db viewer).map (·.id)
      = (if viewer.role = .admin then tenantCourses scope collate db
          else assignedCourses scope collate db viewer.userId).map (·.id) := by
  rw [teachView]
  generalize (if viewer.role = .admin then tenantCourses scope collate db
    else assignedCourses scope collate db viewer.userId) = mine
  by_cases hmine : mine.length = 0
  · rw [List.length_eq_zero_iff.mp hmine]
    rfl
  · simp only [if_neg hmine, List.map_map]
    rfl

end Queries

/-! ### The list and the predicate -/

variable {collate : Collation} {db : Database} {tenant : TenantContext}
  {user : Option SessionUser} {now : Instant}

theorem getViewer_eq_some {viewer : Viewer} (h : getViewer db tenant user now = some viewer) :
    ∃ person, user = some person ∧ viewer.userId = person.id ∧ viewer.tenant = tenant ∧
      findMembership ⟨tenant.id, now⟩ db person.id = some ⟨person.id, viewer.role⟩ := by
  cases user with
  | none => cases h
  | some person =>
    obtain ⟨membership, hmembership, rfl⟩ := Option.map_eq_some_iff.mp h
    refine ⟨person, rfl, rfl, rfl, ?_⟩
    obtain ⟨row, hrow, rfl⟩ := Option.map_eq_some_iff.mp hmembership
    have huser := List.find?_some hrow
    simp only [Bool.and_eq_true, decide_eq_true_eq] at huser
    rw [hmembership, huser.2]

/-- Nobody else is turned away: a person without a membership, and a student. -/
theorem teachPage_eq_none_iff :
    teachPage collate db tenant user now = none ↔
      ∀ viewer, getViewer db tenant user now = some viewer → viewer.role = .student := by
  rw [teachPage]
  cases getViewer db tenant user now with
  | none => simp
  | some viewer => simp

theorem not_mayEdit_of_teachPage (h : teachPage collate db tenant user now = none)
    (courseId : Uuid) : ¬ MayEdit db tenant user now courseId := by
  rintro ⟨person, rfl, hallowed⟩
  rw [teachPage_eq_none_iff] at h
  cases hmembership : findMembership ⟨tenant.id, now⟩ db person.id with
  | none =>
    rw [decideCourseAuthoring_of_stranger hmembership] at hallowed
    cases hallowed
  | some membership =>
    have hstudent : membership.role = .student :=
      h ⟨person.id, person.email, tenant, membership.role⟩ (by rw [getViewer, hmembership]; rfl)
    rw [decideCourseAuthoring_allowed_iff hmembership, hstudent] at hallowed
    simp at hallowed

/-- A list is shown to a member who is no student, and it is what their query found. -/
theorem teachPage_eq_some {view : List TeachCourse}
    (h : teachPage collate db tenant user now = some view) :
    ∃ person role, user = some person ∧
      findMembership ⟨tenant.id, now⟩ db person.id = some ⟨person.id, role⟩ ∧
      role ≠ .student ∧
      view.map (·.id) = (if role = .admin then tenantCourses ⟨tenant.id, now⟩ collate db
        else assignedCourses ⟨tenant.id, now⟩ collate db person.id).map (·.id) := by
  rw [teachPage] at h
  cases hviewer : getViewer db tenant user now with
  | none =>
    rw [hviewer] at h
    cases h
  | some viewer =>
    rw [hviewer] at h
    obtain ⟨person, hperson, hid, htenant, hmembership⟩ := getViewer_eq_some hviewer
    dsimp only at h
    split_ifs at h with hrole
    refine ⟨person, viewer.role, hperson, hmembership, hrole, ?_⟩
    rw [← Option.some.inj h, map_id_teachView, hid, htenant]

theorem mem_teachPage_iff {view : List TeachCourse}
    (h : teachPage collate db tenant user now = some view) (courseId : Uuid) :
    courseId ∈ view.map (·.id) ↔ MayEdit db tenant user now courseId := by
  obtain ⟨person, role, rfl, hmembership, hrole, hids⟩ := teachPage_eq_some h
  have hmay : MayEdit db tenant (some person) now courseId ↔
      (decideCourseAuthoring ⟨tenant.id, now⟩ db ⟨tenant.id, person.id⟩ courseId).allowed
        = true := by
    simp [MayEdit]
  rw [hmay, decideCourseAuthoring_allowed_iff hmembership, hids, List.mem_map]
  cases role with
  | student => exact absurd rfl hrole
  | admin =>
    simp only [if_true, mem_tenantCourses, true_or, and_true, and_assoc]
  | instructor =>
    simp only [reduceCtorEq, if_false, mem_assignedCourses, false_or, true_and]
    constructor
    · rintro ⟨c, ⟨hc, htenant, hassigned⟩, rfl⟩
      exact ⟨⟨c, hc, htenant, rfl⟩, hassigned⟩
    · rintro ⟨⟨c, hc, htenant, rfl⟩, hassigned⟩
      exact ⟨c, ⟨hc, htenant, hassigned⟩, rfl⟩

theorem nodup_teachPage (hdb : db.Consistent) (hassigned : db.AssignedOnce)
    {view : List TeachCourse} (h : teachPage collate db tenant user now = some view) :
    (view.map (·.id)).Nodup := by
  obtain ⟨person, role, -, -, -, hids⟩ := teachPage_eq_some h
  rw [hids]
  split_ifs
  · exact nodup_tenantCourses hdb
  · exact nodup_assignedCourses hdb hassigned

/-- **The teaching list is what may be edited**, each course once, and whoever gets no list may edit
nothing. -/
theorem teachPage_lists (collate : Collation) (hdb : db.Consistent) (hassigned : db.AssignedOnce)
    (tenant : TenantContext) (user : Option SessionUser) (now : Instant) :
    (∀ view, teachPage collate db tenant user now = some view →
      (∀ courseId, courseId ∈ view.map (·.id) ↔ MayEdit db tenant user now courseId) ∧
        (view.map (·.id)).Nodup) ∧
    (teachPage collate db tenant user now = none ↔
      ∀ viewer, getViewer db tenant user now = some viewer → viewer.role = .student) ∧
    (teachPage collate db tenant user now = none →
      ∀ courseId, ¬ MayEdit db tenant user now courseId) :=
  ⟨fun _ h => ⟨mem_teachPage_iff h, nodup_teachPage hdb hassigned h⟩, teachPage_eq_none_iff,
    not_mayEdit_of_teachPage⟩

/-- An institute with two courses: an instructor of one of them, and a student who taught the other
one before. -/
def staffed : Database where
  users := [⟨2, "ada@example.org", "Ada", "Ada", "", true⟩,
    ⟨3, "emmy@example.org", "Emmy", "Emmy", "", true⟩]
  tenants := [⟨1, "grace", "Grace", .active, 0⟩]
  memberships := [⟨1, 2, .instructor, []⟩, ⟨1, 3, .student, []⟩]
  courses := [⟨4, 1, "Hebrew", "hebrew", none⟩, ⟨5, 1, "Greek", "greek", none⟩]
  courseInstructors := [⟨1, 5, 2⟩, ⟨1, 4, 3⟩]

theorem staffed_consistent : staffed.Consistent := by
  constructor <;> decide

theorem staffed_assignedOnce : staffed.AssignedOnce := by
  rw [Database.AssignedOnce]
  decide

theorem teachPage_lists_staffed :
    (5 ∈ [(5 : Uuid)] ↔
      MayEdit staffed ⟨⟨1, "grace", "Grace"⟩, "grace"⟩ (some ⟨2, "ada@example.org"⟩) 0 5) ∧
    ¬ MayEdit staffed ⟨⟨1, "grace", "Grace"⟩, "grace"⟩ (some ⟨3, "emmy@example.org"⟩) 0 4 :=
  ⟨((teachPage_lists ⟨(· ≤ ·), (· ≤ ·)⟩ staffed_consistent staffed_assignedOnce
      ⟨⟨1, "grace", "Grace"⟩, "grace"⟩ (some ⟨2, "ada@example.org"⟩) 0).1
        [⟨5, "Greek", []⟩] rfl).1 5,
    (teachPage_lists ⟨(· ≤ ·), (· ≤ ·)⟩ staffed_consistent staffed_assignedOnce
      ⟨⟨1, "grace", "Grace"⟩, "grace"⟩ (some ⟨3, "emmy@example.org"⟩) 0).2.2 rfl 4⟩

end LampLight
