import LampLight.Access.Predicate
import LampLight.Foundation.Best
import Mathlib.Data.Int.ConditionallyCompleteOrder
import Mathlib.Order.ConditionallyCompleteLattice.Group
import Mathlib.Order.WithBot

/-!
# The dashboard agrees with the door

The dashboard merges two lists of rows in memory, and the door asks the database whether there is an
enrollment. Both are about the same enrollments: the rows of the dashboard for a course are the
enrollments that cover it, joined to the course, and of these the one that lasts longest is kept. So
the entry for a course is still good exactly when some enrollment is.

## Main definitions

* `expiry` — when an enrollment ends, where no date means never
* `Grants` — the enrollments of a user that cover a course

## Main results

* `bestOf_listEnrolledCourses` — the dashboard is the best of its rows
* `exists_row_iff` — its rows for a course are the enrollments that cover the course
* `listEnrolledCourses_agrees` — what the dashboard says of a course is what the door decides
-/

namespace LampLight

open Table (BestOf)

variable {scope : TenantScope} {collate : Collation} {db : Database} {userId : Uuid}

/-! ### Expiries -/

/-- No date is later than every date. -/
def expiry : Option Instant → WithTop Instant
  | none => ⊤
  | some at_ => at_

/-- An entry beats another when it lasts longer. -/
theorem outranks_iff (candidate incumbent : EnrolledCourse) :
    outranks candidate incumbent = true ↔
      expiry incumbent.expiresAt < expiry candidate.expiresAt := by
  rw [outranks]
  cases incumbent.expiresAt with
  | none => simp [expiry]
  | some i =>
    cases candidate.expiresAt with
    | none => simp [expiry]
    | some c => simp [expiry]

theorem lt_expiry_iff {now : Instant} {expiresAt : Option Instant} :
    (now : WithTop Instant) < expiry expiresAt ↔ ∀ at_, expiresAt = some at_ → now < at_ := by
  cases expiresAt with
  | none => simp [expiry]
  | some at_ => simp [expiry]

/-! ### The rows of the dashboard -/

/-- The enrollment is the user's and covers the course. -/
def Grants (scope : TenantScope) (db : Database) (userId courseId : Uuid) (e : EnrollmentRow) :
    Prop :=
  e ∈ db.enrollments ∧ e.tenantId = scope.tenantId ∧ e.userId = userId ∧
    e.Covers db scope.tenantId courseId

theorem mem_directEnrollments {x : EnrolledCourse} :
    x ∈ directEnrollments scope collate db userId ↔
      ∃ e ∈ db.enrollments, ∃ c ∈ db.courses, e.tenantId = scope.tenantId ∧ e.userId = userId ∧
        e.sourceKind = .course ∧ c.tenantId = scope.tenantId ∧ c.id = e.sourceId ∧
        x = { courseId := c.id, title := c.title, slug := c.slug, via := .course,
              sourceTitle := c.title, expiresAt := e.expiresAt,
              granted := e.grantedBy.isSome } := by
  simp only [directEnrollments, List.mem_map, List.mem_insertionSort, List.mem_filter,
    Bool.and_eq_true, decide_eq_true_eq]
  constructor
  · rintro ⟨⟨e, c⟩, ⟨hjoin, ⟨htenant, huser⟩, hkind⟩, rfl⟩
    obtain ⟨he, hc, hon⟩ := Table.mem_innerJoin.mp hjoin
    simp only [Bool.and_eq_true, decide_eq_true_eq] at hon
    exact ⟨e, he, c, hc, htenant, huser, hkind, hon.1, hon.2, rfl⟩
  · rintro ⟨e, he, c, hc, htenant, huser, hkind, hown, hid, rfl⟩
    refine ⟨(e, c), ⟨Table.mem_innerJoin.mpr ⟨he, hc, ?_⟩, ⟨htenant, huser⟩, hkind⟩, rfl⟩
    simp [hown, hid]

theorem mem_programEnrollments {x : EnrolledCourse} :
    x ∈ programEnrollments scope collate db userId ↔
      ∃ e ∈ db.enrollments, ∃ g ∈ db.programs, ∃ p ∈ db.programCourses, ∃ c ∈ db.courses,
        e.tenantId = scope.tenantId ∧ e.userId = userId ∧ e.sourceKind = .program ∧
        (g.tenantId = scope.tenantId ∧ g.id = e.sourceId) ∧
        (p.tenantId = scope.tenantId ∧ p.programId = g.id) ∧
        (c.tenantId = scope.tenantId ∧ c.id = p.courseId) ∧
        x = { courseId := c.id, title := c.title, slug := c.slug, via := .program,
              sourceTitle := g.title, expiresAt := e.expiresAt,
              granted := e.grantedBy.isSome } := by
  simp only [programEnrollments, List.mem_map, List.mem_insertionSort, List.mem_filter,
    Bool.and_eq_true, decide_eq_true_eq]
  constructor
  · rintro ⟨⟨⟨⟨e, g⟩, p⟩, c⟩, ⟨hjoin, ⟨htenant, huser⟩, hkind⟩, rfl⟩
    simp only [Table.mem_innerJoin, Bool.and_eq_true, decide_eq_true_eq] at hjoin
    obtain ⟨⟨⟨he, hg, hong⟩, hp, honp⟩, hc, honc⟩ := hjoin
    exact ⟨e, he, g, hg, p, hp, c, hc, htenant, huser, hkind, hong, honp, honc, rfl⟩
  · rintro ⟨e, he, g, hg, p, hp, c, hc, htenant, huser, hkind, hong, honp, honc, rfl⟩
    refine ⟨(((e, g), p), c), ⟨?_, ⟨htenant, huser⟩, hkind⟩, rfl⟩
    simp only [Table.mem_innerJoin, Bool.and_eq_true, decide_eq_true_eq]
    exact ⟨⟨⟨he, hg, hong⟩, hp, honp⟩, hc, honc⟩

/-- What the loop runs over. -/
def enrolledRows (scope : TenantScope) (collate : Collation) (db : Database) (userId : Uuid) :
    List EnrolledCourse :=
  directEnrollments scope collate db userId ++ programEnrollments scope collate db userId

/-- **The rows for a course are the enrollments that cover it**, whatever their expiry. -/
theorem exists_row_iff (hdb : db.Consistent) {course : CourseRow} (hcourse : course ∈ db.courses)
    (htenant : course.tenantId = scope.tenantId) {expiresAt : Option Instant} :
    (∃ x ∈ enrolledRows scope collate db userId, x.courseId = course.id ∧ x.expiresAt = expiresAt) ↔
      ∃ e, Grants scope db userId course.id e ∧ e.expiresAt = expiresAt := by
  constructor
  · rintro ⟨x, hx, hid, rfl⟩
    rcases List.mem_append.mp hx with hx | hx
    · obtain ⟨e, he, c, hc, hte, hue, hkind, -, hsource, rfl⟩ := mem_directEnrollments.mp hx
      exact ⟨e, ⟨he, hte, hue, Or.inl ⟨hkind, hsource.symm.trans hid⟩⟩, rfl⟩
    · obtain ⟨e, he, g, -, p, hp, c, -, hte, hue, hkind, ⟨-, hsource⟩, ⟨htp, hprogram⟩,
        ⟨-, hcid⟩, rfl⟩ := mem_programEnrollments.mp hx
      refine ⟨e, ⟨he, hte, hue, Or.inr ⟨hkind, p, hp, htp, ?_, ?_⟩⟩, rfl⟩
      · exact hprogram.trans hsource
      · exact hcid.symm.trans hid
  · rintro ⟨e, ⟨he, hte, hue, hcovers⟩, rfl⟩
    rcases hcovers with ⟨hkind, hsource⟩ | ⟨hkind, p, hp, htp, hprogram, hcid⟩
    · refine ⟨_, List.mem_append_left _ (mem_directEnrollments.mpr
        ⟨e, he, course, hcourse, hte, hue, hkind, htenant, hsource.symm, rfl⟩), rfl, rfl⟩
    · -- the program that contains the course is there, because a link to it is
      obtain ⟨g, hg, htg, hgid⟩ := hdb.programCourses_program_fk p hp
      refine ⟨_, List.mem_append_right _ (mem_programEnrollments.mpr
        ⟨e, he, g, hg, p, hp, course, hcourse, hte, hue, hkind, ⟨htg.trans htp, ?_⟩,
          ⟨htp, hgid.symm⟩, ⟨htenant, hcid.symm⟩, rfl⟩), rfl, rfl⟩
      exact hgid.trans hprogram

/-! ### The dashboard -/

theorem keepBest_eq_keep : keepBest = Table.keep (·.courseId) outranks := by
  funext best entry
  rw [keepBest, Table.keep]
  split
  · next hnone => rw [hnone]
  · next existing hsome => rw [hsome]

theorem bestOf_listEnrolledCourses :
    BestOf (·.courseId) (fun x => expiry x.expiresAt) (enrolledRows scope collate db userId)
      (listEnrolledCourses scope collate db userId) := by
  rw [listEnrolledCourses, keepBest_eq_keep]
  exact (Table.bestOf_foldl outranks_iff _).perm (List.perm_insertionSort _ _)

/-- The dashboard has an entry for a course when some enrollment covers it. -/
theorem exists_entry_iff (hdb : db.Consistent) {course : CourseRow} (hcourse : course ∈ db.courses)
    (htenant : course.tenantId = scope.tenantId) :
    (∃ x ∈ listEnrolledCourses scope collate db userId, x.courseId = course.id) ↔
      ∃ e, Grants scope db userId course.id e := by
  rw [bestOf_listEnrolledCourses.exists_iff]
  constructor
  · rintro ⟨x, hx, hid⟩
    obtain ⟨e, he, -⟩ := (exists_row_iff hdb hcourse htenant).mp ⟨x, hx, hid, rfl⟩
    exact ⟨e, he⟩
  · rintro ⟨e, he⟩
    obtain ⟨x, hx, hid, -⟩ := (exists_row_iff hdb hcourse htenant).mpr ⟨e, he, rfl⟩
    exact ⟨x, hx, hid⟩

/-- Its entry lasts as long as the enrollment that lasts longest. -/
theorem isGreatest_entry (hdb : db.Consistent) {course : CourseRow} (hcourse : course ∈ db.courses)
    (htenant : course.tenantId = scope.tenantId) {x : EnrolledCourse}
    (hx : x ∈ listEnrolledCourses scope collate db userId) (hid : x.courseId = course.id) :
    IsGreatest {t | ∃ e, Grants scope db userId course.id e ∧ expiry e.expiresAt = t}
      (expiry x.expiresAt) := by
  have hset : {t | ∃ a ∈ enrolledRows scope collate db userId, a.courseId = x.courseId ∧
      expiry a.expiresAt = t}
      = {t | ∃ e, Grants scope db userId course.id e ∧ expiry e.expiresAt = t} := by
    ext t
    constructor
    · rintro ⟨a, ha, haid, rfl⟩
      obtain ⟨e, he, hexpires⟩ :=
        (exists_row_iff hdb hcourse htenant).mp ⟨a, ha, haid.trans hid, rfl⟩
      exact ⟨e, he, congrArg expiry hexpires⟩
    · rintro ⟨e, he, rfl⟩
      obtain ⟨a, ha, haid, hexpires⟩ := (exists_row_iff hdb hcourse htenant).mpr ⟨e, he, rfl⟩
      exact ⟨a, ha, haid.trans hid.symm, congrArg expiry hexpires⟩
  rw [← hset]
  exact bestOf_listEnrolledCourses.isGreatest hx

/-- The door is open while the enrollment that lasts longest does. -/
theorem lt_greatest_iff {courseId : Uuid} {t : WithTop Instant}
    (hgreatest : IsGreatest
      {t | ∃ e, Grants scope db userId courseId e ∧ expiry e.expiresAt = t} t) :
    (scope.now : WithTop Instant) < t ↔ hasActiveEntitlement scope db userId courseId = true := by
  rw [hasActiveEntitlement_iff]
  constructor
  · intro hgood
    obtain ⟨e, ⟨he, hte, hue, hcovers⟩, hexpires⟩ := hgreatest.1
    refine ⟨e, he, hte, hue, lt_expiry_iff.mp ?_, hcovers⟩
    rwa [hexpires]
  · rintro ⟨e, he, hte, hue, hactive, hcovers⟩
    calc (scope.now : WithTop Instant) < expiry e.expiresAt := lt_expiry_iff.mpr hactive
      _ ≤ t := hgreatest.2 ⟨e, ⟨he, hte, hue, hcovers⟩, rfl⟩

/-- **What the dashboard says of a course is what the door decides.** -/
theorem listEnrolledCourses_agrees (collate : Collation) (hdb : db.Consistent) (scope : TenantScope)
    (userId : Uuid) {course : CourseRow} (hcourse : course ∈ db.courses)
    (htenant : course.tenantId = scope.tenantId) :
    let entries := (listEnrolledCourses scope collate db userId).filter fun x =>
      x.courseId = course.id
    entries.length ≤ 1 ∧
      (entries ≠ [] ↔ ∃ e, Grants scope db userId course.id e) ∧
      ∀ x ∈ entries,
        IsGreatest {t | ∃ e, Grants scope db userId course.id e ∧ expiry e.expiresAt = t}
          (expiry x.expiresAt) ∧
        ((∀ at_, x.expiresAt = some at_ → scope.now < at_) ↔
          hasActiveEntitlement scope db userId course.id = true) := by
  have hbest : BestOf (·.courseId) (fun x => expiry x.expiresAt)
      (enrolledRows scope collate db userId) (listEnrolledCourses scope collate db userId) :=
    bestOf_listEnrolledCourses
  refine ⟨hbest.length_le_one course.id, ?_, fun x hx => ?_⟩
  · have hexists : (∃ x ∈ listEnrolledCourses scope collate db userId, x.courseId = course.id) ↔
        ∃ e, Grants scope db userId course.id e := exists_entry_iff hdb hcourse htenant
    rw [← hexists, ne_eq, List.filter_eq_nil_iff]
    simp
  · obtain ⟨hmem, hid⟩ := List.mem_filter.mp hx
    rw [decide_eq_true_eq] at hid
    have hgreatest := isGreatest_entry hdb hcourse htenant hmem hid
    refine ⟨hgreatest, ?_⟩
    rw [← lt_expiry_iff]
    exact lt_greatest_iff hgreatest

/-- A student who bought a course for a while and was later given the program around it. -/
def enrolledTwice : Database :=
  { institute with enrollments :=
      [⟨7, 1, 2, .program, 6, some 100, none⟩, ⟨8, 1, 2, .course, 3, some 50, none⟩] }

theorem enrolledTwice_consistent : enrolledTwice.Consistent := by
  constructor <;> decide

theorem listEnrolledCourses_agrees_enrolledTwice :
    let entries := (listEnrolledCourses ⟨1, 60⟩ ⟨(· ≤ ·), (· ≤ ·)⟩ enrolledTwice 2).filter fun x =>
      x.courseId = 3
    entries.length ≤ 1 ∧ (entries ≠ [] ↔ ∃ e, Grants ⟨1, 60⟩ enrolledTwice 2 3 e) :=
  have hagrees := listEnrolledCourses_agrees ⟨(· ≤ ·), (· ≤ ·)⟩ enrolledTwice_consistent ⟨1, 60⟩ 2
    (List.mem_singleton_self _) rfl
  ⟨hagrees.1, hagrees.2.1⟩

end LampLight
