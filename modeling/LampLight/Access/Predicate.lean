import LampLight.Repositories.Content

/-!
# The access predicate

One function decides every read of gated content. It tries five branches in a fixed order, and a
refusal carries no detail.

## The specification

`AccessGrant.Applies` says, branch by branch and in terms of rows alone, when a branch would let the
viewer in. `decideLessonAccess_iff` connects the two: the predicate allows exactly when some branch
applies to a lesson that exists in the viewer's tenant, and it names the first that does.
-/

namespace LampLight

/-- Who asks to see a lesson, and in which institute. -/
structure AccessContext where
  tenantId : Uuid
  /-- Absent for a visitor who is not signed in. -/
  userId : Option Uuid
deriving DecidableEq

/-- Which branch granted access. -/
inductive AccessGrant | freePreview | tenantAdmin | courseInstructor | entitlement
deriving DecidableEq

/-- Whether a lesson is open to somebody, why, and in which course. -/
inductive AccessDecision where
  | granted (reason : AccessGrant) (courseId : Uuid)
  | denied
deriving DecidableEq

/-- `decision.allowed`. -/
def AccessDecision.allowed : AccessDecision → Bool
  | .granted _ _ => true
  | .denied => false

/-- Whether this viewer may read this lesson. The preview branch comes before the session check. -/
def decideLessonAccess (scope : TenantScope) (db : Database) (ctx : AccessContext)
    (lessonId : Uuid) : AccessDecision :=
  match findLessonWithCourse scope db lessonId with
  | none => .denied
  | some lesson =>
    if lesson.isFreePreview then .granted .freePreview lesson.courseId
    else
      match ctx.userId with
      | none => .denied
      | some userId =>
        match findMembership scope db userId with
        | none => .denied
        | some membership =>
          if membership.role = .admin then .granted .tenantAdmin lesson.courseId
          else if membership.role = .instructor ∧
              isInstructorOf scope db userId lesson.courseId = true then
            .granted .courseInstructor lesson.courseId
          else if hasActiveEntitlement scope db userId lesson.courseId then
            .granted .entitlement lesson.courseId
          else .denied

/-- The predicate, for callers that want only the answer. -/
def canAccessLesson (now : Instant) (db : Database) (ctx : AccessContext) (lessonId : Uuid) :
    Bool :=
  (decideLessonAccess ⟨ctx.tenantId, now⟩ db ctx lessonId).allowed

variable {db : Database} {ctx : AccessContext} {now : Instant} {lessonId : Uuid}

theorem decideLessonAccess_viewOf {scope : TenantScope} :
    decideLessonAccess scope (db.viewOf scope.tenantId) ctx lessonId
      = decideLessonAccess scope db ctx lessonId := by
  simp only [decideLessonAccess, findLessonWithCourse_viewOf, findMembership_viewOf,
    isInstructorOf_viewOf, hasActiveEntitlement_viewOf]

/-! ### When a branch applies -/

/-- The viewer is signed in and a member of the tenant, in the given role. -/
def Member (db : Database) (ctx : AccessContext) (userId : Uuid) (role : MembershipRole) : Prop :=
  ctx.userId = some userId ∧ ∃ row ∈ db.memberships,
    row.tenantId = ctx.tenantId ∧ row.userId = userId ∧ row.role = role

namespace AccessGrant

/-- The position of a branch. -/
def order : AccessGrant → ℕ
  | freePreview => 0
  | tenantAdmin => 1
  | courseInstructor => 2
  | entitlement => 3

/-- What each branch asks of the lesson, its course and the viewer. -/
def Applies (db : Database) (ctx : AccessContext) (now : Instant) (lesson : LessonRow)
    (course : CourseRow) : AccessGrant → Prop
  | freePreview => lesson.isFreePreview = true
  | tenantAdmin => ∃ u, Member db ctx u .admin
  | courseInstructor => ∃ u, Member db ctx u .instructor ∧ ∃ i ∈ db.courseInstructors,
      i.tenantId = ctx.tenantId ∧ i.userId = u ∧ i.courseId = course.id
  | entitlement => ∃ u role, Member db ctx u role ∧ ∃ e ∈ db.enrollments,
      e.tenantId = ctx.tenantId ∧ e.userId = u ∧ e.Active now ∧
        e.Covers db ctx.tenantId course.id

/-- The branch applies and none before it does. -/
def First (db : Database) (ctx : AccessContext) (now : Instant) (lesson : LessonRow)
    (course : CourseRow) (g : AccessGrant) : Prop :=
  g.Applies db ctx now lesson course ∧
    ∀ g' : AccessGrant, g'.order < g.order → ¬ g'.Applies db ctx now lesson course

variable {lesson : LessonRow} {course : CourseRow}

/-- If any branch applies, some branch is the first to. -/
theorem exists_first {g : AccessGrant} (h : g.Applies db ctx now lesson course) :
    ∃ g' : AccessGrant, g'.First db ctx now lesson course := by
  obtain ⟨n, hn⟩ : ∃ n, g.order = n := ⟨_, rfl⟩
  induction n using Nat.strong_induction_on generalizing g with
  | _ n ih =>
    by_cases hfirst : g.First db ctx now lesson course
    · exact ⟨g, hfirst⟩
    · obtain ⟨g', hlt, hg'⟩ : ∃ g' : AccessGrant, g'.order < g.order ∧
          g'.Applies db ctx now lesson course := by
        by_contra hnone
        push Not at hnone
        exact hfirst ⟨h, hnone⟩
      exact ih g'.order (hn ▸ hlt) hg' rfl

end AccessGrant

/-! ### The predicate meets its specification -/

theorem Member.found (hdb : db.Consistent) {u : Uuid} {role : MembershipRole}
    (h : Member db ctx u role) (now : Instant) :
    findMembership ⟨ctx.tenantId, now⟩ db u = some ⟨u, role⟩ := by
  obtain ⟨-, row, hrow, ht, hu, rfl⟩ := h
  exact (findMembership_eq_some hdb).mpr ⟨row, hrow, ht, hu, rfl⟩

theorem Member.of_found (hdb : db.Consistent) {u : Uuid} (hu : ctx.userId = some u)
    {m : MembershipRecord} (h : findMembership ⟨ctx.tenantId, now⟩ db u = some m) :
    Member db ctx u m.role := by
  obtain ⟨row, hrow, ht, hru, rfl⟩ := (findMembership_eq_some hdb).mp h
  exact ⟨hu, row, hrow, ht, hru, rfl⟩

/-- A lesson that is there is decided by its first branch. -/
theorem decideLessonAccess_granted (hdb : db.Consistent) {l : LessonRow} {m : ModuleRow}
    {c : CourseRow} (hin : LessonIn db ctx.tenantId lessonId l m c) {g : AccessGrant}
    (hg : g.First db ctx now l c) :
    decideLessonAccess ⟨ctx.tenantId, now⟩ db ctx lessonId = .granted g c.id := by
  have hfound : findLessonWithCourse ⟨ctx.tenantId, now⟩ db lessonId = some (.of l m c) :=
    (findLessonWithCourse_eq_some hdb).mpr ⟨l, m, c, hin, rfl⟩
  have hcourse : m.courseId = c.id := hin.course_id.symm
  simp only [decideLessonAccess, hfound, LessonWithCourse.of, hcourse]
  obtain ⟨happ, hbefore⟩ := hg
  cases hpreview : l.isFreePreview with
  | true =>
    cases g with
    | freePreview => rfl
    | tenantAdmin => exact absurd hpreview (hbefore .freePreview (by decide))
    | courseInstructor => exact absurd hpreview (hbefore .freePreview (by decide))
    | entitlement => exact absurd hpreview (hbefore .freePreview (by decide))
  | false =>
    rw [if_neg (by simp)]
    cases g with
    | freePreview => exact absurd happ (by simp [AccessGrant.Applies, hpreview])
    | tenantAdmin =>
      obtain ⟨u, hmember⟩ := happ
      have hm := hmember.found hdb now
      simp [hmember.1, hm]
    | courseInstructor =>
      obtain ⟨u, hmember, hteaches⟩ := happ
      have hm := hmember.found hdb now
      have hi : isInstructorOf ⟨ctx.tenantId, now⟩ db u c.id = true :=
        isInstructorOf_iff.mpr hteaches
      simp [hmember.1, hm, hi]
    | entitlement =>
      obtain ⟨u, role, hmember, hcovered⟩ := happ
      have hm := hmember.found hdb now
      have he : hasActiveEntitlement ⟨ctx.tenantId, now⟩ db u c.id = true :=
        hasActiveEntitlement_iff.mpr hcovered
      have hadmin : role ≠ .admin := by
        rintro rfl
        exact hbefore .tenantAdmin (by decide) ⟨u, hmember⟩
      have hinstructor : ¬ (role = .instructor ∧
          isInstructorOf ⟨ctx.tenantId, now⟩ db u c.id = true) := by
        rintro ⟨rfl, hi⟩
        exact hbefore .courseInstructor (by decide) ⟨u, hmember, isInstructorOf_iff.mp hi⟩
      simp only [hmember.1, hm, hadmin, hinstructor, he, if_true, if_false]

/-- Where the predicate grants, the branch it names applies. -/
theorem applies_of_decideLessonAccess (hdb : db.Consistent) {g : AccessGrant} {courseId : Uuid}
    (h : decideLessonAccess ⟨ctx.tenantId, now⟩ db ctx lessonId = .granted g courseId) :
    ∃ l m c, LessonIn db ctx.tenantId lessonId l m c ∧ g.Applies db ctx now l c := by
  rw [decideLessonAccess] at h
  cases hfound : findLessonWithCourse ⟨ctx.tenantId, now⟩ db lessonId with
  | none => simp [hfound] at h
  | some lesson =>
    obtain ⟨l, m, c, hin, rfl⟩ := (findLessonWithCourse_eq_some hdb).mp hfound
    have hcourse : m.courseId = c.id := hin.course_id.symm
    refine ⟨l, m, c, hin, ?_⟩
    simp only [hfound, LessonWithCourse.of, hcourse] at h
    split_ifs at h with hpreview
    · obtain ⟨rfl, -⟩ := AccessDecision.granted.inj h
      exact hpreview
    cases hu : ctx.userId with
    | none => simp [hu] at h
    | some u =>
      simp only [hu] at h
      cases hm : findMembership ⟨ctx.tenantId, now⟩ db u with
      | none => simp [hm] at h
      | some membership =>
        have hmember := Member.of_found hdb hu hm
        simp only [hm] at h
        split_ifs at h with hadmin hinstructor hentitled
        · obtain ⟨rfl, -⟩ := AccessDecision.granted.inj h
          exact ⟨u, hadmin ▸ hmember⟩
        · obtain ⟨rfl, -⟩ := AccessDecision.granted.inj h
          exact ⟨u, hinstructor.1 ▸ hmember, isInstructorOf_iff.mp hinstructor.2⟩
        · obtain ⟨rfl, -⟩ := AccessDecision.granted.inj h
          exact ⟨u, membership.role, hmember, hasActiveEntitlement_iff.mp hentitled⟩

/-- **The predicate is its specification.** It allows exactly when a branch applies to a lesson that
exists in the tenant together with its module and course; it then names the first such branch and
the lesson's own course; and there is only one way to refuse. -/
theorem decideLessonAccess_iff (hdb : db.Consistent) (ctx : AccessContext) (now : Instant)
    (lessonId : Uuid) :
    ((decideLessonAccess ⟨ctx.tenantId, now⟩ db ctx lessonId).allowed = true ↔
      ∃ l m c, LessonIn db ctx.tenantId lessonId l m c ∧
        ∃ g : AccessGrant, g.Applies db ctx now l c) ∧
    (∀ g courseId, decideLessonAccess ⟨ctx.tenantId, now⟩ db ctx lessonId = .granted g courseId ↔
      ∃ l m c, LessonIn db ctx.tenantId lessonId l m c ∧ courseId = c.id ∧
        g.First db ctx now l c) ∧
    ((decideLessonAccess ⟨ctx.tenantId, now⟩ db ctx lessonId).allowed = false →
      decideLessonAccess ⟨ctx.tenantId, now⟩ db ctx lessonId = .denied) := by
  refine ⟨⟨fun h => ?_, ?_⟩, fun g courseId => ⟨fun h => ?_, ?_⟩, fun h => ?_⟩
  · cases hd : decideLessonAccess ⟨ctx.tenantId, now⟩ db ctx lessonId with
    | denied => simp [hd, AccessDecision.allowed] at h
    | granted g courseId =>
      obtain ⟨l, m, c, hin, hg⟩ := applies_of_decideLessonAccess hdb hd
      exact ⟨l, m, c, hin, g, hg⟩
  · rintro ⟨l, m, c, hin, g, hg⟩
    obtain ⟨g', hfirst⟩ := AccessGrant.exists_first hg
    rw [decideLessonAccess_granted hdb hin hfirst]
    rfl
  · obtain ⟨l, m, c, hin, hg⟩ := applies_of_decideLessonAccess hdb h
    obtain ⟨g', hfirst⟩ := AccessGrant.exists_first hg
    rw [decideLessonAccess_granted hdb hin hfirst] at h
    obtain ⟨rfl, rfl⟩ := AccessDecision.granted.inj h
    exact ⟨l, m, c, hin, rfl, hfirst⟩
  · rintro ⟨l, m, c, hin, rfl, hfirst⟩
    exact decideLessonAccess_granted hdb hin hfirst
  · cases hd : decideLessonAccess ⟨ctx.tenantId, now⟩ db ctx lessonId with
    | denied => rfl
    | granted g courseId => simp [hd, AccessDecision.allowed] at h

/-- One institute: a student enrolled in a program that contains the only course. -/
def institute : Database where
  users := [⟨2, "student@example.org", "Student", "", "", true⟩]
  tenants := [⟨1, "institute", "Institute", .active, 0⟩]
  memberships := [⟨1, 2, .student, []⟩]
  programs := [⟨6, 1, "Program"⟩]
  courses := [⟨3, 1, "Course", "course", none⟩]
  programCourses := [⟨1, 6, 3⟩]
  modules := [⟨4, 1, 3, "Module", 0⟩]
  lessons := [⟨5, 1, 4, "Lesson", "lesson", none, none, false, 0⟩]
  enrollments := [⟨7, 1, 2, .program, 6, some 100, none⟩]

theorem institute_consistent : institute.Consistent := by
  constructor <;> decide

theorem decideLessonAccess_iff_institute : ∃ l m c, LessonIn institute 1 5 l m c ∧ 3 = c.id ∧
    AccessGrant.entitlement.First institute ⟨1, some 2⟩ 99 l c :=
  ((decideLessonAccess_iff institute_consistent ⟨1, some 2⟩ 99 5).2.1 .entitlement 3).mp
    (by decide)

end LampLight
