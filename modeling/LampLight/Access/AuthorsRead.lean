import LampLight.Access.Authoring
import LampLight.Access.Predicate

/-!
# Whoever may change a lesson may read it

Reading and writing are decided by two predicates that share no code. `AuthorGrant.Holds` says in
terms of memberships and course assignments alone when a right to write is there;
`decideCourseAuthoring_eq_granted` is the predicate in these terms, and `decideLessonAccess_gated`
is the predicate for reading with the one for writing inside it.

## Main results

* `decideLessonAuthoring_of_lessonIn`, `decideModuleAuthoring_of_lessonIn` — the course decides
* `authoring_inside_reading` — the two predicates compared
-/

namespace LampLight

/-- The same person, asking to read. -/
def AuthorContext.reader (ctx : AuthorContext) : AccessContext := ⟨ctx.tenantId, some ctx.userId⟩

namespace AuthorGrant

/-- The branch of the access predicate with the same name. -/
def reading : AuthorGrant → AccessGrant
  | tenantAdmin => .tenantAdmin
  | courseInstructor => .courseInstructor

/-- What each right to write asks of a person. No enrollment and no lesson is mentioned. -/
def Holds (scope : TenantScope) (db : Database) (userId courseId : Uuid) : AuthorGrant → Prop
  | tenantAdmin => ∃ row ∈ db.memberships,
      row.tenantId = scope.tenantId ∧ row.userId = userId ∧ row.role = .admin
  | courseInstructor => (∃ row ∈ db.memberships,
      row.tenantId = scope.tenantId ∧ row.userId = userId ∧ row.role = .instructor) ∧
      ∃ i ∈ db.courseInstructors,
        i.tenantId = scope.tenantId ∧ i.userId = userId ∧ i.courseId = courseId

theorem reading_ne_entitlement (g : AuthorGrant) : g.reading ≠ .entitlement := by
  cases g <;> simp [reading]

theorem reading_injective : Function.Injective reading := by
  intro g g' h
  cases g <;> cases g' <;> simp_all [reading]

end AuthorGrant

@[simp] theorem AuthorDecision.allowed_iff {d : AuthorDecision} :
    d.allowed = true ↔ ∃ g, d = .granted g := by
  cases d <;> simp [AuthorDecision.allowed]

@[simp] theorem AuthorDecision.eq_denied_iff {d : AuthorDecision} :
    d = .denied ↔ ∀ g, d ≠ .granted g := by
  cases d <;> simp

variable {scope : TenantScope} {db : Database} {ctx : AuthorContext} {lessonId courseId : Uuid}

/-! ### The course decides -/

/-- The predicate for writing, in rows. A person has one role in a tenant, so the order of the two
branches does not matter. -/
theorem decideCourseAuthoring_eq_granted (hdb : db.Consistent) {g : AuthorGrant} :
    decideCourseAuthoring scope db ctx courseId = .granted g ↔
      (∃ c ∈ db.courses, c.tenantId = scope.tenantId ∧ c.id = courseId) ∧
        g.Holds scope db ctx.userId courseId := by
  have hcourse : (db.courses.any fun c => c.tenantId = scope.tenantId && c.id = courseId) = true ↔
      ∃ c ∈ db.courses, c.tenantId = scope.tenantId ∧ c.id = courseId := by
    simp
  have hrole : ∀ role, findMembership scope db ctx.userId = some ⟨ctx.userId, role⟩ ↔
      ∃ row ∈ db.memberships,
        row.tenantId = scope.tenantId ∧ row.userId = ctx.userId ∧ row.role = role := by
    intro role
    rw [findMembership_eq_some hdb]
    simp [eq_comm]
  have huser : ∀ m, findMembership scope db ctx.userId = some m → m = ⟨ctx.userId, m.role⟩ := by
    intro m hm
    obtain ⟨row, -, -, -, rfl⟩ := (findMembership_eq_some hdb).mp hm
    rfl
  have hholds : g.Holds scope db ctx.userId courseId ↔ (match g with
      | .tenantAdmin => findMembership scope db ctx.userId = some ⟨ctx.userId, .admin⟩
      | .courseInstructor => findMembership scope db ctx.userId = some ⟨ctx.userId, .instructor⟩ ∧
          isInstructorOf scope db ctx.userId courseId = true) := by
    cases g with
    | tenantAdmin => exact (hrole .admin).symm
    | courseInstructor => exact and_congr (hrole .instructor).symm isInstructorOf_iff.symm
  rw [← hcourse, hholds, decideCourseAuthoring]
  cases (db.courses.any fun c => c.tenantId = scope.tenantId && c.id = courseId) with
  | false => simp
  | true =>
    cases hm : findMembership scope db ctx.userId with
    | none => cases g <;> simp
    | some m =>
      obtain ⟨role, rfl⟩ : ∃ role, m = ⟨ctx.userId, role⟩ := ⟨_, huser m hm⟩
      cases isInstructorOf scope db ctx.userId courseId <;> cases role <;> cases g <;> simp

/-- Every lesson has its module and its course. -/
theorem exists_lessonIn (hdb : db.Consistent) {l : LessonRow} (hl : l ∈ db.lessons)
    (ht : l.tenantId = scope.tenantId) (hid : l.id = lessonId) :
    ∃ m c, LessonIn db scope.tenantId lessonId l m c := by
  obtain ⟨m, hm, hmt, hmid⟩ := hdb.lessons_module_fk l hl
  obtain ⟨c, hc, hct, hcid⟩ := hdb.modules_course_fk m hm
  exact ⟨m, c, hl, ht, hid, hm, hmt.trans ht, hmid, hc, hct.trans (hmt.trans ht), hcid⟩

section LessonIn

variable {l : LessonRow} {m : ModuleRow} {c : CourseRow}

theorem decideModuleAuthoring_of_lessonIn (hdb : db.Consistent)
    (hin : LessonIn db scope.tenantId lessonId l m c) :
    decideModuleAuthoring scope db ctx m.id = decideCourseAuthoring scope db ctx c.id := by
  have hfound : (db.modules.find? fun x => x.tenantId = scope.tenantId && x.id = m.id)
      = some m := by
    refine Table.find?_eq_some_of_unique hin.module (by simp [hin.module_tenant]) ?_
    intro other hother hp
    simp only [Bool.and_eq_true, decide_eq_true_eq] at hp
    exact Table.eq_of_key_eq hdb.modules_pkey hother hin.module hp.2
  rw [decideModuleAuthoring, hfound, hin.course_id]

theorem decideLessonAuthoring_of_lessonIn (hdb : db.Consistent)
    (hin : LessonIn db scope.tenantId lessonId l m c) :
    decideLessonAuthoring scope db ctx lessonId = decideCourseAuthoring scope db ctx c.id := by
  have hmem : (l, m) ∈ (Table.innerJoin
      (fun (l : LessonRow) (m : ModuleRow) => m.tenantId = l.tenantId && m.id = l.moduleId)
      db.lessons db.modules).filter
        fun x => x.1.tenantId = scope.tenantId && x.1.id = lessonId := by
    simp [Table.mem_innerJoin, hin.lesson, hin.module, hin.module_tenant, hin.lesson_tenant,
      hin.module_id, hin.lesson_id]
  rw [decideLessonAuthoring]
  split
  · next hnone =>
    rw [List.head?_eq_none_iff.mp hnone] at hmem
    exact absurd hmem List.not_mem_nil
  · next x hx =>
    -- the keys leave one pair for the query to find
    obtain ⟨hjoin, hp⟩ := List.mem_filter.mp (List.mem_of_head? hx)
    obtain ⟨hl, hm, hon⟩ := Table.mem_innerJoin.mp hjoin
    simp only [Bool.and_eq_true, decide_eq_true_eq] at hp hon
    have hlesson : x.1 = l :=
      Table.eq_of_key_eq hdb.lessons_pkey hl hin.lesson (hp.2.trans hin.lesson_id.symm)
    have hmodule : x.2 = m :=
      Table.eq_of_key_eq hdb.modules_pkey hm hin.module
        (hon.2.trans (by rw [hlesson, hin.module_id]))
    rw [hmodule, hin.course_id]

/-- A gated lesson is read by those who may write it, and then by the entitled. -/
theorem decideLessonAccess_gated (hdb : db.Consistent)
    (hin : LessonIn db scope.tenantId lessonId l m c) (hgated : l.isFreePreview = false) :
    decideLessonAccess scope db ctx.reader lessonId =
      match decideCourseAuthoring scope db ctx c.id with
      | .granted g => .granted g.reading c.id
      | .denied =>
        if (findMembership scope db ctx.userId).isSome ∧
            hasActiveEntitlement scope db ctx.userId c.id = true then
          .granted .entitlement c.id
        else .denied := by
  have hfound : findLessonWithCourse scope db lessonId = some (.of l m c) :=
    (findLessonWithCourse_eq_some hdb).mpr ⟨l, m, c, hin, rfl⟩
  have hcourse : (db.courses.any fun x => x.tenantId = scope.tenantId && x.id = c.id) = true := by
    simp only [List.any_eq_true, Bool.and_eq_true, decide_eq_true_eq]
    exact ⟨c, hin.course, hin.course_tenant, rfl⟩
  have hid : m.courseId = c.id := hin.course_id.symm
  simp only [decideLessonAccess, decideCourseAuthoring, hfound, hcourse, LessonWithCourse.of, hid,
    hgated, AuthorContext.reader, if_true, Bool.false_eq_true, if_false]
  cases findMembership scope db ctx.userId with
  | none => simp
  | some membership =>
    by_cases hadmin : membership.role = .admin
    · simp [hadmin, AuthorGrant.reading]
    · by_cases hteaches : membership.role = .instructor ∧
          isInstructorOf scope db ctx.userId c.id = true
      · simp [hteaches, AuthorGrant.reading]
      · simp [hadmin, hteaches]

/-- A free preview is read by everybody, whatever else they may do. -/
theorem decideLessonAccess_preview (hdb : db.Consistent)
    (hin : LessonIn db scope.tenantId lessonId l m c) (hpreview : l.isFreePreview = true)
    (reader : AccessContext) :
    decideLessonAccess scope db reader lessonId = .granted .freePreview c.id := by
  have hfound : findLessonWithCourse scope db lessonId = some (.of l m c) :=
    (findLessonWithCourse_eq_some hdb).mpr ⟨l, m, c, hin, rfl⟩
  simp [decideLessonAccess, hfound, LessonWithCourse.of, hpreview, hin.course_id]

end LessonIn

/-- A lesson that is not the tenant's is neither read nor changed. -/
theorem decide_of_no_lesson (hdb : db.Consistent) (hnone : ∀ l ∈ db.lessons,
    l.tenantId = scope.tenantId → l.id ≠ lessonId) (reader : AccessContext) :
    decideLessonAuthoring scope db ctx lessonId = .denied ∧
      decideLessonAccess scope db reader lessonId = .denied := by
  constructor
  · rw [AuthorDecision.eq_denied_iff]
    intro g hg
    obtain ⟨l, hl, ht, hid⟩ :=
      lesson_mem_of_decideLessonAuthoring (AuthorDecision.allowed_iff.mpr ⟨g, hg⟩)
    exact hnone l hl ht hid
  · have hfound : findLessonWithCourse scope db lessonId = none := by
      rw [Option.eq_none_iff_forall_ne_some]
      intro found h
      obtain ⟨l, m, c, hin, -⟩ := (findLessonWithCourse_eq_some hdb).mp h
      exact hnone l hin.lesson hin.lesson_tenant hin.lesson_id
    rw [decideLessonAccess, hfound]

/-! ### The two predicates compared -/

/-- For a lesson that is not a preview, the rights to write are two of the branches for reading. -/
theorem decideLessonAuthoring_iff_of_gated (hdb : db.Consistent) (hgated : ∀ l ∈ db.lessons,
    l.tenantId = scope.tenantId → l.id = lessonId → l.isFreePreview = false) (g : AuthorGrant) :
    decideLessonAuthoring scope db ctx lessonId = .granted g ↔
      ∃ courseId, decideLessonAccess scope db ctx.reader lessonId
        = .granted g.reading courseId := by
  by_cases hlesson : ∃ l ∈ db.lessons, l.tenantId = scope.tenantId ∧ l.id = lessonId
  · obtain ⟨l, hl, ht, hid⟩ := hlesson
    obtain ⟨m, c, hin⟩ := exists_lessonIn hdb hl ht hid
    rw [decideLessonAuthoring_of_lessonIn hdb hin,
      decideLessonAccess_gated hdb hin (hgated l hl ht hid)]
    cases decideCourseAuthoring scope db ctx c.id with
    | granted g' =>
      simp only [AuthorDecision.granted.injEq, AccessDecision.granted.injEq, exists_and_left,
        exists_eq', and_true, AuthorGrant.reading_injective.eq_iff]
    | denied =>
      have hne : AccessGrant.entitlement ≠ g.reading := g.reading_ne_entitlement.symm
      split_ifs <;> simp [hne]
  · push Not at hlesson
    obtain ⟨hwrite, hread⟩ :=
      @decide_of_no_lesson scope db ctx lessonId hdb hlesson ctx.reader
    simp [hwrite, hread]

/-- **Authoring is inside reading.** Whoever may change a lesson may read it. For a lesson that is
not a free preview, those who may change it are those whom the predicate for reading lets in as an
administrator or as an instructor of the course, for that same reason. On a lesson of the tenant,
its module and its course the three decisions agree; they grant what memberships and assignments
say, so being let in by an entitlement excludes the right, and a preview gives it to nobody who
does not have it. -/
theorem authoring_inside_reading (hdb : db.Consistent) (scope : TenantScope) (ctx : AuthorContext)
    (lessonId : Uuid) :
    ((decideLessonAuthoring scope db ctx lessonId).allowed = true →
      (decideLessonAccess scope db ctx.reader lessonId).allowed = true) ∧
    ((∀ l ∈ db.lessons, l.tenantId = scope.tenantId → l.id = lessonId → l.isFreePreview = false) →
      ∀ g, decideLessonAuthoring scope db ctx lessonId = .granted g ↔
        ∃ courseId, decideLessonAccess scope db ctx.reader lessonId
          = .granted g.reading courseId) ∧
    (∀ l ∈ db.lessons, l.tenantId = scope.tenantId → l.id = lessonId →
      ∃ m c, LessonIn db scope.tenantId lessonId l m c ∧
        decideLessonAuthoring scope db ctx lessonId = decideCourseAuthoring scope db ctx c.id ∧
        decideModuleAuthoring scope db ctx m.id = decideCourseAuthoring scope db ctx c.id ∧
        (∀ g, decideCourseAuthoring scope db ctx c.id = .granted g ↔
          g.Holds scope db ctx.userId c.id) ∧
        ((∃ courseId, decideLessonAccess scope db ctx.reader lessonId
            = .granted .entitlement courseId) →
          decideCourseAuthoring scope db ctx c.id = .denied)) := by
  refine ⟨fun h => ?_, decideLessonAuthoring_iff_of_gated hdb, fun l hl ht hid => ?_⟩
  · obtain ⟨l, hl, ht, hid⟩ := lesson_mem_of_decideLessonAuthoring h
    obtain ⟨m, c, hin⟩ := exists_lessonIn hdb hl ht hid
    rw [decideLessonAuthoring_of_lessonIn hdb hin] at h
    obtain ⟨g, hg⟩ := AuthorDecision.allowed_iff.mp h
    cases hpreview : l.isFreePreview with
    | true =>
      rw [decideLessonAccess_preview hdb hin hpreview]
      rfl
    | false =>
      rw [decideLessonAccess_gated hdb hin hpreview, hg]
      rfl
  · obtain ⟨m, c, hin⟩ := exists_lessonIn hdb hl ht hid
    refine ⟨m, c, hin, decideLessonAuthoring_of_lessonIn hdb hin,
      decideModuleAuthoring_of_lessonIn hdb hin, fun g => ?_, fun ⟨courseId, hread⟩ => ?_⟩
    · rw [decideCourseAuthoring_eq_granted hdb]
      exact and_iff_right ⟨c, hin.course, hin.course_tenant, rfl⟩
    · cases hpreview : l.isFreePreview with
      | true => simp [decideLessonAccess_preview hdb hin hpreview] at hread
      | false =>
        rw [decideLessonAccess_gated hdb hin hpreview] at hread
        cases hcourse : decideCourseAuthoring scope db ctx c.id with
        | denied => rfl
        | granted g =>
          simp only [hcourse, AccessDecision.granted.injEq] at hread
          exact absurd hread.1 g.reading_ne_entitlement

/-- The enrolled student of `institute` reads the lesson and changes nothing. -/
theorem authoring_inside_reading_institute :
    decideLessonAuthoring ⟨1, 99⟩ institute ⟨1, 2⟩ 5 = .denied := by
  obtain ⟨m, c, -, hlesson, -, -, hentitled⟩ :=
    (authoring_inside_reading institute_consistent ⟨1, 99⟩ ⟨1, 2⟩ 5).2.2
      ⟨5, 1, 4, "Lesson", "lesson", none, none, false, 0⟩ (by decide) rfl rfl
  rw [hlesson]
  exact hentitled ⟨3, by decide⟩

end LampLight
