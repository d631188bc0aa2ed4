import LampLight.Repositories.Content

/-!
# Who may change content

A predicate of its own, next to the one for reading: a free preview or an entitlement never gives
the right to write. A module or a lesson is resolved to the course it belongs to, and the course
decides.
-/

namespace LampLight

open Table (innerJoin owned)

/-- Who asks to edit, and in which institute. -/
structure AuthorContext where
  tenantId : Uuid
  userId : Uuid
deriving DecidableEq

/-- Why somebody may edit a course. -/
inductive AuthorGrant | tenantAdmin | courseInstructor
deriving DecidableEq

/-- Whether somebody may edit, and why. -/
inductive AuthorDecision where
  | granted (reason : AuthorGrant)
  | denied
deriving DecidableEq

/-- `decision.allowed`. -/
def AuthorDecision.allowed : AuthorDecision → Bool
  | .granted _ => true
  | .denied => false

/-- May this person change this course, or anything hanging off it? -/
def decideCourseAuthoring (scope : TenantScope) (db : Database) (ctx : AuthorContext)
    (courseId : Uuid) : AuthorDecision :=
  if db.courses.any fun c => c.tenantId = scope.tenantId && c.id = courseId then
    match findMembership scope db ctx.userId with
    | none => .denied
    | some membership =>
      if membership.role = .admin then .granted .tenantAdmin
      else if membership.role = .instructor ∧
          isInstructorOf scope db ctx.userId courseId = true then
        .granted .courseInstructor
      else .denied
  else .denied

/-- The same question asked about a module, resolved to its course first. -/
def decideModuleAuthoring (scope : TenantScope) (db : Database) (ctx : AuthorContext)
    (moduleId : Uuid) : AuthorDecision :=
  match db.modules.find? fun m => m.tenantId = scope.tenantId && m.id = moduleId with
  | none => .denied
  | some m => decideCourseAuthoring scope db ctx m.courseId

/-- And about a lesson, resolved through its module to its course. The join compares the two
tenants; the filter on the lesson is what fixes them. -/
def decideLessonAuthoring (scope : TenantScope) (db : Database) (ctx : AuthorContext)
    (lessonId : Uuid) : AuthorDecision :=
  match ((innerJoin (fun l m => m.tenantId = l.tenantId && m.id = l.moduleId)
      db.lessons db.modules).filter fun x =>
        x.1.tenantId = scope.tenantId && x.1.id = lessonId).head? with
  | none => .denied
  | some x => decideCourseAuthoring scope db ctx x.2.courseId

variable {scope : TenantScope} {db : Database} {ctx : AuthorContext} {lessonId : Uuid}

/-- Whoever may change a lesson finds it in their tenant. -/
theorem lesson_mem_of_decideLessonAuthoring
    (h : (decideLessonAuthoring scope db ctx lessonId).allowed = true) :
    ∃ l ∈ db.lessons, l.tenantId = scope.tenantId ∧ l.id = lessonId := by
  rw [decideLessonAuthoring] at h
  split at h
  · simp [AuthorDecision.allowed] at h
  · next x hx =>
    obtain ⟨hjoin, hp⟩ := List.mem_filter.mp (List.mem_of_head? hx)
    simp only [Bool.and_eq_true, decide_eq_true_eq] at hp
    exact ⟨x.1, (Table.mem_innerJoin.mp hjoin).1, hp⟩

/-- A change of lessons that leaves them where they are changes nobody's rights. -/
theorem decideLessonAuthoring_of_lessons {db' : Database} {f : LessonRow → LessonRow}
    (hf : ∀ l, (f l).tenantId = l.tenantId ∧ (f l).id = l.id ∧ (f l).moduleId = l.moduleId)
    (hlessons : db'.lessons = db.lessons.map f) (hmodules : db'.modules = db.modules)
    (hcourse : ∀ courseId, decideCourseAuthoring scope db' ctx courseId
      = decideCourseAuthoring scope db ctx courseId) :
    decideLessonAuthoring scope db' ctx lessonId = decideLessonAuthoring scope db ctx lessonId := by
  let on (l : LessonRow) (m : ModuleRow) : Bool := m.tenantId = l.tenantId && m.id = l.moduleId
  let wanted (l : LessonRow) : Bool := l.tenantId = scope.tenantId && l.id = lessonId
  have hon : ∀ l, on (f l) = on l := by
    intro l
    funext m
    simp only [on, (hf l).1, (hf l).2.2]
  have hwanted : ∀ l, wanted (f l) = wanted l := by
    intro l
    simp only [wanted, (hf l).1, (hf l).2.1]
  have hjoin : ((innerJoin on db'.lessons db'.modules).filter fun x => wanted x.1).head?
      = (((innerJoin on db.lessons db.modules).filter fun x => wanted x.1).head?).map
          fun x => (f x.1, x.2) := by
    rw [hlessons, hmodules, Table.innerJoin_map_left hon, List.filter_map, List.head?_map]
    simp only [Function.comp_def, hwanted]
  show (match ((innerJoin on db'.lessons db'.modules).filter fun x => wanted x.1).head? with
    | none => AuthorDecision.denied
    | some x => decideCourseAuthoring scope db' ctx x.2.courseId)
    = match ((innerJoin on db.lessons db.modules).filter fun x => wanted x.1).head? with
    | none => AuthorDecision.denied
    | some x => decideCourseAuthoring scope db ctx x.2.courseId
  rw [hjoin]
  cases ((innerJoin on db.lessons db.modules).filter fun x => wanted x.1).head? with
  | none => rfl
  | some x => exact hcourse _

/-! ### They read the tenant's own rows -/

theorem decideCourseAuthoring_viewOf (courseId : Uuid) :
    decideCourseAuthoring scope (db.viewOf scope.tenantId) ctx courseId
      = decideCourseAuthoring scope db ctx courseId := by
  have hcourse : (owned CourseRow.tenantId scope.tenantId db.courses).any
      (fun c => c.tenantId = scope.tenantId && c.id = courseId)
        = db.courses.any fun c => c.tenantId = scope.tenantId && c.id = courseId :=
    Table.any_owned (by simp +contextual) _
  simp only [decideCourseAuthoring, findMembership_viewOf, isInstructorOf_viewOf,
    Database.viewOf_courses, hcourse]

theorem decideModuleAuthoring_viewOf (moduleId : Uuid) :
    decideModuleAuthoring scope (db.viewOf scope.tenantId) ctx moduleId
      = decideModuleAuthoring scope db ctx moduleId := by
  have hmodule : (owned ModuleRow.tenantId scope.tenantId db.modules).find?
      (fun m => m.tenantId = scope.tenantId && m.id = moduleId)
        = db.modules.find? fun m => m.tenantId = scope.tenantId && m.id = moduleId :=
    Table.find?_owned (by simp +contextual) _
  simp only [decideModuleAuthoring, decideCourseAuthoring_viewOf, Database.viewOf_modules, hmodule]

theorem decideLessonAuthoring_viewOf :
    decideLessonAuthoring scope (db.viewOf scope.tenantId) ctx lessonId
      = decideLessonAuthoring scope db ctx lessonId := by
  have hlesson : (innerJoin (fun (l : LessonRow) m => m.tenantId = l.tenantId && m.id = l.moduleId)
        (owned LessonRow.tenantId scope.tenantId db.lessons)
        (owned ModuleRow.tenantId scope.tenantId db.modules)).filter
          (fun x => x.1.tenantId = scope.tenantId && x.1.id = lessonId)
      = (innerJoin (fun l m => m.tenantId = l.tenantId && m.id = l.moduleId)
        db.lessons db.modules).filter
          fun x => x.1.tenantId = scope.tenantId && x.1.id = lessonId :=
    Table.filter_innerJoin_owned
      (q := fun l : LessonRow => l.tenantId = scope.tenantId && l.id = lessonId)
      (Table.filter_owned (by simp +contextual) _) (by simp +contextual) _
  simp only [decideLessonAuthoring, decideCourseAuthoring_viewOf, Database.viewOf_lessons,
    Database.viewOf_modules, hlesson]

end LampLight
