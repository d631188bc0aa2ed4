import LampLight.Schema

/-!
# Entitlement reads

The reads behind the access predicate and the enrollment screens. Each runs in a tenant scope and
carries its own tenant filter on every table it touches.

Beside each read stands the fact that its answer is a function of the tenant's own rows: reading
`db.viewOf scope.tenantId` in place of `db` gives the same result.

## Main definitions

* `findMembership`, `isInstructorOf`, `hasActiveEntitlement` — what the access predicate asks
* `listEnrolledCourses`, `listGrantableSources` — what the screens list
-/

namespace LampLight

open Table (innerJoin owned)

/-- An open transaction of one tenant: whose it is, and the instant `now()` stands for in it. -/
structure TenantScope where
  tenantId : Uuid
  now : Instant
deriving DecidableEq

/-- How texts are compared when rows are sorted, by the database and by `localeCompare`. -/
structure Collation where
  database : String → String → Bool
  locale : String → String → Bool

/-! ### The three reads of the access predicate -/

/-- A member and their role. -/
structure MembershipRecord where
  userId : Uuid
  role : MembershipRole
deriving DecidableEq

/-- Somebody's membership of an institute. -/
def findMembership (scope : TenantScope) (db : Database) (userId : Uuid) :
    Option MembershipRecord :=
  (db.memberships.find? fun m => m.tenantId = scope.tenantId && m.userId = userId).map fun m =>
    { userId := m.userId, role := m.role }

/-- Somebody teaches a course. -/
def isInstructorOf (scope : TenantScope) (db : Database) (userId courseId : Uuid) : Bool :=
  db.courseInstructors.any fun i =>
    i.tenantId = scope.tenantId && i.userId = userId && i.courseId = courseId

/-- `expires_at is null or expires_at > now()`. -/
def notExpired (now : Instant) (e : EnrollmentRow) : Bool :=
  match e.expiresAt with
  | none => true
  | some at_ => now < at_

/-- An enrollment in the course itself. -/
def coversCourseDirectly (courseId : Uuid) (e : EnrollmentRow) : Bool :=
  e.sourceKind = .course && e.sourceId = courseId

/-- An enrollment in a program that the course is part of. -/
def coversCourseViaProgram (scope : TenantScope) (db : Database) (courseId : Uuid)
    (e : EnrollmentRow) : Bool :=
  e.sourceKind = .program && db.programCourses.any fun p =>
    p.tenantId = scope.tenantId && p.programId = e.sourceId && p.courseId = courseId

/-- Both entitlement shapes in one query, with a lapsed enrollment reading like none at all. -/
def hasActiveEntitlement (scope : TenantScope) (db : Database) (userId courseId : Uuid) : Bool :=
  db.enrollments.any fun e =>
    e.tenantId = scope.tenantId && e.userId = userId && notExpired scope.now e &&
      (coversCourseDirectly courseId e || coversCourseViaProgram scope db courseId e)

/-! ### What they answer -/

variable {scope : TenantScope} {db : Database} {userId courseId : Uuid}

theorem findMembership_eq_some (hdb : db.Consistent) {m : MembershipRecord} :
    findMembership scope db userId = some m ↔
      ∃ row ∈ db.memberships, row.tenantId = scope.tenantId ∧ row.userId = userId ∧
        m = ⟨userId, row.role⟩ := by
  rw [findMembership, Option.map_eq_some_iff]
  constructor
  · rintro ⟨row, hrow, rfl⟩
    have hp := List.find?_some hrow
    simp only [Bool.and_eq_true, decide_eq_true_eq] at hp
    exact ⟨row, List.mem_of_find?_eq_some hrow, hp.1, hp.2, by rw [hp.2]⟩
  · rintro ⟨row, hrow, ht, hu, rfl⟩
    refine ⟨row, Table.find?_eq_some_of_unique hrow (by simp [ht, hu]) ?_, by rw [hu]⟩
    intro other hother hp
    simp only [Bool.and_eq_true, decide_eq_true_eq] at hp
    refine Table.eq_of_key_eq hdb.memberships_key hother hrow ?_
    rw [hp.1, hp.2, ht, hu]

theorem isInstructorOf_iff :
    isInstructorOf scope db userId courseId = true ↔
      ∃ i ∈ db.courseInstructors,
        i.tenantId = scope.tenantId ∧ i.userId = userId ∧ i.courseId = courseId := by
  simp [isInstructorOf, and_assoc]

/-- The enrollment is still good: it has no expiry, or one strictly after `now`. -/
def EnrollmentRow.Active (now : Instant) (e : EnrollmentRow) : Prop :=
  ∀ at_, e.expiresAt = some at_ → now < at_

/-- The enrollment is for the course itself or for a program of the tenant that contains it. -/
def EnrollmentRow.Covers (db : Database) (tenantId courseId : Uuid) (e : EnrollmentRow) : Prop :=
  (e.sourceKind = .course ∧ e.sourceId = courseId) ∨
    (e.sourceKind = .program ∧ ∃ p ∈ db.programCourses,
      p.tenantId = tenantId ∧ p.programId = e.sourceId ∧ p.courseId = courseId)

theorem notExpired_iff {now : Instant} {e : EnrollmentRow} :
    notExpired now e = true ↔ e.Active now := by
  rw [notExpired, EnrollmentRow.Active]
  cases e.expiresAt with
  | none => simp
  | some at_ => simp

theorem hasActiveEntitlement_iff :
    hasActiveEntitlement scope db userId courseId = true ↔
      ∃ e ∈ db.enrollments, e.tenantId = scope.tenantId ∧ e.userId = userId ∧
        e.Active scope.now ∧ e.Covers db scope.tenantId courseId := by
  simp [hasActiveEntitlement, coversCourseDirectly, coversCourseViaProgram, notExpired_iff,
    EnrollmentRow.Covers, and_assoc]

/-! ### They read the tenant's own rows -/

theorem findMembership_viewOf :
    findMembership scope (db.viewOf scope.tenantId) userId = findMembership scope db userId :=
  congrArg _ (Table.find?_owned (by simp +contextual) _)

theorem isInstructorOf_viewOf :
    isInstructorOf scope (db.viewOf scope.tenantId) userId courseId
      = isInstructorOf scope db userId courseId :=
  Table.any_owned (by simp +contextual) _

theorem coversCourseViaProgram_viewOf {e : EnrollmentRow} :
    coversCourseViaProgram scope (db.viewOf scope.tenantId) courseId e
      = coversCourseViaProgram scope db courseId e :=
  congrArg _ (Table.any_owned (by simp +contextual) _)

theorem hasActiveEntitlement_viewOf :
    hasActiveEntitlement scope (db.viewOf scope.tenantId) userId courseId
      = hasActiveEntitlement scope db userId courseId := by
  simp only [hasActiveEntitlement, coversCourseViaProgram_viewOf]
  exact Table.any_owned (by simp +contextual) _

/-! ### Lists for the screens -/

/-- A course somebody may see, and through what. -/
structure EnrolledCourse where
  courseId : Uuid
  title : String
  slug : String
  via : SourceKind
  sourceTitle : String
  expiresAt : Option Instant
  granted : Bool
deriving DecidableEq

/-- Never expires beats a later expiry beats an earlier one. -/
def outranks (candidate incumbent : EnrolledCourse) : Bool :=
  match incumbent.expiresAt, candidate.expiresAt with
  | none, _ => false
  | some _, none => true
  | some i, some c => i < c

/-- One turn of the loop over the rows: a map from course id to its best entry, in the order in
which the courses first appeared. -/
def keepBest (best : List EnrolledCourse) (entry : EnrolledCourse) : List EnrolledCourse :=
  match best.find? fun x => x.courseId = entry.courseId with
  | none => best ++ [entry]
  | some existing =>
    if outranks entry existing then
      Table.update (fun x => x.courseId = entry.courseId) (fun _ => entry) best
    else best

/-- The enrollments that name a course, joined to it. -/
def directEnrollments (scope : TenantScope) (collate : Collation) (db : Database) (userId : Uuid) :
    List EnrolledCourse :=
  let rows := (innerJoin (fun e c => c.tenantId = scope.tenantId && c.id = e.sourceId)
    db.enrollments db.courses).filter fun x =>
      x.1.tenantId = scope.tenantId && x.1.userId = userId && x.1.sourceKind = .course
  (rows.insertionSort fun x y => collate.database x.2.title y.2.title).map fun x =>
    { courseId := x.2.id, title := x.2.title, slug := x.2.slug, via := .course,
      sourceTitle := x.2.title, expiresAt := x.1.expiresAt, granted := x.1.grantedBy.isSome }

/-- The enrollments that name a program, joined to each course it contains. -/
def programEnrollments (scope : TenantScope) (collate : Collation) (db : Database)
    (userId : Uuid) : List EnrolledCourse :=
  let withProgram := innerJoin (fun e g => g.tenantId = scope.tenantId && g.id = e.sourceId)
    db.enrollments db.programs
  let withLink := innerJoin
    (fun (x : EnrollmentRow × ProgramRow) p =>
      p.tenantId = scope.tenantId && p.programId = x.2.id) withProgram db.programCourses
  let rows := (innerJoin
    (fun (x : (EnrollmentRow × ProgramRow) × ProgramCourseRow) c =>
      c.tenantId = scope.tenantId && c.id = x.2.courseId) withLink db.courses).filter fun x =>
        x.1.1.1.tenantId = scope.tenantId && x.1.1.1.userId = userId
          && x.1.1.1.sourceKind = .program
  (rows.insertionSort fun x y => collate.database x.2.title y.2.title).map fun x =>
    { courseId := x.2.id, title := x.2.title, slug := x.2.slug, via := .program,
      sourceTitle := x.1.1.2.title, expiresAt := x.1.1.1.expiresAt,
      granted := x.1.1.1.grantedBy.isSome }

/-- Every course this person is entitled to, expired ones included, each once. -/
def listEnrolledCourses (scope : TenantScope) (collate : Collation) (db : Database)
    (userId : Uuid) : List EnrolledCourse :=
  let rows := directEnrollments scope collate db userId
    ++ programEnrollments scope collate db userId
  (rows.foldl keepBest []).insertionSort fun a b => collate.locale a.title b.title

/-- A program or a course that can be granted. -/
structure GrantableSource where
  kind : SourceKind
  id : Uuid
  title : String
deriving DecidableEq

/-- The tenant's programs and courses. -/
def listGrantableSources (scope : TenantScope) (collate : Collation) (db : Database) :
    List GrantableSource :=
  let programRows := (db.programs.filter fun g => g.tenantId = scope.tenantId).insertionSort
    fun a b => collate.database a.title b.title
  let courseRows := (db.courses.filter fun c => c.tenantId = scope.tenantId).insertionSort
    fun a b => collate.database a.title b.title
  (programRows.map fun g => { kind := .program, id := g.id, title := g.title })
    ++ courseRows.map fun c => { kind := .course, id := c.id, title := c.title }

variable {collate : Collation}

theorem directEnrollments_viewOf :
    directEnrollments scope collate (db.viewOf scope.tenantId) userId
      = directEnrollments scope collate db userId := by
  refine congrArg (fun rows => (List.insertionSort _ rows).map _) ?_
  exact Table.filter_innerJoin_owned (q := fun e : EnrollmentRow =>
      e.tenantId = scope.tenantId && e.userId = userId && e.sourceKind = .course)
    (Table.filter_owned (by simp +contextual) _) (by simp +contextual) _

theorem programEnrollments_viewOf :
    programEnrollments scope collate (db.viewOf scope.tenantId) userId
      = programEnrollments scope collate db userId := by
  let mine (e : EnrollmentRow) : Bool :=
    e.tenantId = scope.tenantId && e.userId = userId && e.sourceKind = .program
  refine congrArg (fun rows => (List.insertionSort _ rows).map _) ?_
  refine Table.filter_innerJoin_owned (q := fun x : (_ × ProgramRow) × _ => mine x.1.1)
    ?_ (by simp +contextual) _
  refine Table.filter_innerJoin_owned (q := fun x : _ × ProgramRow => mine x.1)
    ?_ (by simp +contextual) _
  exact Table.filter_innerJoin_owned (q := mine)
    (Table.filter_owned (by simp +contextual [mine]) _) (by simp +contextual) _

theorem listEnrolledCourses_viewOf :
    listEnrolledCourses scope collate (db.viewOf scope.tenantId) userId
      = listEnrolledCourses scope collate db userId := by
  rw [listEnrolledCourses, directEnrollments_viewOf, programEnrollments_viewOf,
    listEnrolledCourses]

theorem listGrantableSources_viewOf :
    listGrantableSources scope collate (db.viewOf scope.tenantId)
      = listGrantableSources scope collate db := by
  have hprograms : (owned ProgramRow.tenantId scope.tenantId db.programs).filter
      (fun g => g.tenantId = scope.tenantId)
        = db.programs.filter fun g => g.tenantId = scope.tenantId :=
    Table.filter_owned (by simp) _
  have hcourses : (owned CourseRow.tenantId scope.tenantId db.courses).filter
      (fun c => c.tenantId = scope.tenantId)
        = db.courses.filter fun c => c.tenantId = scope.tenantId :=
    Table.filter_owned (by simp) _
  simp only [listGrantableSources, Database.viewOf_programs, Database.viewOf_courses, hprograms,
    hcourses]

end LampLight
