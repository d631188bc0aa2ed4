import LampLight.Foundation.JsText
import LampLight.Foundation.Table

/-!
# The database

One structure per table, with the columns some modelled function reads or writes, and the whole
database as a list of rows per table. Lists are in storage order, which is also the order of
creation.

`Identity` holds the global tables of the authentication library: they carry no tenant. Every other
table except `tenants` has a `tenantId` column. A unique index over an identifier that is drawn at
random at each insertion is a primary key here.

## Views

`Database.viewOf t db` keeps the rows of tenant `t` (with the global users), and
`Database.othersOf t db` keeps the tenant-owned rows of everybody else. The first says what a
tenant-scoped query may depend on, the second what a tenant-scoped write must leave alone.

## Constraints

A statement that would break a constraint fails, and with it the transaction it is part of.
`Database.checked` is that rule: it lists what the statement may violate, in order, and either
reports the first violation or hands back the new state.
-/

namespace LampLight

open Js (Json)

/-- The 128 bits of a uuid. -/
abbrev Uuid := BitVec 128

/-- Membership is decided by comparing. -/
instance Uuid.decidableMem (id : Uuid) (ids : List Uuid) : Decidable (id ∈ ids) := inferInstance

/-- An instant, in milliseconds since the epoch. -/
abbrev Instant := ℤ

/-! ### Enumerations -/

/-- Whether an institute is served. -/
inductive TenantStatus | pending | active | suspended
deriving DecidableEq

/-- How far a domain is confirmed. -/
inductive DomainStatus | pending | verifying | active | failed
deriving DecidableEq

/-- What a member may do. -/
inductive MembershipRole | student | instructor | admin
deriving DecidableEq

/-- Whether an institute takes sign-ups. -/
inductive SignupMode | closed | open
deriving DecidableEq

/-- What a resource is. -/
inductive ResourceKind | audio | video | pdf | link
deriving DecidableEq

/-- What an enrollment is in. -/
inductive SourceKind | program | course
deriving DecidableEq

/-! ### Global rows -/

/-- An institute. -/
structure TenantRow where
  id : Uuid
  slug : String
  name : String
  status : TenantStatus
  createdAt : Instant
deriving DecidableEq

/-- An account. -/
structure UserRow where
  id : Uuid
  email : String
  name : String
  firstName : String
  lastName : String
  emailVerified : Bool
deriving DecidableEq

/-- A credential: the password somebody signs in with. -/
structure AccountRow where
  userId : Uuid
  password : String
deriving DecidableEq

/-- Somebody is signed in. -/
structure SessionRow where
  token : String
  userId : Uuid
deriving DecidableEq

/-- A short-lived token of the authentication library, here for a password reset. -/
structure VerificationRow where
  token : String
  userId : Uuid
deriving DecidableEq

/-! ### Tenant-owned rows -/

/-- What a DNS record is for. -/
inductive DnsPurpose | routing | ownership | certificate
deriving DecidableEq

/-- The types of DNS records an institute is asked for. -/
inductive DnsType | CNAME | TXT
deriving DecidableEq

/-- A DNS record an institute is asked for. -/
structure DnsRecord where
  type : DnsType
  name : String
  value : String
  purpose : DnsPurpose
deriving DecidableEq

/-- A hostname of an institute, active or claimed. -/
structure TenantDomainRow where
  id : Uuid
  tenantId : Uuid
  hostname : String
  isPrimary : Bool
  verificationStatus : DomainStatus
  cfHostnameId : Option String
  dnsRecords : List DnsRecord
  claimExpiresAt : Option Instant
  lastError : Option String
  verifiedAt : Option Instant
  createdAt : Instant
deriving DecidableEq

/-- What an institute has decided about itself. -/
structure TenantSettingsRow where
  tenantId : Uuid
  legalName : Option String
  signupMode : SignupMode
  signupQuestionsJson : Json

/-- Somebody belongs to an institute, with the answers given at sign-up. -/
structure MembershipRow where
  tenantId : Uuid
  userId : Uuid
  role : MembershipRole
  profileJson : List (String × Json)

/-- A link that was mailed to an address, by the hash of its token. -/
structure SignupInvitationRow where
  id : Uuid
  tenantId : Uuid
  email : String
  firstName : String
  lastName : String
  answersJson : List (String × Json)
  role : MembershipRole
  tokenHash : String
  expiresAt : Instant
  consumedAt : Option Instant
  createdAt : Instant

/-- A program of study. -/
structure ProgramRow where
  id : Uuid
  tenantId : Uuid
  title : String
deriving DecidableEq

/-- A course. -/
structure CourseRow where
  id : Uuid
  tenantId : Uuid
  title : String
  slug : String
  descriptionMd : Option String
deriving DecidableEq

/-- A course is part of a program. -/
structure ProgramCourseRow where
  tenantId : Uuid
  programId : Uuid
  courseId : Uuid
deriving DecidableEq

/-- Somebody teaches a course. -/
structure CourseInstructorRow where
  tenantId : Uuid
  courseId : Uuid
  userId : Uuid
deriving DecidableEq

/-- A part of a course. -/
structure ModuleRow where
  id : Uuid
  tenantId : Uuid
  courseId : Uuid
  title : String
  sortOrder : ℤ
deriving DecidableEq

/-- A lesson of a module. -/
structure LessonRow where
  id : Uuid
  tenantId : Uuid
  moduleId : Uuid
  title : String
  slug : String
  contentMd : Option String
  durationSeconds : Option ℤ
  isFreePreview : Bool
  sortOrder : ℤ
deriving DecidableEq

/-- A recording, document or link of a lesson. -/
structure LessonResourceRow where
  id : Uuid
  tenantId : Uuid
  lessonId : Uuid
  kind : ResourceKind
  storageKey : Option String
  url : Option String
  filename : Option String
  byteSize : Option ℕ
  isDownloadable : Bool
  sortOrder : ℤ
deriving DecidableEq

/-- A document or link of a course. -/
structure CourseResourceRow where
  id : Uuid
  tenantId : Uuid
  courseId : Uuid
  kind : ResourceKind
  title : String
  storageKey : Option String
  url : Option String
  filename : Option String
  byteSize : Option ℕ
  isPublic : Bool
  sortOrder : ℤ
deriving DecidableEq

/-- Somebody may see a program or a course. -/
structure EnrollmentRow where
  id : Uuid
  tenantId : Uuid
  userId : Uuid
  sourceKind : SourceKind
  sourceId : Uuid
  expiresAt : Option Instant
  grantedBy : Option Uuid
deriving DecidableEq

/-- How far somebody is in a lesson. -/
structure ProgressRow where
  tenantId : Uuid
  userId : Uuid
  lessonId : Uuid
  positionSeconds : ℤ
  completedAt : Option Instant
  updatedAt : Instant
deriving DecidableEq

/-- Who did what to which row. -/
structure AuditRow where
  tenantId : Uuid
  actorUserId : Option Uuid
  action : String
  targetType : String
  targetId : Option Uuid
  metadataJson : List (String × Json)

/-! ### The database -/

/-- The global tables of the authentication library. -/
structure Identity where
  users : List UserRow := []
  sessions : List SessionRow := []
  accounts : List AccountRow := []
  verifications : List VerificationRow := []

/-- Every table. -/
structure Database extends Identity where
  tenants : List TenantRow := []
  tenantSettings : List TenantSettingsRow := []
  tenantDomains : List TenantDomainRow := []
  memberships : List MembershipRow := []
  signupInvitations : List SignupInvitationRow := []
  programs : List ProgramRow := []
  courses : List CourseRow := []
  programCourses : List ProgramCourseRow := []
  courseInstructors : List CourseInstructorRow := []
  modules : List ModuleRow := []
  lessons : List LessonRow := []
  lessonResources : List LessonResourceRow := []
  courseResources : List CourseResourceRow := []
  enrollments : List EnrollmentRow := []
  progress : List ProgressRow := []
  auditLog : List AuditRow := []

/-- What Postgres reports when a statement fails: the constraint it would break, or the column a
number or a text does not fit. -/
inductive DbError where
  | uniqueViolation (constraint : String)
  | foreignKeyViolation (constraint : String)
  | numericValueOutOfRange (column : String)
  | characterNotInRepertoire (column : String)
deriving DecidableEq

namespace Database

open Table (owned others)

/-- The rows of tenant `t`, with the global users. -/
@[simps users tenants tenantSettings tenantDomains memberships signupInvitations programs courses
  programCourses courseInstructors modules lessons lessonResources courseResources enrollments
  progress auditLog]
def viewOf (t : Uuid) (db : Database) : Database where
  users := db.users
  tenants := owned TenantRow.id t db.tenants
  tenantSettings := owned TenantSettingsRow.tenantId t db.tenantSettings
  tenantDomains := owned TenantDomainRow.tenantId t db.tenantDomains
  memberships := owned MembershipRow.tenantId t db.memberships
  signupInvitations := owned SignupInvitationRow.tenantId t db.signupInvitations
  programs := owned ProgramRow.tenantId t db.programs
  courses := owned CourseRow.tenantId t db.courses
  programCourses := owned ProgramCourseRow.tenantId t db.programCourses
  courseInstructors := owned CourseInstructorRow.tenantId t db.courseInstructors
  modules := owned ModuleRow.tenantId t db.modules
  lessons := owned LessonRow.tenantId t db.lessons
  lessonResources := owned LessonResourceRow.tenantId t db.lessonResources
  courseResources := owned CourseResourceRow.tenantId t db.courseResources
  enrollments := owned EnrollmentRow.tenantId t db.enrollments
  progress := owned ProgressRow.tenantId t db.progress
  auditLog := owned AuditRow.tenantId t db.auditLog

/-- The tenant-owned rows of every tenant but `t`. -/
@[simps tenants tenantSettings tenantDomains memberships signupInvitations programs courses
  programCourses courseInstructors modules lessons lessonResources courseResources enrollments
  progress auditLog]
def othersOf (t : Uuid) (db : Database) : Database where
  tenants := others TenantRow.id t db.tenants
  tenantSettings := others TenantSettingsRow.tenantId t db.tenantSettings
  tenantDomains := others TenantDomainRow.tenantId t db.tenantDomains
  memberships := others MembershipRow.tenantId t db.memberships
  signupInvitations := others SignupInvitationRow.tenantId t db.signupInvitations
  programs := others ProgramRow.tenantId t db.programs
  courses := others CourseRow.tenantId t db.courses
  programCourses := others ProgramCourseRow.tenantId t db.programCourses
  courseInstructors := others CourseInstructorRow.tenantId t db.courseInstructors
  modules := others ModuleRow.tenantId t db.modules
  lessons := others LessonRow.tenantId t db.lessons
  lessonResources := others LessonResourceRow.tenantId t db.lessonResources
  courseResources := others CourseResourceRow.tenantId t db.courseResources
  enrollments := others EnrollmentRow.tenantId t db.enrollments
  progress := others ProgressRow.tenantId t db.progress
  auditLog := others AuditRow.tenantId t db.auditLog

/-- The keys and foreign keys of the schema that reads rely on. -/
structure Consistent (db : Database) : Prop where
  users_pkey : (db.users.map (·.id)).Nodup
  users_email : (db.users.map (·.email)).Nodup
  tenants_pkey : (db.tenants.map (·.id)).Nodup
  tenants_slug : (db.tenants.map (·.slug)).Nodup
  memberships_key : (db.memberships.map fun m => (m.tenantId, m.userId)).Nodup
  courses_pkey : (db.courses.map (·.id)).Nodup
  programs_pkey : (db.programs.map (·.id)).Nodup
  modules_pkey : (db.modules.map (·.id)).Nodup
  lessons_pkey : (db.lessons.map (·.id)).Nodup
  enrollments_pkey : (db.enrollments.map (·.id)).Nodup
  enrollments_source_key :
    (db.enrollments.map fun e => (e.tenantId, e.userId, e.sourceKind, e.sourceId)).Nodup
  modules_course_fk : ∀ m ∈ db.modules, ∃ c ∈ db.courses, c.tenantId = m.tenantId ∧
    c.id = m.courseId
  lessons_module_fk :
    ∀ l ∈ db.lessons, ∃ m ∈ db.modules, m.tenantId = l.tenantId ∧ m.id = l.moduleId
  instructors_course_fk : ∀ i ∈ db.courseInstructors,
    ∃ c ∈ db.courses, c.tenantId = i.tenantId ∧ c.id = i.courseId
  instructors_member_fk : ∀ i ∈ db.courseInstructors,
    ∃ m ∈ db.memberships, m.tenantId = i.tenantId ∧ m.userId = i.userId
  enrollments_member_fk : ∀ e ∈ db.enrollments,
    ∃ m ∈ db.memberships, m.tenantId = e.tenantId ∧ m.userId = e.userId
  programCourses_program_fk : ∀ p ∈ db.programCourses,
    ∃ g ∈ db.programs, g.tenantId = p.tenantId ∧ g.id = p.programId
  programCourses_course_fk : ∀ p ∈ db.programCourses,
    ∃ c ∈ db.courses, c.tenantId = p.tenantId ∧ c.id = p.courseId

/-! ### Statements under constraints -/

/-- The result of a statement: the first of the listed violations that occurs, or the new state. -/
def checked : List (DbError × Bool) → Database → Except DbError Database
  | [], new => .ok new
  | (e, violated) :: rest, new => if violated then .error e else checked rest new

theorem checked_ok {cs : List (DbError × Bool)} {new db : Database} :
    checked cs new = .ok db ↔ (∀ c ∈ cs, c.2 = false) ∧ db = new := by
  induction cs with
  | nil =>
    simp only [checked, Except.ok.injEq, List.not_mem_nil, false_implies, implies_true, true_and]
    exact eq_comm
  | cons c cs ih =>
    obtain ⟨e, violated⟩ := c
    cases violated with
    | true => simp [checked]
    | false => simp [checked, ih]

/-- `tenant_id` must name a tenant, on every tenant-owned table. -/
def noTenant (db : Database) (t : Uuid) : Bool := !db.tenants.any fun x => x.id = t

/-- No account has this id. -/
def noUser (db : Database) (u : Uuid) : Bool := !db.users.any fun x => x.id = u

/-- The composite reference to a membership. -/
def noMember (db : Database) (t u : Uuid) : Bool :=
  !db.memberships.any fun m => m.tenantId = t && m.userId = u

/-- The tenant has no such lesson. -/
def noLesson (db : Database) (t l : Uuid) : Bool :=
  !db.lessons.any fun x => x.tenantId = t && x.id = l

/-- The tenant has no such course. -/
def noCourse (db : Database) (t c : Uuid) : Bool :=
  !db.courses.any fun x => x.tenantId = t && x.id = c

/-- `insert into audit_log`. -/
def insertAuditLog (db : Database) (row : AuditRow) : Except DbError Database :=
  checked
    [(.foreignKeyViolation "audit_log_tenant_id_tenants_id_fk", db.noTenant row.tenantId),
      (.foreignKeyViolation "audit_log_actor_user_id_users_id_fk",
        row.actorUserId.any fun u => db.noUser u)]
    { db with auditLog := db.auditLog ++ [row] }

theorem insertAuditLog_ok {db db' : Database} {row : AuditRow}
    (h : db.insertAuditLog row = .ok db') : db' = { db with auditLog := db.auditLog ++ [row] } :=
  (checked_ok.mp h).2

theorem insertAuditLog_eq_ok {db db' : Database} {row : AuditRow} :
    db.insertAuditLog row = .ok db' ↔
      (db.noTenant row.tenantId = false ∧ (row.actorUserId.any fun u => db.noUser u) = false) ∧
        db' = { db with auditLog := db.auditLog ++ [row] } := by
  rw [insertAuditLog, checked_ok]
  simp

/-! ### Statements read the tenant's own rows -/

section Views

variable {db : Database} {t : Uuid}

@[simp] theorem noTenant_viewOf : (db.viewOf t).noTenant t = db.noTenant t :=
  congrArg Bool.not (Table.any_owned (by simp) _)

@[simp] theorem noUser_viewOf (u : Uuid) : (db.viewOf t).noUser u = db.noUser u := rfl

@[simp] theorem noMember_viewOf (u : Uuid) : (db.viewOf t).noMember t u = db.noMember t u :=
  congrArg Bool.not (Table.any_owned (by simp +contextual) _)

@[simp] theorem noLesson_viewOf (l : Uuid) : (db.viewOf t).noLesson t l = db.noLesson t l :=
  congrArg Bool.not (Table.any_owned (by simp +contextual) _)

@[simp] theorem noCourse_viewOf (c : Uuid) : (db.viewOf t).noCourse t c = db.noCourse t c :=
  congrArg Bool.not (Table.any_owned (by simp +contextual) _)

/-- A statement whose checks read the tenant's own rows is the same statement on those rows. -/
theorem checked_viewOf (cs : List (DbError × Bool)) (new : Database) :
    checked cs (new.viewOf t) = (checked cs new).map (viewOf t) := by
  induction cs with
  | nil => rfl
  | cons c cs ih =>
    obtain ⟨e, violated⟩ := c
    cases violated with
    | true => rfl
    | false => exact ih

/-- The answer stays, and the rows of other tenants are cut off. -/
def onView (t : Uuid) {α : Type} (x : α × Database) : α × Database := (x.1, x.2.viewOf t)

theorem insertAuditLog_viewOf {row : AuditRow} (h : row.tenantId = t) :
    (db.viewOf t).insertAuditLog row = (db.insertAuditLog row).map (viewOf t) := by
  subst h
  rw [insertAuditLog, insertAuditLog, ← checked_viewOf, noTenant_viewOf]
  have happend : viewOf row.tenantId { db with auditLog := db.auditLog ++ [row] }
      = { db.viewOf row.tenantId with
          auditLog := (db.viewOf row.tenantId).auditLog ++ [row] } := by
    rw [viewOf_auditLog, ← Table.owned_append_of_owned (by simp)]
    rfl
  rw [happend]
  simp only [noUser_viewOf]

theorem insertAuditLog_othersOf {db' : Database} {row : AuditRow} (h : row.tenantId = t)
    (hok : db.insertAuditLog row = .ok db') : db'.othersOf t = db.othersOf t := by
  obtain rfl := insertAuditLog_ok hok
  have hlog : others AuditRow.tenantId t (db.auditLog ++ [row])
      = others AuditRow.tenantId t db.auditLog :=
    Table.others_append_of_owned (by simpa using h)
  simp only [othersOf, hlog]

end Views

end Database

end LampLight
