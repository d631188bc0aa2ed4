import LampLight.Foundation.JsNumber
import LampLight.Foundation.RowSecurity
import LampLight.Schema
import LampLight.Storage.Keys

/-!
# The second layer

Every tenant-owned table has one policy, `tenant_isolation`: a row is shown and admitted when its
`tenant_id` is the tenant of the session. The tenant of a session is a setting, a text that
`getTenantDb` puts there and the policy casts back to a uuid. A setting that was never made, or that
has been cleared, is nobody's.

## Main results

* `castUuid_uuidText` — the text of a uuid is cast back to it
* `tenantIsolation_isolates` — the policies isolate tenants
* `tenantTables_viewOf` — what a tenant is shown is `Database.viewOf`
-/

namespace LampLight

open RowSecurity (Policy Tables ownedBy)

/-! ### Uuids as text -/

/-- `/^[0-9a-f]{8}-[0-9a-f]{4}-[0-9a-f]{4}-[0-9a-f]{4}-[0-9a-f]{12}$/i`: 32 digits, hyphenated. -/
def matchesUuidPattern (text : String) : Bool :=
  let digits := text.toList.filter fun c => c ≠ '-'
  digits.length = 32 && digits.all Js.isHexDigit && hyphenate digits = text.toList

/-- `text::uuid`. Postgres casts other spellings as well, which never reach it here. -/
def castUuid (text : String) : Option Uuid :=
  if matchesUuidPattern text then
    some (BitVec.ofNat 128 (Js.parseHex (text.toList.filter fun c => c ≠ '-')))
  else none

/-- Digits are read back, as far as there are places for them. -/
theorem parseHex_hexDigits (n v : ℕ) : Js.parseHex (hexDigits n v) = v % 16 ^ n := by
  induction n generalizing v with
  | zero => rw [pow_zero, Nat.mod_one]; rfl
  | succ n ih =>
    have hread := ih (v / 16)
    rw [Js.parseHex] at hread ⊢
    rw [hexDigits, List.foldl_append, hread, List.foldl_cons, List.foldl_nil,
      Js.hexValue_digitChar _ (Nat.mod_lt _ (by omega)), pow_succ, Nat.mul_comm _ 16, Nat.mod_mul]
    omega

/-- The text of a uuid is cast back to it. -/
theorem castUuid_uuidText (id : Uuid) : castUuid (uuidText id) = some id := by
  have hdigits : (uuidText id).toList.filter (fun c => c ≠ '-') = hexDigits 32 id.toNat := by
    rw [uuidText, String.toList_ofList, filter_hyphenate (hyphen_notMem_hexDigits 32 _)]
  have hhex : (hexDigits 32 id.toNat).all Js.isHexDigit = true := by
    refine List.all_eq_true.mpr fun c hc => ?_
    obtain ⟨a, ha, rfl⟩ := exists_of_mem_hexDigits hc
    exact Js.isHexDigit_of_isLowerHex (Js.isLowerHex_digitChar a ha)
  have hpattern : matchesUuidPattern (uuidText id) = true := by
    simp only [matchesUuidPattern, hdigits, hhex, length_hexDigits]
    simp [uuidText]
  rw [castUuid, if_pos hpattern, hdigits, parseHex_hexDigits]
  refine congrArg some (BitVec.eq_of_toNat_eq ?_)
  rw [BitVec.toNat_ofNat]
  have hlt := id.isLt
  omega

theorem castUuid_of_pattern {text : String} (h : matchesUuidPattern text = true) :
    ∃ id, castUuid text = some id := ⟨_, if_pos h⟩

/-! ### The tenant of a session -/

/-- `nullif(current_setting('app.tenant_id', true), '')::uuid`, which fails on a text that is not
one. -/
def appCurrentTenantId (setting : Option String) : Except String (Option Uuid) :=
  match setting.filter fun text => text ≠ "" with
  | none => .ok none
  | some text =>
    match castUuid text with
    | none => .error ("invalid input syntax for type uuid: " ++ text)
    | some id => .ok (some id)

/-- A setting that was never made, or has been cleared. -/
def Unset (setting : Option String) : Prop := setting = none ∨ setting = some ""

theorem Unset.current {setting : Option String} (h : Unset setting) :
    appCurrentTenantId setting = .ok none := by
  rcases h with rfl | rfl <;> rfl

theorem appCurrentTenantId_of_cast {text : String} {id : Uuid} (h : castUuid text = some id) :
    appCurrentTenantId (some text) = .ok (some id) := by
  have hne : text ≠ "" := by
    rintro rfl
    cases h
  rw [appCurrentTenantId, Option.filter_some, if_pos (by simpa using hne)]
  dsimp only
  rw [h]

/-! ### The policies -/

/-- `TENANT_OWNED_TABLES`. -/
inductive TenantOwnedTable
  | auditLog | courseInstructors | courseResources | courses | enrollments | lessonResources
  | lessons | memberships | modules | orders | products | programCourses | programs | progress
  | signupInvitations | tenantBilling | tenantDomains | tenantSettings
deriving DecidableEq

/-- `create policy tenant_isolation using (tenant_id = app_current_tenant_id()) with check (…)`, on
tables whose rows name their tenant. A comparison with null is not true. -/
def tenantIsolation {Row : TenantOwnedTable → Type} (tenantId : ∀ i, Row i → Uuid) :
    Policy Row Uuid where
  shows i current row := decide (current = some (tenantId i row))
  admits i current row := decide (current = some (tenantId i row))

theorem tenantIsolation_isolates {Row : TenantOwnedTable → Type} (tenantId : ∀ i, Row i → Uuid) :
    (tenantIsolation tenantId).Isolates tenantId where
  shows _ _ _ := rfl
  admits _ _ _ := rfl

/-! ### On the tables of the model -/

/-- The rows of a table. Nothing is modelled of the three that are about money. -/
@[reducible] def RowOf : TenantOwnedTable → Type
  | .auditLog => AuditRow
  | .courseInstructors => CourseInstructorRow
  | .courseResources => CourseResourceRow
  | .courses => CourseRow
  | .enrollments => EnrollmentRow
  | .lessonResources => LessonResourceRow
  | .lessons => LessonRow
  | .memberships => MembershipRow
  | .modules => ModuleRow
  | .orders => Empty
  | .products => Empty
  | .programCourses => ProgramCourseRow
  | .programs => ProgramRow
  | .progress => ProgressRow
  | .signupInvitations => SignupInvitationRow
  | .tenantBilling => Empty
  | .tenantDomains => TenantDomainRow
  | .tenantSettings => TenantSettingsRow

/-- The tenant a row belongs to. -/
def rowTenant : ∀ i, RowOf i → Uuid
  | .auditLog => AuditRow.tenantId
  | .courseInstructors => CourseInstructorRow.tenantId
  | .courseResources => CourseResourceRow.tenantId
  | .courses => CourseRow.tenantId
  | .enrollments => EnrollmentRow.tenantId
  | .lessonResources => LessonResourceRow.tenantId
  | .lessons => LessonRow.tenantId
  | .memberships => MembershipRow.tenantId
  | .modules => ModuleRow.tenantId
  | .orders => Empty.elim
  | .products => Empty.elim
  | .programCourses => ProgramCourseRow.tenantId
  | .programs => ProgramRow.tenantId
  | .progress => ProgressRow.tenantId
  | .signupInvitations => SignupInvitationRow.tenantId
  | .tenantBilling => Empty.elim
  | .tenantDomains => TenantDomainRow.tenantId
  | .tenantSettings => TenantSettingsRow.tenantId

/-- The tenant-owned tables of a database. -/
def Database.tenantTables (db : Database) : Tables RowOf
  | .auditLog => db.auditLog
  | .courseInstructors => db.courseInstructors
  | .courseResources => db.courseResources
  | .courses => db.courses
  | .enrollments => db.enrollments
  | .lessonResources => db.lessonResources
  | .lessons => db.lessons
  | .memberships => db.memberships
  | .modules => db.modules
  | .orders => []
  | .products => []
  | .programCourses => db.programCourses
  | .programs => db.programs
  | .progress => db.progress
  | .signupInvitations => db.signupInvitations
  | .tenantBilling => []
  | .tenantDomains => db.tenantDomains
  | .tenantSettings => db.tenantSettings

/-- What the first layer's filters leave of the database is what the policies show of it. -/
theorem tenantTables_viewOf (t : Uuid) (db : Database) :
    (db.viewOf t).tenantTables
      = (tenantIsolation rowTenant).visible (some t) db.tenantTables := by
  rw [RowSecurity.visible_owned (tenantIsolation_isolates rowTenant)]
  funext i
  cases i <;> rfl

end LampLight
