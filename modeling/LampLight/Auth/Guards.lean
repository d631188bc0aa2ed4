import LampLight.Auth.Invitations
import LampLight.Tenancy.Resolve

/-!
# Viewers, roles and their ranks

A session says who somebody is, and the membership in the tenant of the request says what they are
there. A membership carries one role, and roles are ranked: an admin may do what an instructor may.
An invitation that is accepted writes the role it carries, except over an admin.

## Main definitions

* `getViewer` — who asks, and in which role
* `RANK`, `Database.roleOf` — the rank of a role, and the role of a person in a tenant
* `KeepsRank` — an activation left the person with a role that ranks at least as high as the one
  before and as the invitation's

## Main results

* `completeActivation_roleOf` — the role an activation leaves
* `completeActivation_keepsRank_iff` — an activation keeps the rank of everybody but an instructor
  who follows a student's link
-/

namespace LampLight

/-! ### Who asks -/

/-- Who a session belongs to. -/
structure SessionUser where
  id : Uuid
  email : String
deriving DecidableEq

/-- Somebody signed in, in the institute they are looking at. -/
structure Viewer where
  userId : Uuid
  email : String
  tenant : TenantContext
  role : MembershipRole
deriving DecidableEq

/-- The person who is signed in and their role in the tenant of the request. None when nobody is
signed in, or somebody without a membership there. -/
def getViewer (db : Database) (tenant : TenantContext) (user : Option SessionUser) (now : Instant) :
    Option Viewer :=
  match user with
  | none => none
  | some user =>
    (findMembership ⟨tenant.id, now⟩ db user.id).map fun membership =>
      { userId := user.id, email := user.email, tenant := tenant, role := membership.role }

/-! ### Ranks -/

/-- `RANK` of the guards. -/
def RANK : MembershipRole → ℕ
  | .student => 0
  | .instructor => 1
  | .admin => 2

/-- The viewer, when their role ranks high enough; everybody else gets the ordinary 404. -/
def requireRole (minimum : MembershipRole) (viewer : Option Viewer) : Option Viewer :=
  viewer.filter fun v => RANK minimum ≤ RANK v.role

/-- The role a person has in a tenant. -/
def Database.roleOf (db : Database) (tenantId userId : Uuid) : Option MembershipRole :=
  (db.memberships.find? fun m => m.tenantId = tenantId && m.userId = userId).map (·.role)

/-- What `attachMembership` makes of the role somebody has. -/
def upgradedRole (old : Option MembershipRole) (invited : MembershipRole) : MembershipRole :=
  if old = some .admin then .admin else invited

variable {db db' : Database} {tenantId invitationId userId : Uuid} {now : Instant}
  {invitation : SignupInvitationRow}

theorem attachMembership_roleOf
    (h : attachMembership db tenantId userId invitation = .ok db') :
    db'.roleOf tenantId userId
      = some (upgradedRole (db.roleOf tenantId userId) invitation.role) := by
  simp only [attachMembership] at h
  split_ifs at h with hmember
  · obtain rfl := Except.ok.inj h
    simp only [Database.roleOf]
    rw [Table.find?_update (by intro m; rfl)]
    cases hfind : db.memberships.find? fun m => m.tenantId = tenantId && m.userId = userId with
    | none =>
      obtain ⟨m, hm, hkey⟩ := List.any_eq_true.mp hmember
      exact absurd hkey (List.find?_eq_none.mp hfind m hm)
    | some m =>
      by_cases hadmin : m.role = .admin
      · simp [upgradedRole, hadmin]
      · simp [upgradedRole, hadmin]
  · obtain ⟨-, rfl⟩ := Database.checked_ok.mp h
    have hfind : (db.memberships.find? fun m => m.tenantId = tenantId && m.userId = userId)
        = none := by
      simpa using hmember
    simp [Database.roleOf, List.find?_append, hfind, upgradedRole]

/-- The role an activation leaves. -/
theorem completeActivation_roleOf
    (hrow : db.signupInvitations.find? (fun i => claimable tenantId invitationId i)
      = some invitation)
    (h : completeActivation db tenantId invitationId userId now = .ok (true, db')) :
    db'.roleOf tenantId userId
      = some (upgradedRole (db.roleOf tenantId userId) invitation.role) := by
  obtain ⟨row, spent, mid, hfound, hattach, rfl⟩ := completeActivation_writes h
  obtain rfl : invitation = row := Option.some.inj (hrow.symm.trans hfound)
  -- neither the spent invitation nor the proven address is a membership
  have hrole := attachMembership_roleOf hattach
  exact hrole

/-! ### Demotion -/

/-- The role after ranks at least as high as the one before, if any, and as the invitation's. -/
def KeepsRank (before after : Option MembershipRole) (invited : MembershipRole) : Prop :=
  ∃ role, after = some role ∧ (∀ old, before = some old → RANK old ≤ RANK role) ∧
    RANK invited ≤ RANK role

/-- Only an admin keeps what they have, so an instructor is the one person whom a lower invitation
finds unprotected. -/
theorem keepsRank_upgradedRole_iff (before : Option MembershipRole) (invited : MembershipRole) :
    KeepsRank before (some (upgradedRole before invited)) invited ↔
      ¬ (before = some .instructor ∧ invited = .student) := by
  cases before with
  | none => simp [KeepsRank, upgradedRole]
  | some old => cases old <;> cases invited <;> simp [KeepsRank, upgradedRole, RANK]

/-- **Accepting an invitation demotes an instructor who follows a student's link, and nobody
else.** -/
theorem completeActivation_keepsRank_iff
    (hrow : db.signupInvitations.find? (fun i => claimable tenantId invitationId i)
      = some invitation)
    (h : completeActivation db tenantId invitationId userId now = .ok (true, db')) :
    KeepsRank (db.roleOf tenantId userId) (db'.roleOf tenantId userId) invitation.role ↔
      ¬ (db.roleOf tenantId userId = some .instructor ∧ invitation.role = .student) := by
  rw [completeActivation_roleOf hrow h]
  exact keepsRank_upgradedRole_iff _ _

/-! ### An instructor who follows a student's link -/

/-- A pending invitation to one of the classes. -/
def studentLink : SignupInvitationRow where
  id := 3
  tenantId := 1
  email := "ada@example.org"
  firstName := "Ada"
  lastName := ""
  answersJson := []
  role := .student
  tokenHash := "h"
  expiresAt := 10
  consumedAt := none
  createdAt := 0

/-- An institute with one member, who is invited. -/
def invitedMember (role : MembershipRole) : Database where
  users := [{ id := 2, email := "ada@example.org", name := "Ada", firstName := "Ada",
              lastName := "", emailVerified := true }]
  tenants := [{ id := 1, slug := "grace", name := "Grace", status := .active, createdAt := 0 }]
  memberships := [{ tenantId := 1, userId := 2, role := role, profileJson := [] }]
  signupInvitations := [studentLink]

/-- An admin who follows the link stays an admin. -/
theorem completeActivation_keepsRank_iff_admin :
    ∃ db', completeActivation (invitedMember .admin) 1 3 2 5 = .ok (true, db') ∧
      (KeepsRank ((invitedMember .admin).roleOf 1 2) (db'.roleOf 1 2) studentLink.role ↔
        ¬ ((invitedMember .admin).roleOf 1 2 = some .instructor ∧
          studentLink.role = .student)) := by
  have hrow : (invitedMember .admin).signupInvitations.find? (fun i => claimable 1 3 i)
      = some studentLink := rfl
  obtain ⟨db', h⟩ : ∃ db', completeActivation (invitedMember .admin) 1 3 2 5 = .ok (true, db') :=
    ⟨_, rfl⟩
  exact ⟨db', h, completeActivation_keepsRank_iff hrow h⟩

/-- An instructor who follows it is a student afterwards. -/
theorem instructor_demoted :
    ∃ db', completeActivation (invitedMember .instructor) 1 3 2 5 = .ok (true, db') ∧
      (invitedMember .instructor).roleOf 1 2 = some .instructor ∧
      db'.roleOf 1 2 = some .student ∧
      ¬ KeepsRank ((invitedMember .instructor).roleOf 1 2) (db'.roleOf 1 2) studentLink.role := by
  refine ⟨_, rfl, rfl, rfl, ?_⟩
  rintro ⟨role, hrole, hold, -⟩
  obtain rfl : .student = role := Option.some.inj hrole
  exact absurd (hold .instructor rfl) (by decide)

end LampLight
