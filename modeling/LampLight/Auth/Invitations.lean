import LampLight.Foundation.Machine
import LampLight.Repositories.Entitlements
import LampLight.Tenancy.Host

/-!
# Invitations

Creating an account is deferred: signing up or inviting somebody records an invitation and mails a
link, and following the link is what makes a member. The token only ever leaves in the mail; the
table holds its hash.

The hash function and the random choices (tokens, row ids, the readings of the clocks) are
arguments.

## Main definitions

* `issueInvitation`, `findPendingInvitation`, `completeActivation`, `sweepInvitations`

## Main results

* `completeActivation_viewOf`, `completeActivation_othersOf` — an activation reads and writes the
  invitation's own tenant and the user it is for
-/

namespace LampLight

open Js
open Table (owned others)

/-! ### Tokens -/

/-- Three days. -/
def INVITATION_TTL_MS : ℤ := 72 * 60 * 60 * 1000

/-- How long a pending invitation suppresses issuing another for the same address. -/
def RESEND_COOLDOWN_MS : ℤ := 15 * 60 * 1000

/-- How long a spent invitation is kept. -/
def CONSUMED_RETENTION_MS : ℤ := 90 * 24 * 60 * 60 * 1000

/-- A new token: what is mailed, what is stored, and until when it works. -/
structure MintedToken where
  token : String
  tokenHash : String
  expiresAt : Instant
deriving DecidableEq

/-- A token, its hash, and its deadline. -/
def mintInvitationToken (hashToken : String → String) (token : String) (now : Instant) :
    MintedToken where
  token := token
  tokenHash := hashToken token
  expiresAt := now + INVITATION_TTL_MS

/-- The path an invitation link points at. Tokens are base64url, which needs no escaping. -/
def activationPath (token : String) : String := "/activate?token=" ++ token

/-- `email.trim().toLowerCase()`. An address is taken to have no capital outside ASCII: two that
differ in such a capital are one in the code, and two here. -/
def normalizeEmail (email : String) : String := String.ofList (toLowerCase (trim email.toList))

theorem normalizeEmail_idem (email : String) :
    normalizeEmail (normalizeEmail email) = normalizeEmail email := by
  rw [normalizeEmail, normalizeEmail, String.toList_ofList, trim_toLowerCase, trim_idem,
    toLowerCase_idem]

theorem toLowerCase_normalizeEmail (email : String) :
    toLowerCase (normalizeEmail email).toList = (normalizeEmail email).toList := by
  rw [normalizeEmail, String.toList_ofList, toLowerCase_idem]

/-! ### Issuing -/

/-- What somebody may be invited as. -/
inductive InvitationRole | student | admin
deriving DecidableEq

/-- The role a member gets from an invitation. -/
def InvitationRole.toMembership : InvitationRole → MembershipRole
  | .student => .student
  | .admin => .admin

/-- What an invitation is issued from. -/
structure InvitationRequest where
  tenantId : Uuid
  host : String
  email : String
  firstName : String
  lastName : String
  role : Option InvitationRole
  answers : Option (List (String × Json))

/-- The link of an invitation that was issued. -/
structure IssuedInvitation where
  url : String
  expiresAt : Instant
deriving DecidableEq

/-- What the runtime and the database choose while an invitation is written. -/
structure InvitationDraw where
  id : Uuid
  token : String
  mintedAt : Instant
  checkedAt : Instant
  createdAt : Instant
deriving DecidableEq

namespace Database

/-- `insert into signup_invitations`. -/
def insertSignupInvitation (db : Database) (row : SignupInvitationRow) :
    Except DbError Database :=
  checked
    [(.uniqueViolation "signup_invitations_pkey", db.signupInvitations.any fun i => i.id = row.id),
      (.foreignKeyViolation "signup_invitations_tenant_id_tenants_id_fk",
        db.noTenant row.tenantId),
      (.uniqueViolation "signup_invitations_tenant_id_token_hash_key",
        db.signupInvitations.any fun i =>
          i.tenantId = row.tenantId && i.tokenHash = row.tokenHash)]
    { db with signupInvitations := db.signupInvitations ++ [row] }

end Database

/-- Issues an invitation, or nothing when one was issued recently. An older pending one for the
address is superseded. -/
def issueInvitation (hashToken : String → String) (db : Database) (request : InvitationRequest)
    (draw : InvitationDraw) : Except DbError (Option IssuedInvitation × Database) :=
  let email := normalizeEmail request.email
  let minted := mintInvitationToken hashToken draw.token draw.mintedAt
  let pending (i : SignupInvitationRow) : Bool :=
    i.tenantId = request.tenantId && i.email = email && i.consumedAt.isNone
  if db.signupInvitations.any fun i =>
      pending i && draw.checkedAt - RESEND_COOLDOWN_MS < i.createdAt then
    .ok (none, db)
  else
    let superseded := { db with signupInvitations := Table.delete pending db.signupInvitations }
    (superseded.insertSignupInvitation
      { id := draw.id
        tenantId := request.tenantId
        email := email
        firstName := request.firstName
        lastName := request.lastName
        answersJson := request.answers.getD []
        role := (request.role.getD .student).toMembership
        tokenHash := minted.tokenHash
        expiresAt := minted.expiresAt
        consumedAt := none
        createdAt := draw.createdAt }).map fun db' =>
      (some { url := absoluteUrl request.host (activationPath minted.token)
              expiresAt := minted.expiresAt }, db')

/-! ### Finding -/

/-- What a token that works stands for. -/
structure PendingInvitation where
  id : Uuid
  email : String
  firstName : String
  lastName : String
  role : InvitationRole
  answers : List (String × Json)

/-- An invitation by its token, within one tenant. Expired and consumed rows do not match. -/
def findPendingInvitation (hashToken : String → String) (db : Database) (tenantId : Uuid)
    (token : String) (now : Instant) : Option PendingInvitation :=
  if token = "" then none
  else
    match db.signupInvitations.find? fun i => i.tenantId = tenantId &&
        i.tokenHash = hashToken token && i.consumedAt.isNone && now < i.expiresAt with
    | none => none
    | some row =>
      -- The comparison in constant time, on two values the query has already compared.
      if row.tokenHash ≠ hashToken token then none
      else
        some
          { id := row.id
            email := row.email
            firstName := row.firstName
            lastName := row.lastName
            -- Anything unexpected degrades to the least privileged role.
            role := if row.role = .admin then .admin else .student
            answers := row.answersJson }

theorem findPendingInvitation_some {hashToken : String → String} {db : Database}
    {tenantId : Uuid} {token : String} {now : Instant} {invitation : PendingInvitation}
    (h : findPendingInvitation hashToken db tenantId token now = some invitation) :
    ∃ row ∈ db.signupInvitations, row.tenantId = tenantId ∧ row.tokenHash = hashToken token ∧
      row.consumedAt = none ∧ now < row.expiresAt ∧ invitation.id = row.id ∧
      invitation.email = row.email := by
  rw [findPendingInvitation] at h
  split_ifs at h
  split at h
  · cases h
  · next row hrow =>
    have hp := List.find?_some hrow
    simp only [Bool.and_eq_true, decide_eq_true_eq, Option.isNone_iff_eq_none] at hp
    obtain ⟨⟨⟨htenant, hhash⟩, hpending⟩, hlive⟩ := hp
    rw [if_neg (not_not.mpr hhash)] at h
    obtain rfl := Option.some.inj h
    exact ⟨row, List.mem_of_find?_eq_some hrow, htenant, hhash, hpending, hlive, rfl, rfl⟩

/-! ### Completing -/

/-- Writes the membership, or upgrades the one the person already has. -/
def attachMembership (db : Database) (tenantId userId : Uuid) (invitation : SignupInvitationRow) :
    Except DbError Database :=
  let key (m : MembershipRow) : Bool := m.tenantId = tenantId && m.userId = userId
  let upgrade (m : MembershipRow) : MembershipRow :=
    { m with
      role := if m.role = .admin then m.role else invitation.role
      profileJson := invitation.answersJson }
  if db.memberships.any key then
    .ok { db with memberships := Table.update key upgrade db.memberships }
  else
    Database.checked
      [(.foreignKeyViolation "memberships_tenant_id_tenants_id_fk", db.noTenant tenantId),
        (.foreignKeyViolation "memberships_user_id_users_id_fk", db.noUser userId)]
      { db with memberships := db.memberships ++
        [{ tenantId := tenantId, userId := userId, role := invitation.role,
           profileJson := invitation.answersJson }] }

/-- The user with the name given, and with the address verified. -/
def SignupInvitationRow.provenUser (invitation : SignupInvitationRow) (u : UserRow) : UserRow :=
  let names := [invitation.firstName, invitation.lastName].filter fun s => s ≠ ""
  let display := String.ofList (trim (String.intercalate " " names).toList)
  { u with
    emailVerified := true
    firstName := invitation.firstName
    lastName := invitation.lastName
    name := if display = "" then u.name else display }

@[simp] theorem provenUser_id (invitation : SignupInvitationRow) (u : UserRow) :
    (invitation.provenUser u).id = u.id := by
  simp only [SignupInvitationRow.provenUser]

@[simp] theorem provenUser_email (invitation : SignupInvitationRow) (u : UserRow) :
    (invitation.provenUser u).email = u.email := by
  simp only [SignupInvitationRow.provenUser]

@[simp] theorem provenUser_emailVerified (invitation : SignupInvitationRow) (u : UserRow) :
    (invitation.provenUser u).emailVerified = true := by
  simp only [SignupInvitationRow.provenUser]

/-- Records the name given and marks the address verified. -/
def markAddressProven (db : Database) (userId : Uuid) (invitation : SignupInvitationRow) :
    Database :=
  { db with users := Table.update (fun u => u.id = userId) invitation.provenUser db.users }

/-- Spends the invitation, makes the person a member and marks the address proven, in one
transaction. The condition on `consumed_at` is what makes it single use. -/
def completeActivation (db : Database) (tenantId invitationId userId : Uuid) (now : Instant) :
    Except DbError (Bool × Database) :=
  let claimable (i : SignupInvitationRow) : Bool :=
    i.tenantId = tenantId && i.id = invitationId && i.consumedAt.isNone
  match db.signupInvitations.find? claimable with
  | none => .ok (false, db)
  | some invitation =>
    let claimed := { db with
      signupInvitations := Table.update claimable (fun i => { i with consumedAt := some now })
        db.signupInvitations }
    (attachMembership claimed tenantId userId invitation).map fun db' =>
      (true, markAddressProven db' userId invitation)

/-! ### What the writes do -/

section Writes

variable {db db' : Database} {tenantId : Uuid}

theorem insertSignupInvitation_ok {row : SignupInvitationRow}
    (h : db.insertSignupInvitation row = .ok db') :
    db.noTenant row.tenantId = false ∧
      db' = { db with signupInvitations := db.signupInvitations ++ [row] } := by
  rw [Database.insertSignupInvitation, Database.checked_ok] at h
  exact ⟨h.1 _ (List.mem_cons_of_mem _ (List.mem_cons_self ..)), h.2⟩

/-- Either nothing is issued and nothing changes, or a row with the hash of the drawn token joins
those that are not superseded. -/
theorem issueInvitation_ok {hashToken : String → String} {request : InvitationRequest}
    {draw : InvitationDraw} {issued : Option IssuedInvitation}
    (h : issueInvitation hashToken db request draw = .ok (issued, db')) :
    (issued = none ∧ db' = db) ∨
      ∃ row kept, row.tenantId = request.tenantId ∧ row.email = normalizeEmail request.email ∧
        row.tokenHash = hashToken draw.token ∧ db.noTenant row.tenantId = false ∧
        kept ⊆ db.signupInvitations ∧
        db' = { db with signupInvitations := kept ++ [row] } := by
  simp only [issueInvitation] at h
  split_ifs at h with hrecent
  · left
    obtain ⟨rfl, rfl⟩ := Prod.mk.inj (Except.ok.inj h)
    exact ⟨rfl, rfl⟩
  · right
    obtain ⟨db₁, hdb₁, heq⟩ := Machine.map_eq_ok.mp h
    obtain ⟨-, rfl⟩ := Prod.mk.inj heq
    obtain ⟨htenant, rfl⟩ := insertSignupInvitation_ok hdb₁
    refine ⟨_, _, ?_, ?_, ?_, htenant, (Table.delete_sublist _ _).subset, rfl⟩
    · rfl
    · rfl
    · rfl

/-- Nothing happens to the accounts, and at most one invitation appears. -/
structure Invites (hashToken : String → String) (db db' : Database) (email token : String) :
    Prop where
  identity : db'.toIdentity = db.toIdentity
  memberships : db'.memberships = db.memberships
  tenants : db.tenants ⊆ db'.tenants
  invitations : ∀ i ∈ db'.signupInvitations, i ∈ db.signupInvitations ∨
    i.email = email ∧ i.tokenHash = hashToken token ∧ ∃ t ∈ db'.tenants, t.id = i.tenantId

theorem Invites.refl {hashToken : String → String} (db : Database) (email token : String) :
    Invites hashToken db db email token where
  identity := rfl
  memberships := rfl
  tenants := fun _ h => h
  invitations := fun _ h => Or.inl h

theorem exists_tenant_of_noTenant (h : db.noTenant tenantId = false) :
    ∃ t ∈ db.tenants, t.id = tenantId := by
  simpa [Database.noTenant] using h

theorem issueInvitation_invites {hashToken : String → String} {request : InvitationRequest}
    {draw : InvitationDraw} {issued : Option IssuedInvitation}
    (h : issueInvitation hashToken db request draw = .ok (issued, db')) :
    Invites hashToken db db' (normalizeEmail request.email) draw.token := by
  rcases issueInvitation_ok h with ⟨-, rfl⟩ | ⟨row, kept, -, hemail, hhash, htenant, hkept, rfl⟩
  · exact Invites.refl _ _ _
  · refine ⟨rfl, rfl, fun _ h => h, fun i hi => ?_⟩
    rcases List.mem_append.mp hi with hi | hi
    · exact Or.inl (hkept hi)
    · right
      rw [List.mem_singleton.mp hi]
      exact ⟨hemail, hhash, exists_tenant_of_noTenant htenant⟩

/-- Invitations are withdrawn, and at most one is written: a pending one, under this id. -/
structure Issues (db db' : Database) (id : Uuid) : Prop where
  identity : db'.toIdentity = db.toIdentity
  memberships : db'.memberships = db.memberships
  invitations : ∃ (kept : List SignupInvitationRow) (new : Option SignupInvitationRow),
    kept.Sublist db.signupInvitations ∧ db'.signupInvitations = kept ++ new.toList ∧
      ∀ row ∈ new, row.id = id ∧ row.consumedAt = none ∧ normalizeEmail row.email = row.email

theorem Issues.fewer {kept : List SignupInvitationRow} (h : kept.Sublist db.signupInvitations)
    (id : Uuid) : Issues db { db with signupInvitations := kept } id where
  identity := rfl
  memberships := rfl
  invitations := ⟨kept, none, h, (List.append_nil kept).symm, fun _ h => nomatch h⟩

theorem Issues.refl (db : Database) (id : Uuid) : Issues db db id :=
  Issues.fewer (List.Sublist.refl _) id

theorem issueInvitation_issues {hashToken : String → String} {request : InvitationRequest}
    {draw : InvitationDraw} {issued : Option IssuedInvitation}
    (h : issueInvitation hashToken db request draw = .ok (issued, db')) :
    Issues db db' draw.id := by
  simp only [issueInvitation] at h
  split_ifs at h with hrecent
  · obtain ⟨-, rfl⟩ := Prod.mk.inj (Except.ok.inj h)
    exact Issues.refl _ _
  · obtain ⟨db₁, hdb₁, heq⟩ := Machine.map_eq_ok.mp h
    obtain ⟨-, rfl⟩ := Prod.mk.inj heq
    obtain ⟨-, rfl⟩ := insertSignupInvitation_ok hdb₁
    refine ⟨rfl, rfl, _, some _, Table.delete_sublist _ _, rfl, ?_⟩
    rintro row ⟨⟩
    exact ⟨rfl, rfl, normalizeEmail_idem _⟩

theorem attachMembership_ok {userId : Uuid} {invitation : SignupInvitationRow}
    (h : attachMembership db tenantId userId invitation = .ok db') :
    ∃ ms, db' = { db with memberships := ms } ∧
      ∀ m ∈ ms, (∃ n ∈ db.memberships, n.tenantId = m.tenantId ∧ n.userId = m.userId) ∨
        m.userId = userId := by
  simp only [attachMembership] at h
  split_ifs at h with hany
  · obtain rfl := Except.ok.inj h
    refine ⟨_, rfl, fun m hm => Or.inl ?_⟩
    rcases Table.mem_update.mp hm with ⟨hm, -⟩ | ⟨n, hn, -, rfl⟩
    · exact ⟨m, hm, rfl, rfl⟩
    · exact ⟨n, hn, rfl, rfl⟩
  · obtain ⟨-, rfl⟩ := Database.checked_ok.mp h
    refine ⟨_, rfl, fun m hm => ?_⟩
    rcases List.mem_append.mp hm with hm | hm
    · exact Or.inl ⟨m, hm, rfl, rfl⟩
    · right
      rw [List.mem_singleton.mp hm]

theorem attachMembership_isOk {userId : Uuid} (invitation : SignupInvitationRow)
    (ht : ∃ t ∈ db.tenants, t.id = tenantId) (hu : ∃ u ∈ db.users, u.id = userId) :
    ∃ db', attachMembership db tenantId userId invitation = .ok db' := by
  simp only [attachMembership]
  split_ifs with hany
  · exact ⟨_, rfl⟩
  · refine ⟨_, Database.checked_ok.mpr ⟨?_, rfl⟩⟩
    have htenant : db.noTenant tenantId = false := by
      simpa [Database.noTenant] using ht
    have huser : db.noUser userId = false := by
      simpa [Database.noUser] using hu
    simp [htenant, huser]

/-- What the pending invitations of an activation satisfy. -/
def claimable (tenantId invitationId : Uuid) (i : SignupInvitationRow) : Prop :=
  i.tenantId = tenantId ∧ i.id = invitationId ∧ i.consumedAt = none

instance (tenantId invitationId : Uuid) : DecidablePred (claimable tenantId invitationId) :=
  fun _ => inferInstanceAs (Decidable (_ ∧ _ ∧ _))

/-- What completing does: nothing, or the whole of it for a pending invitation. -/
theorem completeActivation_ok {invitationId userId : Uuid} {now : Instant} {done : Bool}
    (h : completeActivation db tenantId invitationId userId now = .ok (done, db')) :
    (done = false ∧ db' = db) ∨
      ∃ row ∈ db.signupInvitations, claimable tenantId invitationId row ∧ done = true ∧
        ∃ spent ms,
          (∀ i ∈ spent, ∃ j ∈ db.signupInvitations,
            j.tenantId = i.tenantId ∧ j.email = i.email ∧ j.tokenHash = i.tokenHash) ∧
          (∀ m ∈ ms, (∃ n ∈ db.memberships, n.tenantId = m.tenantId ∧ n.userId = m.userId) ∨
            m.userId = userId) ∧
          db' = { db with
            users := Table.update (fun u => u.id = userId) row.provenUser db.users
            memberships := ms
            signupInvitations := spent } := by
  simp only [completeActivation] at h
  split at h
  · left
    obtain ⟨rfl, rfl⟩ := Prod.mk.inj (Except.ok.inj h)
    exact ⟨rfl, rfl⟩
  · next row hrow =>
    right
    obtain ⟨db₁, hattach, heq⟩ := Machine.map_eq_ok.mp h
    obtain ⟨rfl, rfl⟩ := Prod.mk.inj heq
    obtain ⟨ms, rfl, hms⟩ := attachMembership_ok hattach
    have hclaim := List.find?_some hrow
    refine ⟨row, List.mem_of_find?_eq_some hrow, ?_, rfl, _, ms, fun i hi => ?_, hms, rfl⟩
    · simpa [claimable, and_assoc] using hclaim
    · rcases Table.mem_update.mp hi with ⟨hi, -⟩ | ⟨j, hj, -, rfl⟩
      · exact ⟨i, hi, rfl, rfl, rfl⟩
      · exact ⟨j, hj, rfl, rfl, rfl⟩

/-- Completing spends the invitation, then writes the membership and the user from it. -/
theorem completeActivation_writes {invitationId userId : Uuid} {now : Instant}
    (h : completeActivation db tenantId invitationId userId now = .ok (true, db')) :
    ∃ row spent mid,
      db.signupInvitations.find? (fun i => claimable tenantId invitationId i) = some row ∧
      attachMembership { db with signupInvitations := spent } tenantId userId row = .ok mid ∧
      db' = markAddressProven mid userId row := by
  have hclaimable : (fun i : SignupInvitationRow => decide (claimable tenantId invitationId i))
      = fun i => i.tenantId = tenantId && i.id = invitationId && i.consumedAt.isNone := by
    funext i
    have hiff : claimable tenantId invitationId i ↔
        (i.tenantId = tenantId && i.id = invitationId && i.consumedAt.isNone) = true := by
      simp [claimable, and_assoc]
    exact Bool.eq_iff_iff.mpr (decide_eq_true_iff.trans hiff)
  rw [hclaimable]
  simp only [completeActivation] at h
  split at h
  · obtain ⟨hdone, -⟩ := Prod.mk.inj (Except.ok.inj h)
    cases hdone
  · next row hrow =>
    obtain ⟨mid, hattach, heq⟩ := Machine.map_eq_ok.mp h
    obtain ⟨-, rfl⟩ := Prod.mk.inj heq
    exact ⟨row, _, mid, hrow, hattach, rfl⟩

/-- A pending invitation of an existing tenant can be completed for an existing user. -/
theorem completeActivation_isOk {invitationId userId : Uuid} {row : SignupInvitationRow}
    (now : Instant) (hrow : row ∈ db.signupInvitations)
    (hclaim : claimable tenantId invitationId row)
    (ht : ∃ t ∈ db.tenants, t.id = tenantId) (hu : ∃ u ∈ db.users, u.id = userId) :
    ∃ db', completeActivation db tenantId invitationId userId now = .ok (true, db') := by
  simp only [completeActivation]
  split
  · next hnone =>
    have := List.find?_eq_none.mp hnone row hrow
    simp [hclaim.1, hclaim.2.1, hclaim.2.2] at this
  · next found _ =>
    have hattach : ∀ claimed : Database, claimed.tenants = db.tenants → claimed.users = db.users →
        ∃ db', (attachMembership claimed tenantId userId found).map
          (fun db₁ => (true, markAddressProven db₁ userId found)) = .ok (true, db') := by
      intro claimed htenants husers
      obtain ⟨db₁, hdb₁⟩ : ∃ db₁, attachMembership claimed tenantId userId found = .ok db₁ :=
        attachMembership_isOk found (htenants ▸ ht) (husers ▸ hu)
      rw [hdb₁]
      exact ⟨_, rfl⟩
    exact hattach _ rfl rfl

end Writes

/-! ### Sweeping -/

/-- How many invitations a sweep has deleted, by reason. -/
structure InvitationSweepResult where
  expired : ℕ
  spent : ℕ
deriving DecidableEq

/-- Deletes the tenant's invitations that have outlived their purpose. -/
def sweepInvitations (db : Database) (tenantId : Uuid) (now : Instant) :
    InvitationSweepResult × Database :=
  let expired (i : SignupInvitationRow) : Bool :=
    i.tenantId = tenantId && i.consumedAt.isNone && i.expiresAt < now
  let spent (i : SignupInvitationRow) : Bool :=
    i.tenantId = tenantId && i.consumedAt.any fun at_ => at_ < now - CONSUMED_RETENTION_MS
  let unexpired := Table.delete expired db.signupInvitations
  ({ expired := (db.signupInvitations.filter expired).length
     spent := (unexpired.filter spent).length },
    { db with signupInvitations := Table.delete spent unexpired })

/-! ### An invitation stays in its tenant -/

variable {hashToken : String → String} {db : Database} {tenantId : Uuid}

theorem findPendingInvitation_viewOf {token : String} {now : Instant} :
    findPendingInvitation hashToken (db.viewOf tenantId) tenantId token now
      = findPendingInvitation hashToken db tenantId token now := by
  have hfind : (owned SignupInvitationRow.tenantId tenantId db.signupInvitations).find?
      (fun i => i.tenantId = tenantId && i.tokenHash = hashToken token && i.consumedAt.isNone &&
        now < i.expiresAt)
      = db.signupInvitations.find? fun i => i.tenantId = tenantId &&
        i.tokenHash = hashToken token && i.consumedAt.isNone && now < i.expiresAt :=
    Table.find?_owned (by simp +contextual) _
  simp only [findPendingInvitation, Database.viewOf_signupInvitations, hfind]

theorem attachMembership_viewOf (db : Database) (tenantId userId : Uuid)
    (invitation : SignupInvitationRow) :
    attachMembership (db.viewOf tenantId) tenantId userId invitation
      = (attachMembership db tenantId userId invitation).map (Database.viewOf tenantId) := by
  let key (m : MembershipRow) : Bool := m.tenantId = tenantId && m.userId = userId
  let upgrade (m : MembershipRow) : MembershipRow :=
    { m with
      role := if m.role = .admin then m.role else invitation.role
      profileJson := invitation.answersJson }
  have hany : (owned MembershipRow.tenantId tenantId db.memberships).any key
      = db.memberships.any key := Table.any_owned (by simp +contextual [key]) _
  simp only [attachMembership, Database.viewOf_memberships]
  rw [hany]
  split_ifs with hmember
  · have hupdate : owned MembershipRow.tenantId tenantId (Table.update key upgrade db.memberships)
        = Table.update key upgrade (owned MembershipRow.tenantId tenantId db.memberships) :=
      Table.owned_update (f := upgrade) (fun _ => rfl) _
    exact congrArg (fun ms => Except.ok { db.viewOf tenantId with memberships := ms }) hupdate.symm
  · rw [← Database.checked_viewOf, Database.noTenant_viewOf, Database.noUser_viewOf,
      ← Table.owned_append_of_owned (by simp)]
    rfl

/-- An activation reads the invitation's own tenant. -/
theorem completeActivation_viewOf {invitationId userId : Uuid} {now : Instant} :
    completeActivation (db.viewOf tenantId) tenantId invitationId userId now
      = (completeActivation db tenantId invitationId userId now).map
          (Database.onView tenantId) := by
  have hfind : (owned SignupInvitationRow.tenantId tenantId db.signupInvitations).find?
      (fun i => i.tenantId = tenantId && i.id = invitationId && i.consumedAt.isNone)
      = db.signupInvitations.find? fun i => i.tenantId = tenantId && i.id = invitationId &&
        i.consumedAt.isNone :=
    Table.find?_owned (by simp +contextual) _
  have hclaim : owned SignupInvitationRow.tenantId tenantId
        (Table.update (fun i => i.tenantId = tenantId && i.id = invitationId &&
          i.consumedAt.isNone) (fun i => { i with consumedAt := some now }) db.signupInvitations)
      = Table.update (fun i => i.tenantId = tenantId && i.id = invitationId &&
          i.consumedAt.isNone) (fun i => { i with consumedAt := some now })
        (owned SignupInvitationRow.tenantId tenantId db.signupInvitations) :=
    Table.owned_update (by exact fun _ => rfl) _
  simp only [completeActivation, Database.viewOf_signupInvitations, hfind, ← hclaim]
  cases db.signupInvitations.find? fun i => i.tenantId = tenantId && i.id = invitationId &&
      i.consumedAt.isNone with
  | none => rfl
  | some invitation =>
    have hattach := attachMembership_viewOf { db with
      signupInvitations := Table.update (fun i => i.tenantId = tenantId && i.id = invitationId &&
        i.consumedAt.isNone) (fun i => { i with consumedAt := some now }) db.signupInvitations }
      tenantId userId invitation
    exact Machine.map_eq_map_map (Database.viewOf tenantId) hattach fun _ => rfl

theorem attachMembership_othersOf {userId : Uuid} {invitation : SignupInvitationRow}
    {db' : Database} (h : attachMembership db tenantId userId invitation = .ok db') :
    db'.othersOf tenantId = db.othersOf tenantId := by
  simp only [attachMembership] at h
  split_ifs at h with hmember
  · obtain rfl := Except.ok.inj h
    simp only [Database.othersOf]
    rw [Table.others_update (by simp +contextual) (by exact fun _ => rfl)]
  · obtain ⟨-, rfl⟩ := Database.checked_ok.mp h
    simp only [Database.othersOf]
    rw [Table.others_append_of_owned (by simp)]

/-- It leaves every other tenant alone. -/
theorem completeActivation_othersOf {invitationId userId : Uuid} {now : Instant} {done : Bool}
    {db' : Database}
    (h : completeActivation db tenantId invitationId userId now = .ok (done, db')) :
    db'.othersOf tenantId = db.othersOf tenantId := by
  simp only [completeActivation] at h
  split at h
  · obtain ⟨-, rfl⟩ := Prod.mk.inj (Except.ok.inj h)
    rfl
  · next invitation hinvitation =>
    obtain ⟨mid, hattach, hpair⟩ := Machine.map_eq_ok.mp h
    obtain ⟨-, rfl⟩ := Prod.mk.inj hpair
    have hclaim : others SignupInvitationRow.tenantId tenantId
        (Table.update (fun i => i.tenantId = tenantId && i.id = invitationId && i.consumedAt.isNone)
          (fun i => { i with consumedAt := some now }) db.signupInvitations)
        = others SignupInvitationRow.tenantId tenantId db.signupInvitations :=
      Table.others_update (by simp +contextual) (by exact fun _ => rfl) _
    refine (attachMembership_othersOf hattach).trans ?_
    simp only [Database.othersOf, hclaim]

end LampLight
