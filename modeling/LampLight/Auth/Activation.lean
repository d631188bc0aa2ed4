import LampLight.Auth.BetterAuth

/-!
# Where an invitation becomes an account

The activation route, cut at its awaits: between two of them anybody else may act, and a process
that dies simply never takes its next step.

Three cases follow the look-up of the account. Without one it is created with the password of the
request; somebody signed in under the address joins; and an account whose address is not verified is
resumed with the password it already has. An established account needs a session.
-/

namespace LampLight

open Js

/-- The shortest password that is taken, in code units. -/
def MIN_PASSWORD_LENGTH : ℕ := 12

/-- The one answer to every link that does not work. -/
def REFUSED : RouteResponse where
  code := 400
  status := "error"
  message := some "That link is no longer usable. Ask for a new one."

/-- The answer to a password that is too short. -/
def shortPassword : RouteResponse where
  code := 400
  status := "error"
  message := some
    ("Choose a password of at least " ++ toString MIN_PASSWORD_LENGTH ++ " characters.")

/-- Which of the three cases a call is in. -/
inductive ActivationCase | created | signedIn | resumed
deriving DecidableEq

/-- The status of the answer. -/
def ActivationCase.status : ActivationCase → String
  | .created => "activated"
  | .signedIn => "joined"
  | .resumed => "activated"

/-- How far a call has come. -/
inductive ActivationPhase
  | start
  | invited (tenantId : Uuid) (invitation : PendingInvitation)
  | creating (tenantId : Uuid) (invitation : PendingInvitation)
  | known (tenantId : Uuid) (invitation : PendingInvitation) (account : GlobalAccount)
  | finishing (tenantId invitationId userId : Uuid) (how : ActivationCase)
  | answered (response : RouteResponse)

/-- One POST, with what the environment decides during it. -/
structure ActivationCall where
  tenant : Option TenantContext
  body : Option Json
  cookie : Option String
  draw : AuthDraw
  foundAt : Instant
  finishedAt : Instant
  /-- A failure of the last transaction that has nothing to do with its statements. -/
  fault : Option DbError := none

/-- `typeof body.token === 'string' ? body.token : ''`, and nothing of an unreadable body. -/
def ActivationCall.token (call : ActivationCall) : String :=
  (call.body.map fun body => textField body "token").getD ""

/-- The password a request gives, or the empty text. -/
def ActivationCall.password (call : ActivationCall) : String :=
  (call.body.map fun body => textField body "password").getD ""

/-- The name a new account starts with: the invitation's, or the address. -/
def PendingInvitation.displayName (invitation : PendingInvitation) : String :=
  let names := [invitation.firstName, invitation.lastName].filter fun s => s ≠ ""
  let joined := String.intercalate " " names
  if joined = "" then invitation.email else joined

variable (lib : BetterAuth) (hashToken : String → String)

/-- Up to the invitation. -/
def openActivation (call : ActivationCall) (db : Database) : ActivationPhase :=
  match call.tenant with
  | none => .answered { code := 404, status := "not_found" }
  | some tenant =>
    match readBody REFUSED call.body with
    | .error response => .answered response
    | .ok _ =>
      match findPendingInvitation hashToken db tenant.id call.token call.foundAt with
      | none => .answered REFUSED
      | some invitation => .invited tenant.id invitation

/-- Whether there is an account, and whether the password will do for a new one. -/
def lookUpAccount (call : ActivationCall) (tenantId : Uuid) (invitation : PendingInvitation)
    (db : Database) : ActivationPhase :=
  match findAccountByEmail db invitation.email with
  | some account => .known tenantId invitation account
  | none =>
    if Js.length call.password.toList < MIN_PASSWORD_LENGTH then .answered shortPassword
    else .creating tenantId invitation

/-- The first case. -/
def createAccount (call : ActivationCall) (tenantId : Uuid) (invitation : PendingInvitation)
    (w : AuthWorld) : ActivationPhase × AuthWorld :=
  let result := lib.signUpEmail
    { email := invitation.email, password := call.password, name := invitation.displayName }
    call.draw w.db.toIdentity
  (match result.1 with
    | .error _ => .answered .uncaught
    | .ok none => .answered REFUSED
    | .ok (some userId) => .finishing tenantId invitation.id userId .created,
    w.absorb [call.token] call.draw result.2)

/-- The second case, and the third when the address is not verified. -/
def chooseCase (call : ActivationCall) (tenantId : Uuid) (invitation : PendingInvitation)
    (account : GlobalAccount) (db : Database) : ActivationPhase :=
  match (lib.getSession call.cookie call.draw.now db.toIdentity).filter fun user =>
      toLowerCase user.email.toList = invitation.email.toList with
  | some user => .finishing tenantId invitation.id user.id .signedIn
  | none =>
    if account.emailVerified then .answered { code := 200, status := "sign_in_required" }
    else .finishing tenantId invitation.id account.id .resumed

/-- The transaction at the end of each case. A statement that throws takes the others with it. -/
def finish (call : ActivationCall) (tenantId invitationId userId : Uuid) (how : ActivationCase)
    (w : AuthWorld) : ActivationPhase × AuthWorld :=
  match call.fault, completeActivation w.db tenantId invitationId userId call.finishedAt with
  | some _, _ => (.answered .uncaught, w)
  | none, .error _ => (.answered .uncaught, w)
  | none, .ok (false, db) => (.answered REFUSED, { w with db := db })
  | none, .ok (true, db) => (.answered { code := 200, status := how.status }, { w with db := db })

/-- One step of a call. -/
def activationStep (call : ActivationCall) (phase : ActivationPhase) (w : AuthWorld) :
    ActivationPhase × AuthWorld :=
  match phase with
  | .start => (openActivation hashToken call w.db, w)
  | .invited tenantId invitation => (lookUpAccount call tenantId invitation w.db, w)
  | .creating tenantId invitation => createAccount lib call tenantId invitation w
  | .known tenantId invitation account => (chooseCase lib call tenantId invitation account w.db, w)
  | .finishing tenantId invitationId userId how => finish call tenantId invitationId userId how w
  | .answered response => (.answered response, w)

/-! ### Where a step leads -/

variable {lib hashToken} {call : ActivationCall} {tenantId : Uuid}
  {invitation : PendingInvitation} {db : Database}

theorem openActivation_cases (hashToken : String → String) (call : ActivationCall)
    (db : Database) :
    (∃ response, openActivation hashToken call db = .answered response) ∨
      ∃ tenantId invitation, openActivation hashToken call db = .invited tenantId invitation ∧
        findPendingInvitation hashToken db tenantId call.token call.foundAt = some invitation := by
  rw [openActivation]
  split
  · exact Or.inl ⟨_, rfl⟩
  · split
    · exact Or.inl ⟨_, rfl⟩
    · split
      · exact Or.inl ⟨_, rfl⟩
      · next hfind => exact Or.inr ⟨_, _, rfl, hfind⟩

theorem lookUpAccount_cases (call : ActivationCall) (tenantId : Uuid)
    (invitation : PendingInvitation) (db : Database) :
    (∃ response, lookUpAccount call tenantId invitation db = .answered response) ∨
      lookUpAccount call tenantId invitation db = .creating tenantId invitation ∨
      ∃ account, lookUpAccount call tenantId invitation db = .known tenantId invitation account ∧
        findAccountByEmail db invitation.email = some account := by
  rw [lookUpAccount]
  split
  · next hfind => exact Or.inr (Or.inr ⟨_, rfl, hfind⟩)
  · split_ifs
    · exact Or.inl ⟨_, rfl⟩
    · exact Or.inr (Or.inl rfl)

/-- What the first case leads to, with the world after the library's call. -/
theorem createAccount_cases (lib : BetterAuth) (call : ActivationCall) (tenantId : Uuid)
    (invitation : PendingInvitation) (w : AuthWorld) :
    ∃ body : SignUpEmailBody, body.email = invitation.email ∧
      (createAccount lib call tenantId invitation w).2
        = w.absorb [call.token] call.draw (lib.signUpEmail body call.draw w.db.toIdentity).2 ∧
      ((∃ response, (createAccount lib call tenantId invitation w).1 = .answered response) ∨
        ∃ userId, (lib.signUpEmail body call.draw w.db.toIdentity).1 = .ok (some userId) ∧
          (createAccount lib call tenantId invitation w).1
            = .finishing tenantId invitation.id userId .created) := by
  refine ⟨{ email := invitation.email, password := call.password,
            name := invitation.displayName }, rfl, rfl, ?_⟩
  simp only [createAccount]
  split
  · exact Or.inl ⟨_, rfl⟩
  · exact Or.inl ⟨_, rfl⟩
  · next userId hreturned => exact Or.inr ⟨userId, hreturned, rfl⟩

theorem chooseCase_cases (lib : BetterAuth) (call : ActivationCall) (tenantId : Uuid)
    (invitation : PendingInvitation) (account : GlobalAccount) (db : Database) :
    (∃ response, chooseCase lib call tenantId invitation account db = .answered response) ∨
      (∃ user, lib.getSession call.cookie call.draw.now db.toIdentity = some user ∧
        toLowerCase user.email.toList = invitation.email.toList ∧
        chooseCase lib call tenantId invitation account db
          = .finishing tenantId invitation.id user.id .signedIn) ∨
      account.emailVerified = false ∧
        chooseCase lib call tenantId invitation account db
          = .finishing tenantId invitation.id account.id .resumed := by
  rw [chooseCase]
  split
  · next user hsession =>
    right
    left
    obtain ⟨hsome, hemail⟩ := Option.filter_eq_some_iff.mp hsession
    exact ⟨user, hsome, of_decide_eq_true hemail, rfl⟩
  · split_ifs with hverified
    · exact Or.inl ⟨_, rfl⟩
    · exact Or.inr (Or.inr ⟨by simpa using hverified, rfl⟩)

theorem finish_cases (call : ActivationCall) (tenantId invitationId userId : Uuid)
    (how : ActivationCase) (w : AuthWorld) :
    ∃ response, (finish call tenantId invitationId userId how w).1 = .answered response ∧
      ((finish call tenantId invitationId userId how w).2 = w ∨
        call.fault = none ∧ ∃ done db,
          completeActivation w.db tenantId invitationId userId call.finishedAt
            = .ok (done, db) ∧
          (finish call tenantId invitationId userId how w).2 = { w with db := db }) := by
  rw [finish]
  split
  · exact ⟨_, rfl, Or.inl rfl⟩
  · exact ⟨_, rfl, Or.inl rfl⟩
  · next hfault hok => exact ⟨_, rfl, Or.inr ⟨hfault, _, _, hok, rfl⟩⟩
  · next hfault hok => exact ⟨_, rfl, Or.inr ⟨hfault, _, _, hok, rfl⟩⟩

end LampLight
