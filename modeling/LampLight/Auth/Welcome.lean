import LampLight.Auth.Guards
import LampLight.Auth.Links

/-!
# What the page of a link asks for

The page decides on the server what to ask the visitor for: a password, a session, or nothing but a
click. The route decides again when the answer comes. If the two disagreed, somebody would be asked
for something that does not let them in.

## Main definitions

* `activatePage`, `ActivateForm` — the page and its form
* `activatePOST` — the route, when nobody comes between its steps
* `Admitted` — the invitation is spent and its addressee has its role

## Main results

* `activatePage_promises` — whoever gives what the page asks for gets in, and nobody else does
-/

namespace LampLight

open Js

/-! ### The page and its form -/

/-- What the activation form is shown with. -/
structure ActivateForm where
  token : String
  needsPassword : Bool
  needsSignIn : Bool
deriving DecidableEq

/-- What the activation page shows. -/
inductive ActivatePage
  | notUsable
  | form (heading explanation : String) (form : ActivateForm)

/-- The page behind an activation link. -/
def activatePage (hashToken : String → String) (db : Database) (tenant : TenantContext)
    (token : Option String) (now : Instant) : ActivatePage :=
  let activationToken := token.getD ""
  let invitation :=
    if activationToken = "" then none
    else findPendingInvitation hashToken db tenant.id activationToken now
  match invitation with
  | none => .notUsable
  | some invitation =>
    let account := findAccountByEmail db invitation.email
    let needsSignIn := account.any (·.emailVerified)
    .form
      (if needsSignIn then "Sign in to join"
        else "Welcome" ++ if invitation.firstName = "" then "" else ", " ++ invitation.firstName)
      (if needsSignIn then
          "This address already has an account. Sign in with the password you already use, and " ++
            "you will be added to " ++ tenant.name ++ "."
        else "Choose a password and your " ++ tenant.name ++ " account is ready.")
      { token := activationToken, needsPassword := account.isNone, needsSignIn := needsSignIn }

/-- The form is about the link, and it never asks for both. -/
theorem activatePage_form {hashToken : String → String} {db : Database} {tenant : TenantContext}
    {token : Option String} {now : Instant} {heading explanation : String} {form : ActivateForm}
    (h : activatePage hashToken db tenant token now = .form heading explanation form) :
    form.token = token.getD "" ∧ (form.needsSignIn = true → form.needsPassword = false) := by
  simp only [activatePage] at h
  split at h
  · cases h
  · next invitation _ =>
    obtain ⟨-, -, rfl⟩ := ActivatePage.form.inj h
    refine ⟨rfl, fun hneeds => ?_⟩
    cases haccount : findAccountByEmail db invitation.email with
    | none =>
      rw [haccount] at hneeds
      exact absurd hneeds Bool.false_ne_true
    | some account => rfl

/-- What the form has come to. -/
inductive FormOutcome | idle | activated | joined | signInRequired | error
deriving DecidableEq

/-- `submit`: an empty password is left out. -/
def ActivateForm.submit (form : ActivateForm) (password : Option String) : Json :=
  match password.filter fun p => p ≠ "" with
  | none => .obj [("token", .str form.token)]
  | some p => .obj [("token", .str form.token), ("password", .str p)]

/-- What pressing the button sends. Without a field there is no password to read. -/
def ActivateForm.onSubmit (form : ActivateForm) (typed : String) : Json :=
  form.submit (if form.needsPassword then some typed else none)

/-- What the form makes of an answer. -/
def outcomeOf (response : RouteResponse) : FormOutcome :=
  if response.status = "activated" then .activated
  else if response.status = "joined" then .joined
  else if response.status = "sign_in_required" then .signInRequired
  else .error

/-- The route on its own: it has answered after four steps. -/
def activatePOST (lib : BetterAuth) (hashToken : String → String) (call : ActivationCall)
    (w : AuthWorld) : RouteResponse × AuthWorld :=
  let result := (fun s : ActivationPhase × AuthWorld =>
    activationStep lib hashToken call s.1 s.2)^[4] (.start, w)
  (match result.1 with
    | .answered response => response
    | _ => .uncaught,
    result.2)

/-! ### What the library does with a new password -/

/-- The library makes an account out of a free address and a password it accepts, and refuses every
other password. -/
structure BetterAuth.Registers (lib : BetterAuth) (accepts : String → Prop) : Prop where
  created : ∀ body draw before, accepts body.password →
    (∀ u ∈ before.users, u.email.toList ≠ toLowerCase body.email.toList) →
    (lib.signUpEmail body draw before).1 = .ok (some draw.id) ∧
      ∃ u ∈ (lib.signUpEmail body draw before).2.identity.users, u.id = draw.id ∧
        u.email.toList = toLowerCase body.email.toList
  refused : ∀ body draw before, ¬ accepts body.password →
    ∃ e, (lib.signUpEmail body draw before).1 = .error e ∧
      (lib.signUpEmail body draw before).2.identity = before

/-- What the form asks for has been given: a password that will do, a session of the address. -/
def ActivateForm.Given (accepts : String → Prop) (form : ActivateForm) (email : String)
    (password : String) (session : Option UserRow) : Prop :=
  (form.needsPassword = true → MIN_PASSWORD_LENGTH ≤ Js.length password.toList ∧
    accepts password) ∧
  (form.needsSignIn = true → ∃ user, session = some user ∧
    toLowerCase user.email.toList = email.toList)

/-- The invitation is spent, and somebody verified under its address has at least its role. -/
structure Admitted (db : Database) (row : SignupInvitationRow) : Prop where
  member : ∃ u ∈ db.users, u.emailVerified = true ∧
    toLowerCase u.email.toList = row.email.toList ∧
    ∃ role, db.roleOf row.tenantId u.id = some role ∧ RANK row.role ≤ RANK role
  spent : ∀ i ∈ db.signupInvitations, i.id = row.id → i.consumedAt ≠ none

/-! ### The last transaction -/

section Transaction

variable {db : Database} {row : SignupInvitationRow} {u : UserRow}

theorem RANK_le_upgradedRole (old : Option MembershipRole) (invited : MembershipRole) :
    RANK invited ≤ RANK (upgradedRole old invited) := by
  rw [upgradedRole]
  split_ifs
  · cases invited <;> decide
  · exact le_rfl

/-- A pending invitation lets in a user who is there. -/
theorem exists_admitted (hkeys : InvitationKeys db) (hrow : row ∈ db.signupInvitations)
    (hpending : row.consumedAt = none) (htenant : ∃ t ∈ db.tenants, t.id = row.tenantId)
    (hu : u ∈ db.users) (hemail : toLowerCase u.email.toList = row.email.toList) (now : Instant) :
    ∃ db', completeActivation db row.tenantId row.id u.id now = .ok (true, db') ∧
      Admitted db' row := by
  obtain ⟨db', hdone⟩ :=
    completeActivation_isOk now hrow ⟨rfl, rfl, hpending⟩ htenant ⟨u, hu, rfl⟩
  obtain ⟨found, spent, mid, hfound, hattach, rfl⟩ := completeActivation_writes hdone
  have hclaim : claimable row.tenantId row.id found := by simpa using List.find?_some hfound
  obtain rfl : found = row :=
    Table.eq_of_key_eq hkeys.ids (List.mem_of_find?_eq_some hfound) hrow hclaim.2.1
  refine ⟨_, hdone, ?_, (fate_completeActivation hkeys hrow hpending hdone).gone ⟨rfl, rfl, rfl⟩⟩
  obtain ⟨ms, rfl, -⟩ := attachMembership_ok hattach
  refine ⟨found.provenUser u, Table.mem_update.mpr (Or.inr ⟨u, hu, by simp, rfl⟩), by simp,
    by simpa using hemail, _, ?_, RANK_le_upgradedRole (db.roleOf found.tenantId u.id) found.role⟩
  rw [provenUser_id]
  exact completeActivation_roleOf hfound hdone

end Transaction

/-! ### The route, case by case -/

/-- What the form sends is read back by the route. -/
theorem token_of_onSubmit {call : ActivationCall} {shown : ActivateForm} {typed : String}
    (hbody : call.body = some (shown.onSubmit typed)) :
    call.token = shown.token ∧ call.password = if shown.needsPassword then typed else "" := by
  rw [ActivationCall.token, ActivationCall.password, hbody, ActivateForm.onSubmit,
    ActivateForm.submit]
  split_ifs with hneeds
  · by_cases hempty : typed = ""
    · subst hempty
      exact ⟨rfl, rfl⟩
    · have hkept : (some typed).filter (fun p => decide (p ≠ "")) = some typed :=
        Option.filter_eq_some_iff.mpr ⟨rfl, decide_eq_true hempty⟩
      rw [hkept]
      exact ⟨rfl, rfl⟩
  · exact ⟨rfl, rfl⟩

section Route

variable {lib : BetterAuth} {hashToken : String → String} {w w' : AuthWorld}
  {call : ActivationCall} {tenantId : Uuid} {invitation : PendingInvitation}
  {account : GlobalAccount} {response : RouteResponse}

/-- Four steps, of which those after an answer do nothing. -/
theorem activatePOST_answered
    (hopen : openActivation hashToken call w.db = .answered response) :
    activatePOST lib hashToken call w = (response, w) := by
  simp only [activatePOST, Function.iterate_succ_apply, Function.iterate_zero_apply,
    activationStep, hopen]

/-- A new address and a short password. -/
theorem activatePOST_short
    (hopen : openActivation hashToken call w.db = .invited tenantId invitation)
    (hnone : findAccountByEmail w.db invitation.email = none)
    (hshort : Js.length call.password.toList < MIN_PASSWORD_LENGTH) :
    activatePOST lib hashToken call w = (shortPassword, w) := by
  have hlook : lookUpAccount call tenantId invitation w.db = .answered shortPassword := by
    rw [lookUpAccount, hnone]
    exact if_pos hshort
  simp only [activatePOST, Function.iterate_succ_apply, Function.iterate_zero_apply,
    activationStep, hopen, hlook]

/-- A new address and a password that is long enough. -/
theorem activatePOST_creating
    (hopen : openActivation hashToken call w.db = .invited tenantId invitation)
    (hnone : findAccountByEmail w.db invitation.email = none)
    (hlong : ¬ Js.length call.password.toList < MIN_PASSWORD_LENGTH)
    {s : ActivationPhase × AuthWorld} (hcreate : createAccount lib call tenantId invitation w = s)
    (hlast : activationStep lib hashToken call s.1 s.2 = (.answered response, w')) :
    activatePOST lib hashToken call w = (response, w') := by
  have hlook : lookUpAccount call tenantId invitation w.db = .creating tenantId invitation := by
    rw [lookUpAccount, hnone]
    exact if_neg hlong
  have hfirst : activationStep lib hashToken call .start w = (.invited tenantId invitation, w) :=
    congrArg (·, w) hopen
  have hsecond : activationStep lib hashToken call (.invited tenantId invitation) w
      = (.creating tenantId invitation, w) := congrArg (·, w) hlook
  have hthird : activationStep lib hashToken call (.creating tenantId invitation) w = s := hcreate
  simp only [activatePOST, Function.iterate_succ_apply, Function.iterate_zero_apply, hfirst,
    hsecond, hthird, hlast]

/-- A known address. -/
theorem activatePOST_known
    (hopen : openActivation hashToken call w.db = .invited tenantId invitation)
    (hsome : findAccountByEmail w.db invitation.email = some account) {phase : ActivationPhase}
    (hchoose : chooseCase lib call tenantId invitation account w.db = phase)
    (hlast : activationStep lib hashToken call phase w = (.answered response, w')) :
    activatePOST lib hashToken call w = (response, w') := by
  have hlook : lookUpAccount call tenantId invitation w.db
      = .known tenantId invitation account := by
    rw [lookUpAccount, hsome]
  have hfirst : activationStep lib hashToken call .start w = (.invited tenantId invitation, w) :=
    congrArg (·, w) hopen
  have hsecond : activationStep lib hashToken call (.invited tenantId invitation) w
      = (.known tenantId invitation account, w) := congrArg (·, w) hlook
  have hthird : activationStep lib hashToken call (.known tenantId invitation account) w
      = (phase, w) := congrArg (·, w) hchoose
  simp only [activatePOST, Function.iterate_succ_apply, Function.iterate_zero_apply, hfirst,
    hsecond, hthird, hlast]

/-- The last step for somebody whom the invitation is for. -/
theorem finish_letsIn (lib : BetterAuth) (hashToken : String → String) (w : AuthWorld)
    {row : SignupInvitationRow} {u : UserRow} (how : ActivationCase) (hfault : call.fault = none)
    (hkeys : InvitationKeys w.db) (hrow : row ∈ w.db.signupInvitations)
    (hpending : row.consumedAt = none) (htenant : ∃ t ∈ w.db.tenants, t.id = row.tenantId)
    (hu : u ∈ w.db.users) (hemail : toLowerCase u.email.toList = row.email.toList) :
    ∃ w', activationStep lib hashToken call (.finishing row.tenantId row.id u.id how) w
      = (.answered { code := 200, status := how.status }, w') ∧ Admitted w'.db row := by
  obtain ⟨db', hdone, hadmitted⟩ :=
    exists_admitted hkeys hrow hpending htenant hu hemail call.finishedAt
  refine ⟨{ w with db := db' }, ?_, hadmitted⟩
  show finish call row.tenantId row.id u.id how w = _
  rw [finish, hfault, hdone]

end Route

/-! ### The page and the route -/

/-- The form says that it worked, and it did. -/
def LetsIn (result : RouteResponse × AuthWorld) (row : SignupInvitationRow) : Prop :=
  (outcomeOf result.1 = .activated ∨ outcomeOf result.1 = .joined) ∧ Admitted result.2.db row

theorem letsIn_of_status (how : ActivationCase) {w' : AuthWorld} {row : SignupInvitationRow}
    (h : Admitted w'.db row) : LetsIn ({ code := 200, status := how.status }, w') row := by
  refine ⟨?_, h⟩
  cases how
  · exact Or.inl rfl
  · exact Or.inr rfl
  · exact Or.inl rfl

section Promise

variable {lib : BetterAuth} {accepts : String → Prop} {hashToken : String → String}
  {w : AuthWorld} {call : ActivationCall} {invitation : PendingInvitation}
  {row : SignupInvitationRow}

/-- An address without an account. -/
theorem promise_new (hreg : lib.Registers accepts) (hfault : call.fault = none)
    (hkeys : InvitationKeys w.db) (hrow : row ∈ w.db.signupInvitations)
    (hpending : row.consumedAt = none) (hnormal : normalizeEmail row.email = row.email)
    (htenant : ∃ t ∈ w.db.tenants, t.id = row.tenantId) (hid : invitation.id = row.id)
    (hemail : invitation.email = row.email)
    (hopen : openActivation hashToken call w.db = .invited row.tenantId invitation)
    (hnone : findAccountByEmail w.db invitation.email = none) :
    (MIN_PASSWORD_LENGTH ≤ Js.length call.password.toList ∧ accepts call.password →
      LetsIn (activatePOST lib hashToken call w) row) ∧
    (¬ (MIN_PASSWORD_LENGTH ≤ Js.length call.password.toList ∧ accepts call.password) →
      outcomeOf (activatePOST lib hashToken call w).1 = .error ∧
        (activatePOST lib hashToken call w).2.db = w.db) := by
  have hlower : toLowerCase row.email.toList = row.email.toList := by
    rw [← hnormal, toLowerCase_normalizeEmail]
  have hfree : ∀ u ∈ w.db.users, u.email.toList ≠ toLowerCase invitation.email.toList := by
    intro u hu heq
    rw [hemail, hlower, String.toList_inj] at heq
    rw [findAccountByEmail, Option.map_eq_none_iff, hemail, hnormal] at hnone
    exact List.find?_eq_none.mp hnone u hu (decide_eq_true heq)
  let body : SignUpEmailBody :=
    { email := invitation.email, password := call.password, name := invitation.displayName }
  constructor
  · rintro ⟨hlong, haccepts⟩
    obtain ⟨hreturned, u, hu, huid, huemail⟩ :=
      hreg.created body call.draw w.db.toIdentity haccepts hfree
    let w₁ := w.absorb [call.token] call.draw (lib.signUpEmail body call.draw w.db.toIdentity).2
    have hcreate : createAccount lib call row.tenantId invitation w
        = (.finishing row.tenantId row.id u.id .created, w₁) := by
      simp only [createAccount]
      rw [hreturned, hid, huid]
    have huemail' : toLowerCase u.email.toList = row.email.toList := by
      rw [huemail, toLowerCase_idem]
      show toLowerCase invitation.email.toList = _
      rw [hemail, hlower]
    obtain ⟨w', hlast, hadmitted⟩ := finish_letsIn lib hashToken w₁ .created hfault
      ⟨hkeys.ids, hkeys.hashes⟩ hrow hpending htenant hu huemail'
    rw [activatePOST_creating hopen hnone (by omega) hcreate hlast]
    exact letsIn_of_status .created hadmitted
  · intro hrefused
    by_cases hshort : Js.length call.password.toList < MIN_PASSWORD_LENGTH
    · rw [activatePOST_short hopen hnone hshort]
      exact ⟨rfl, rfl⟩
    · obtain ⟨e, herror, hsame⟩ := hreg.refused body call.draw w.db.toIdentity
        fun haccepts => hrefused ⟨by omega, haccepts⟩
      have hcreate : createAccount lib call row.tenantId invitation w
          = (.answered .uncaught, w.absorb [call.token] call.draw
            (lib.signUpEmail body call.draw w.db.toIdentity).2) := by
        simp only [createAccount]
        rw [herror]
      rw [activatePOST_creating hopen hnone hshort hcreate rfl]
      refine ⟨rfl, ?_⟩
      show { w.db with toIdentity := (lib.signUpEmail body call.draw w.db.toIdentity).2.identity }
        = w.db
      rw [hsame]

/-- An address with an account. -/
theorem promise_known (hlib : lib.Documented) {account : GlobalAccount} (hfault : call.fault = none)
    (hkeys : InvitationKeys w.db) (hrow : row ∈ w.db.signupInvitations)
    (hpending : row.consumedAt = none) (hnormal : normalizeEmail row.email = row.email)
    (htenant : ∃ t ∈ w.db.tenants, t.id = row.tenantId) (hid : invitation.id = row.id)
    (hemail : invitation.email = row.email)
    (hopen : openActivation hashToken call w.db = .invited row.tenantId invitation)
    (hsome : findAccountByEmail w.db invitation.email = some account) :
    let session := lib.getSession call.cookie call.draw.now w.db.toIdentity
    ((account.emailVerified = true → ∃ user, session = some user ∧
        toLowerCase user.email.toList = row.email.toList) →
      LetsIn (activatePOST lib hashToken call w) row) ∧
    (¬ (account.emailVerified = true → ∃ user, session = some user ∧
        toLowerCase user.email.toList = row.email.toList) →
      outcomeOf (activatePOST lib hashToken call w).1 = .signInRequired ∧
        (activatePOST lib hashToken call w).2.db = w.db) := by
  intro session
  cases howner : session.filter fun user =>
      toLowerCase user.email.toList = invitation.email.toList with
  | some user =>
    obtain ⟨hsession, howns⟩ := Option.filter_eq_some_iff.mp howner
    rw [decide_eq_true_eq, hemail] at howns
    have hchoose : chooseCase lib call row.tenantId invitation account w.db
        = .finishing row.tenantId row.id user.id .signedIn := by
      rw [chooseCase, howner, hid]
    refine ⟨fun _ => ?_, fun hnot => absurd (fun _ => ⟨user, hsession, howns⟩) hnot⟩
    obtain ⟨w', hlast, hadmitted⟩ := finish_letsIn lib hashToken w .signedIn hfault hkeys hrow
      hpending htenant (hlib.getSession _ _ _ _ hsession).1 howns
    rw [activatePOST_known hopen hsome hchoose hlast]
    exact letsIn_of_status .signedIn hadmitted
  | none =>
    have hnobody : ¬ ∃ user, session = some user ∧
        toLowerCase user.email.toList = row.email.toList := by
      rintro ⟨user, hsession, howns⟩
      rw [hsession, Option.filter_eq_none_iff] at howner
      exact howner user rfl (by rw [hemail]; exact decide_eq_true howns)
    by_cases hverified : account.emailVerified = true
    · have hchoose : chooseCase lib call row.tenantId invitation account w.db
          = .answered { code := 200, status := "sign_in_required" } := by
        rw [chooseCase, howner]
        exact if_pos hverified
      rw [activatePOST_known hopen hsome hchoose rfl]
      exact ⟨fun hgiven => absurd (hgiven hverified) hnobody, fun _ => ⟨rfl, rfl⟩⟩
    · refine ⟨fun _ => ?_, fun hnot => absurd (fun h => absurd h hverified) hnot⟩
      obtain ⟨u, hfind, hu⟩ := Option.map_eq_some_iff.mp hsome
      have hstored : u.email = row.email := by
        have hfound := List.find?_some hfind
        rw [decide_eq_true_eq, hemail, hnormal] at hfound
        exact hfound
      have hchoose : chooseCase lib call row.tenantId invitation account w.db
          = .finishing row.tenantId row.id u.id .resumed := by
        rw [chooseCase, howner, hid, ← hu]
        exact if_neg (by rwa [← hu] at hverified)
      have hlower : toLowerCase u.email.toList = row.email.toList := by
        rw [hstored, ← hnormal, toLowerCase_normalizeEmail]
      obtain ⟨w', hlast, hadmitted⟩ := finish_letsIn lib hashToken w .resumed hfault hkeys hrow
        hpending htenant (List.mem_of_find?_eq_some hfind) hlower
      rw [activatePOST_known hopen hsome hchoose hlast]
      exact letsIn_of_status .resumed hadmitted

end Promise

/-- **The page asks for what the route wants.** Somebody sends a form of a link, rendered now or
earlier, and nobody comes between the steps of the request. If the page would now say that the link
is not usable, the request is refused. Otherwise it lets the addressee of the invitation in, with at
least its role, when what the page would now ask for is given; and when it is not, it changes
nothing and the form says what is missing. -/
theorem activatePage_promises {lib : BetterAuth} {accepts : String → Prop}
    (hashToken : String → String) (hlib : lib.Documented) (hreg : lib.Registers accepts)
    {w : AuthWorld} (hkeys : InvitationKeys w.db)
    (hnormal : ∀ i ∈ w.db.signupInvitations, normalizeEmail i.email = i.email)
    {tenant : TenantContext} (htenant : ∃ t ∈ w.db.tenants, t.id = tenant.id)
    {call : ActivationCall} (hhere : call.tenant = some tenant) (hfault : call.fault = none)
    {shown : ActivateForm} {typed : String} (hbody : call.body = some (shown.onSubmit typed)) :
    match activatePage hashToken w.db tenant (some shown.token) call.foundAt with
    | .notUsable => activatePOST lib hashToken call w = (REFUSED, w)
    | .form _ _ form =>
      let password := if shown.needsPassword then typed else ""
      let session := lib.getSession call.cookie call.draw.now w.db.toIdentity
      ∃ row ∈ w.db.signupInvitations, row.tenantId = tenant.id ∧
        row.tokenHash = hashToken shown.token ∧
        (form.Given accepts row.email password session →
          LetsIn (activatePOST lib hashToken call w) row) ∧
        (¬ form.Given accepts row.email password session →
          outcomeOf (activatePOST lib hashToken call w).1
              = (if form.needsSignIn then .signInRequired else .error) ∧
            (activatePOST lib hashToken call w).2.db = w.db) := by
  obtain ⟨htoken, hpassword⟩ := token_of_onSubmit hbody
  have hread : ∃ body, readBody REFUSED call.body = .ok body := by
    rw [hbody, ActivateForm.onSubmit, ActivateForm.submit]
    split <;> exact ⟨_, rfl⟩
  obtain ⟨body, hread⟩ := hread
  have hfind : (if shown.token = "" then none
      else findPendingInvitation hashToken w.db tenant.id shown.token call.foundAt)
      = findPendingInvitation hashToken w.db tenant.id shown.token call.foundAt := by
    split_ifs with hempty
    · rw [findPendingInvitation, if_pos hempty]
    · rfl
  simp only [activatePage, Option.getD_some, hfind]
  cases hfound : findPendingInvitation hashToken w.db tenant.id shown.token call.foundAt with
  | none =>
    refine activatePOST_answered ?_
    rw [openActivation, hhere]
    dsimp only
    rw [hread]
    dsimp only
    rw [htoken, hfound]
  | some invitation =>
    obtain ⟨row, hrow, hrowTenant, hhash, hpending, -, hid, hemail⟩ :=
      findPendingInvitation_some hfound
    have hopen : openActivation hashToken call w.db = .invited row.tenantId invitation := by
      rw [openActivation, hhere]
      dsimp only
      rw [hread]
      dsimp only
      rw [htoken, hfound, hrowTenant]
    refine ⟨row, hrow, hrowTenant, hhash, ?_⟩
    rw [← hpassword]
    cases haccount : findAccountByEmail w.db invitation.email with
    | none =>
      obtain ⟨hin, hout⟩ := promise_new hreg hfault hkeys hrow hpending (hnormal row hrow)
        (hrowTenant ▸ htenant) hid hemail hopen haccount
      refine ⟨fun hgiven => hin (hgiven.1 rfl), fun hnot => hout fun h => hnot ⟨fun _ => h, ?_⟩⟩
      exact fun hsignIn => absurd hsignIn Bool.false_ne_true
    | some account =>
      obtain ⟨hin, hout⟩ := promise_known hlib hfault hkeys hrow hpending (hnormal row hrow)
        (hrowTenant ▸ htenant) hid hemail hopen haccount
      refine ⟨fun hgiven => hin hgiven.2, fun hnot => ?_⟩
      have hmissing : ¬ (account.emailVerified = true → ∃ user,
          lib.getSession call.cookie call.draw.now w.db.toIdentity = some user ∧
            toLowerCase user.email.toList = row.email.toList) :=
        fun h => hnot ⟨fun hneeds => absurd hneeds Bool.false_ne_true, h⟩
      have hverified : (some account).any (·.emailVerified) = true := by
        by_contra hunverified
        exact hmissing fun h => absurd h hunverified
      dsimp only
      rw [if_pos hverified]
      exact hout hmissing

/-! ### Ada follows her link -/

section Example

theorem registers_plainAuth :
    plainAuth.Registers fun p => MIN_PASSWORD_LENGTH ≤ Js.length p.toList where
  created := by
    intro body draw before haccepts hfree
    have hnobody : ¬ (before.users.any fun u =>
        u.email = String.ofList (toLowerCase body.email.toList)) = true := by
      intro h
      obtain ⟨u, hu, heq⟩ := List.any_eq_true.mp h
      exact hfree u hu (by rw [of_decide_eq_true heq, String.toList_ofList])
    show (plainSignUp body draw before).1 = _ ∧
      ∃ u ∈ (plainSignUp body draw before).2.identity.users, _
    rw [plainSignUp, if_neg (by omega), if_neg hnobody]
    exact ⟨rfl, _, List.mem_append_right _ (List.mem_singleton.mpr rfl), rfl, String.toList_ofList⟩
  refused := by
    intro body draw before hrefused
    show ∃ e, (plainSignUp body draw before).1 = _ ∧ (plainSignUp body draw before).2.identity = _
    rw [plainSignUp, if_pos (by omega)]
    exact ⟨_, rfl, rfl⟩

/-- The form of her link, as it was rendered for her. -/
def adasForm : ActivateForm where
  token := "secret"
  needsPassword := true
  needsSignIn := false

/-- Ada sends the form with a password. -/
def adasPost : ActivationCall where
  tenant := some graceHost
  body := some (adasForm.onSubmit "chosen by ada")
  cookie := none
  draw := { id := 8, token := "unused", now := 2 }
  foundAt := 2
  finishedAt := 3

/-- She has no account, chooses a password that is long enough, and is a student of the
institute. -/
theorem activatePage_promises_ada :
    LetsIn (activatePOST plainAuth id adasPost adaInvited) adasRow := by
  have hkeys : InvitationKeys adaInvited.db := ⟨by decide, by decide⟩
  have htenant : ∃ t ∈ adaInvited.db.tenants, t.id = graceHost.id :=
    ⟨_, List.mem_singleton.mpr rfl, rfl⟩
  have hhere : adasPost.tenant = some graceHost := rfl
  have hbody : adasPost.body = some (adasForm.onSubmit "chosen by ada") := rfl
  have hnormal : ∀ i ∈ adaInvited.db.signupInvitations, normalizeEmail i.email = i.email := by
    intro i hi
    rw [List.mem_singleton.mp hi]
    decide
  obtain ⟨row, hrow, -, -, hin, -⟩ := activatePage_promises id documented_plainAuth
    registers_plainAuth hkeys hnormal htenant hhere rfl hbody
  obtain rfl : row = adasRow := List.mem_singleton.mp hrow
  exact hin ⟨fun _ => by decide, fun h => nomatch h⟩

end Example

end LampLight
