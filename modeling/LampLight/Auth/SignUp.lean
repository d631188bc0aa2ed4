import LampLight.Auth.BetterAuth
import LampLight.Signup.Questions

/-!
# Asking for a link

Three ways to have a link mailed: signing up on an institute's domain, being invited by its office,
and asking for a password reset. None of them creates an account. What an anonymous caller is told
depends on the shape of the request only.

A route here stops where the mail would leave: it returns the letter, and sending it is a step of
its own. The text of a mail is not modelled, and with it the lookup that only chooses the words.

## Main results

* `signUp_invites`, `inviteOne_invites` — the letter goes to the address of the invitation behind it
-/

namespace LampLight

open Js

/-! ### Signing up -/

/-- `{ status: 'ok', … }`, whatever happened. -/
def SIGN_UP_RESPONSE : RouteResponse where
  code := 200
  status := "ok"
  message := some "Check your email. If that address can be registered, a link is on its way."

/-- The answer on a host that is no institute's. -/
def tenantNotFound : RouteResponse where
  code := 404
  status := "not_found"

/-- The answer to a request of the wrong shape. -/
def invalidRequest : RouteResponse where
  code := 400
  status := "invalid"

/-- `/^[^\s@]+@[^\s@.]+\.[^\s@]+$/`, and at most 320 code units. -/
def isPlausibleEmail (value : List Char) : Bool :=
  Js.length value ≤ 320 && value.all (fun c => !isSpace c) &&
    match value.splitOn '@' with
    | [name, domain] =>
      name ≠ [] && upTo '.' domain ≠ [] && 2 ≤ (domain.dropWhile fun c => c ≠ '.').length
    | _ => false

/-- A sign-up that has passed its checks. -/
structure SignUpSubmission where
  email : String
  firstName : String
  lastName : String
  answers : List (String × Json)

/-- A name as its column takes it: trimmed, and its first hundred code units. -/
def nameField (body : Json) (key : String) : String :=
  String.ofList (ofUnits ((units (trim (textField body key).toList)).take 100))

/-- `typeof body.answers === 'object' && body.answers !== null ? body.answers : {}`. -/
def submittedAnswers (body : Json) : Json :=
  match body.get? "answers" with
  | some (.obj fields) => .obj fields
  | some (.arr items) => .arr items
  | _ => .obj []

/-- The settings of an institute. -/
def tenantSettingsOf (db : Database) (tenantId : Uuid) : Option TenantSettingsRow :=
  db.tenantSettings.find? fun s => s.tenantId = tenantId

/-- The checks of a submission. Answers are checked whether or not the institute takes students. -/
def readSubmission (db : Database) (tenantId : Uuid) (body : Option Json) :
    Except RouteResponse SignUpSubmission := do
  let body ← readBody invalidRequest body
  let email := normalizeEmail (textField body "email")
  let firstName := nameField body "firstName"
  let lastName := nameField body "lastName"
  if !isPlausibleEmail email.toList || firstName = "" || lastName = "" then .error invalidRequest
  else
    match validateAnswers (parseQuestions
        ((tenantSettingsOf db tenantId).map TenantSettingsRow.signupQuestionsJson))
        (submittedAnswers body) with
    | .error errors => .error { invalidRequest with errors := errors }
    | .ok answers => .ok ⟨email, firstName, lastName, answers⟩

/-- The platform's switch and the institute's own decision. -/
def takesSignUps (env : Env) (db : Database) (tenantId : Uuid) : Bool :=
  env.selfServeSignup && (tenantSettingsOf db tenantId).any fun s => s.signupMode = .open

/-- `POST /api/tenant/sign-up`, with the letter it wants sent. -/
def signUp (env : Env) (hashToken : String → String) (db : Database)
    (tenant : Option TenantContext) (body : Option Json) (draw : InvitationDraw) :
    RouteResponse × Option Letter × Database :=
  match tenant with
  | none => (tenantNotFound, none, db)
  | some tenant =>
    match readSubmission db tenant.id body with
    | .error response => (response, none, db)
    | .ok submission =>
      if takesSignUps env db tenant.id then
        match issueInvitation hashToken db
            { tenantId := tenant.id
              host := tenant.host
              email := submission.email
              firstName := submission.firstName
              lastName := submission.lastName
              role := none
              answers := some submission.answers } draw with
        -- A failure is swallowed: answering it would tell two addresses apart.
        | .error _ => (SIGN_UP_RESPONSE, none, db)
        | .ok (none, db') => (SIGN_UP_RESPONSE, none, db')
        | .ok (some _, db') => (SIGN_UP_RESPONSE, some ⟨submission.email, draw.token⟩, db')
      else (SIGN_UP_RESPONSE, none, db)

section SignUp

variable {env : Env} {hashToken : String → String} {db : Database} {tenant : TenantContext}
  {body : Option Json} {draw : InvitationDraw}

theorem readSubmission_email {tenantId : Uuid} {submission : SignUpSubmission}
    (h : readSubmission db tenantId body = .ok submission) :
    normalizeEmail submission.email = submission.email := by
  obtain ⟨value, -, h⟩ := Machine.bind_eq_ok.mp h
  simp only at h
  split_ifs at h
  split at h
  · cases h
  · obtain rfl := Except.ok.inj h
    exact normalizeEmail_idem _

/-- What a sign-up writes is what issuing an invitation writes. -/
theorem signUp_issues (env : Env) (hashToken : String → String) (db : Database)
    (tenant : Option TenantContext) (body : Option Json) (draw : InvitationDraw) :
    Issues db (signUp env hashToken db tenant body draw).2.2 draw.id := by
  have hnothing : Issues db db draw.id := Issues.refl _ _
  rw [signUp.eq_def]
  split
  · exact hnothing
  · split
    · exact hnothing
    · split_ifs
      · split
        · exact hnothing
        · next hissue => exact issueInvitation_issues hissue
        · next hissue => exact issueInvitation_issues hissue
      · exact hnothing

/-- A sign-up writes at most an invitation, and the letter it wants sent carries its token to its
address. -/
theorem signUp_invites (env : Env) (hashToken : String → String) (db : Database)
    (tenant : Option TenantContext) (body : Option Json) (draw : InvitationDraw) :
    ∃ email, normalizeEmail email = email ∧
      Invites hashToken db (signUp env hashToken db tenant body draw).2.2 email draw.token ∧
      ∀ l ∈ (signUp env hashToken db tenant body draw).2.1, l = ⟨email, draw.token⟩ := by
  have hnothing : ∃ email, normalizeEmail email = email ∧
      Invites hashToken db db email draw.token ∧
      ∀ l ∈ (none : Option Letter), l = ⟨email, draw.token⟩ :=
    ⟨normalizeEmail "", normalizeEmail_idem _, Invites.refl _ _ _, fun _ h => nomatch h⟩
  rw [signUp.eq_def]
  split
  · exact hnothing
  · split
    · exact hnothing
    · next submission hread =>
      split_ifs
      · split
        · exact hnothing
        · next db' hissue =>
          have hinvites := issueInvitation_invites hissue
          rw [readSubmission_email hread] at hinvites
          exact ⟨_, readSubmission_email hread, hinvites, fun _ h => nomatch h⟩
        · next db' hissue =>
          have hinvites := issueInvitation_invites hissue
          rw [readSubmission_email hread] at hinvites
          exact ⟨_, readSubmission_email hread, hinvites, fun _ h => (Option.some.inj h).symm⟩
      · exact hnothing

end SignUp

/-! ### Invitations by the office -/

/-- How many addresses one invitation form takes. -/
def MAX_INVITES : ℕ := 100

/-- `/^[^\s@]+@[^\s@]+\.[^\s@]+$/`. -/
def isInvitable (value : List Char) : Bool :=
  value.all (fun c => !isSpace c) &&
    match value.splitOn '@' with
    | [name, domain] => name ≠ [] && '.' ∈ domain.tail.dropLast
    | _ => false

/-- The addresses of the form, each once, in the order in which they first occur. -/
def inviteCandidates (raw : String) : List String :=
  ((raw.toList.splitOnP fun c => isSpace c || c = ',' || c = ';').map
    fun entry => normalizeEmail (String.ofList entry)).eraseDups.filter fun email => email ≠ ""

/-- `roleInput === 'admin' ? 'admin' : 'student'`. -/
def invitationRole (roleInput : String) : InvitationRole :=
  if roleInput = "admin" then .admin else .student

/-- The addresses to work through, or why there are none. -/
def readInvites (raw : String) : Except String (List String) :=
  let candidates := inviteCandidates raw
  if candidates = [] then .error "No addresses."
  else if MAX_INVITES < candidates.length then
    .error ("That is more than " ++ toString MAX_INVITES ++ " addresses. Send it in batches.")
  else .ok candidates

/-- One turn of the loop: an address that does not look like one is skipped. -/
def inviteOne (hashToken : String → String) (db : Database) (tenant : TenantContext)
    (role : InvitationRole) (email : String) (draw : InvitationDraw) :
    Except DbError (Option Letter × Database) :=
  if isInvitable email.toList then
    (issueInvitation hashToken db
      { tenantId := tenant.id
        host := tenant.host
        email := email
        firstName := ""
        lastName := ""
        role := some role
        answers := none } draw).map fun issued =>
      (issued.1.map fun _ => ⟨email, draw.token⟩, issued.2)
  else .ok (none, db)

theorem normalizeEmail_of_mem_readInvites {raw : String} {candidates : List String}
    (h : readInvites raw = .ok candidates) {email : String} (he : email ∈ candidates) :
    normalizeEmail email = email := by
  simp only [readInvites] at h
  split_ifs at h
  obtain rfl := Except.ok.inj h
  have hmem := (List.mem_filter.mp he).1
  rw [List.mem_eraseDups] at hmem
  obtain ⟨entry, -, rfl⟩ := List.mem_map.mp hmem
  exact normalizeEmail_idem _

theorem inviteOne_invites {hashToken : String → String} {db db' : Database} {tenant : TenantContext}
    {role : InvitationRole} {email : String} {draw : InvitationDraw} {letter : Option Letter}
    (hemail : normalizeEmail email = email)
    (h : inviteOne hashToken db tenant role email draw = .ok (letter, db')) :
    Invites hashToken db db' email draw.token ∧ ∀ l ∈ letter, l = ⟨email, draw.token⟩ := by
  rw [inviteOne] at h
  split_ifs at h
  · obtain ⟨⟨issued, db₁⟩, hissue, heq⟩ := Machine.map_eq_ok.mp h
    obtain ⟨rfl, rfl⟩ := Prod.mk.inj heq
    have hinvites := issueInvitation_invites hissue
    rw [hemail] at hinvites
    refine ⟨hinvites, fun l hl => ?_⟩
    obtain ⟨-, -, rfl⟩ := Option.map_eq_some_iff.mp hl
    rfl
  · obtain ⟨rfl, rfl⟩ := Prod.mk.inj (Except.ok.inj h)
    exact ⟨Invites.refl _ _ _, fun _ hl => nomatch hl⟩

theorem inviteOne_issues {hashToken : String → String} {db db' : Database} {tenant : TenantContext}
    {role : InvitationRole} {email : String} {draw : InvitationDraw} {letter : Option Letter}
    (h : inviteOne hashToken db tenant role email draw = .ok (letter, db')) :
    Issues db db' draw.id := by
  rw [inviteOne] at h
  split_ifs at h
  · obtain ⟨⟨issued, db₁⟩, hissue, heq⟩ := Machine.map_eq_ok.mp h
    obtain ⟨rfl, rfl⟩ := Prod.mk.inj heq
    exact issueInvitation_issues hissue
  · obtain ⟨rfl, rfl⟩ := Prod.mk.inj (Except.ok.inj h)
    exact Issues.refl _ _

/-! ### Resetting a password -/

/-- The answer to every request for a reset that has the right shape. -/
def RESET_RESPONSE : RouteResponse where
  code := 200
  status := "ok"
  message := some "Check your email. If that address has an account, a link is on its way."

/-- `POST /api/tenant/reset-request`. `suppressed` is what the memory of recent requests answers. -/
def resetRequest (lib : BetterAuth) (w : AuthWorld) (tenant : Option TenantContext)
    (body : Option Json) (suppressed : Bool) (draw : AuthDraw) :
    RouteResponse × Option Letter × AuthWorld :=
  match tenant with
  | none => (tenantNotFound, none, w)
  | some tenant =>
    match readBody invalidRequest body with
    | .error response => (response, none, w)
    | .ok body =>
      let email := normalizeEmail (textField body "email")
      if '@' ∉ email.toList then (invalidRequest, none, w)
      else if suppressed then (RESET_RESPONSE, none, w)
      else
        let effect := lib.requestPasswordReset email draw w.db.toIdentity
        (RESET_RESPONSE,
          effect.resetMail.bind (sendResetPassword (some ⟨tenant.host, tenant.name⟩)),
          w.absorb [] draw effect)

/-- A reset request asks the library for a reset, or does nothing. -/
theorem resetRequest_cases (lib : BetterAuth) (w : AuthWorld) (tenant : Option TenantContext)
    (body : Option Json) (suppressed : Bool) (draw : AuthDraw) :
    (∃ response, resetRequest lib w tenant body suppressed draw = (response, none, w)) ∨
      ∃ institute email, resetRequest lib w tenant body suppressed draw
        = (RESET_RESPONSE,
          (lib.requestPasswordReset email draw w.db.toIdentity).resetMail.bind
            (sendResetPassword (some institute)),
          w.absorb [] draw (lib.requestPasswordReset email draw w.db.toIdentity)) := by
  rw [resetRequest.eq_def]
  split
  · exact Or.inl ⟨_, rfl⟩
  · split
    · exact Or.inl ⟨_, rfl⟩
    · simp only
      split_ifs
      · exact Or.inl ⟨_, rfl⟩
      · exact Or.inr ⟨_, _, rfl⟩
      · exact Or.inl ⟨_, rfl⟩

end LampLight
