import LampLight.Auth.SignUp
import LampLight.Domains.Lifecycle

/-!
# What a sign-up reveals

Anybody may submit any address to an institute's sign-up, and must not learn from the answer whether
it has an account. The route in full: a submission that passes the checks is invited, which writes
to the database, looks an account up and sends a mail, and whatever comes of that is swallowed.

## Main definitions

* `invite`, `postSignUp` — the route with its mail, and everything that may fail after the checks

## Main results

* `postSignUp_signUp` — when nothing fails, the route does what `signUp` followed by the mail does
* `postSignUp_response_eq` — the answer is the same in any two states of the platform
-/

namespace LampLight

open Js

/-- The message of a sign-up. Which of the two it is decides the words only. -/
inductive SignUpMail where
  | existingAccount (recipient institute url : String)
  | activation (recipient firstName institute url : String) (expiresAt : Instant)
deriving DecidableEq

/-- The mail that carries an invitation link. -/
def activationEmail (recipient firstName institute url : String) (expiresAt : Instant) :
    SignUpMail :=
  .activation recipient firstName institute url expiresAt

/-- The mail to somebody who has an account already. -/
def existingAccountEmail (recipient institute url : String) : SignUpMail :=
  .existingAccount recipient institute url

/-- What ends `invite` early. -/
inductive InviteError where
  | statement (e : DbError)
  | mail
deriving DecidableEq

/-- What happens around a submission that passed the checks: the random choices, the statements
that fail for no reason of ours, and the transport. -/
structure InviteWeather where
  draw : InvitationDraw
  issueFault : Option DbError
  lookupFault : Option DbError
  delivers : SignUpMail → Bool

/-- `invite`: the invitation, then the mail that carries its link. -/
def invite (hashToken : String → String) (db : Database) (tenant : TenantContext)
    (submission : SignUpSubmission) (weather : InviteWeather) :
    Except InviteError (Option SignUpMail) × Database :=
  match weather.issueFault with
  | some e => (.error (.statement e), db)
  | none =>
    match issueInvitation hashToken db
        { tenantId := tenant.id
          host := tenant.host
          email := submission.email
          firstName := submission.firstName
          lastName := submission.lastName
          role := none
          answers := some submission.answers } weather.draw with
    | .error e => (.error (.statement e), db)
    -- One was issued recently, so no second message goes out.
    | .ok (none, db') => (.ok none, db')
    | .ok (some invitation, db') =>
      match weather.lookupFault with
      | some e => (.error (.statement e), db')
      | none =>
        let mail :=
          if (findAccountByEmail db' submission.email).isSome then
            existingAccountEmail submission.email tenant.name invitation.url
          else
            activationEmail submission.email submission.firstName tenant.name invitation.url
              invitation.expiresAt
        if weather.delivers mail then (.ok (some mail), db') else (.error .mail, db')

/-- `POST /api/tenant/sign-up`. -/
def postSignUp (env : Env) (hashToken : String → String) (db : Database)
    (tenant : Option TenantContext) (body : Option Json) (weather : InviteWeather) :
    RouteResponse × Database :=
  match tenant with
  | none => (tenantNotFound, db)
  | some tenant =>
    match readSubmission db tenant.id body with
    | .error response => (response, db)
    | .ok submission =>
      if takesSignUps env db tenant.id then
        match invite hashToken db tenant submission weather with
        | (.ok _, db') => (SIGN_UP_RESPONSE, db')
        -- Nothing to report by design.
        | (.error _, db') => (SIGN_UP_RESPONSE, db')
      else (SIGN_UP_RESPONSE, db)

section Route

variable {hashToken : String → String}

/-- The stored questions of an institute. -/
def storedQuestions (db : Database) (tenantId : Uuid) : Option Json :=
  (tenantSettingsOf db tenantId).map TenantSettingsRow.signupQuestionsJson

/-- The checks of a submission read the stored questions and nothing else. -/
theorem readSubmission_eq {db₁ db₂ : Database} {tenantId : Uuid}
    (h : storedQuestions db₁ tenantId = storedQuestions db₂ tenantId) (body : Option Json) :
    readSubmission db₁ tenantId body = readSubmission db₂ tenantId body := by
  simp only [storedQuestions] at h
  simp only [readSubmission, h]

/-- However the invitation went, a submission that passed the checks is answered alike. -/
theorem postSignUp_response (env : Env) (db : Database) (tenant : TenantContext)
    (body : Option Json) (weather : InviteWeather) :
    (postSignUp env hashToken db (some tenant) body weather).1
      = match readSubmission db tenant.id body with
        | .error response => response
        | .ok _ => SIGN_UP_RESPONSE := by
  cases hread : readSubmission db tenant.id body with
  | error response => simp only [postSignUp, hread]
  | ok submission =>
    simp only [postSignUp, hread]
    split_ifs
    · split <;> rfl
    · rfl

/-- Where no statement fails, the mail is the only thing the route adds. -/
theorem postSignUp_signUp (env : Env) (db : Database) (tenant : Option TenantContext)
    (body : Option Json) {weather : InviteWeather} (h : weather.issueFault = none) :
    postSignUp env hashToken db tenant body weather
      = ((signUp env hashToken db tenant body weather.draw).1,
          (signUp env hashToken db tenant body weather.draw).2.2) := by
  rw [postSignUp.eq_def, signUp.eq_def]
  cases tenant with
  | none => rfl
  | some tenant =>
    cases hread : readSubmission db tenant.id body with
    | error response => simp only [hread]
    | ok submission =>
      simp only [hread, invite, h]
      split_ifs
      · cases hissue : issueInvitation hashToken db _ weather.draw with
        | error e => rfl
        | ok result =>
          obtain ⟨issued, db'⟩ := result
          cases issued with
          | none => rfl
          | some invitation =>
            cases weather.lookupFault with
            | some e => rfl
            | none =>
              simp only
              split_ifs <;> rfl
      · rfl

/-- **A sign-up reveals nothing about accounts.** -/
theorem postSignUp_response_eq {db₁ db₂ : Database} {tenant : Option TenantContext}
    (h : ∀ t ∈ tenant, storedQuestions db₁ t.id = storedQuestions db₂ t.id) (env₁ env₂ : Env)
    (body : Option Json) (weather₁ weather₂ : InviteWeather) :
    (postSignUp env₁ hashToken db₁ tenant body weather₁).1
      = (postSignUp env₂ hashToken db₂ tenant body weather₂).1 := by
  cases tenant with
  | none => rfl
  | some tenant =>
    rw [postSignUp_response, postSignUp_response, readSubmission_eq (h tenant rfl)]

end Route

/-! ### A registered address and an unknown one -/

/-- An institute that asks for a phone number. -/
def phoneSettings (mode : SignupMode) : TenantSettingsRow where
  tenantId := 1
  legalName := none
  signupMode := mode
  signupQuestionsJson := .arr [.obj [("id", .str "phone"), ("label", .str "Phone"),
    ("type", .str "text"), ("required", .bool true)]]

/-- A filled-in form of sign-up. -/
def adasSubmission : Json :=
  .obj [("email", .str "ada@example.org"), ("firstName", .str "Ada"), ("lastName", .str "Lovelace"),
    ("answers", .obj [("phone", .str "12")])]

/-- Nothing fails while a sign-up is served. -/
def fairWeather : InviteWeather where
  draw := { id := 4, token := "t", mintedAt := 0, checkedAt := 0, createdAt := 0 }
  issueFault := none
  lookupFault := none
  delivers := fun _ => true

/-- Ada has an account and the institute is closed, or nobody knows her, it is open and the mail
fails. -/
theorem postSignUp_response_eq_ada :
    (postSignUp { lamplightEnv with selfServeSignup := false } id
        { users := [⟨2, "ada@example.org", "Ada", "Ada", "Lovelace", true⟩]
          tenantSettings := [phoneSettings .closed] }
        (some ⟨⟨1, "grace", "Grace"⟩, "grace.lamplight.school"⟩) (some adasSubmission)
        fairWeather).1
      = (postSignUp lamplightEnv id
          { tenants := [⟨1, "grace", "Grace", .active, 0⟩]
            tenantSettings := [phoneSettings .open] }
          (some ⟨⟨1, "grace", "Grace"⟩, "grace.lamplight.school"⟩) (some adasSubmission)
          { fairWeather with delivers := fun _ => false }).1 := by
  refine postSignUp_response_eq ?_ _ _ _ _ _
  intro t ht
  obtain rfl := Option.some.inj ht
  rfl

end LampLight
