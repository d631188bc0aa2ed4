import LampLight.Auth.Credentials
import LampLight.Domains.Provision
import LampLight.Foundation.Interleave

/-!
# Everybody at once

Every request to the platform that has to do with accounts is a process: posts to the library's
handler by anybody, sign-ups, invitations by an office or by the operator, reset requests,
activations and sweeps. A process acts in phases, and a schedule says who moves next.

One phase is one transaction, one call of the library, or the sending of one mail. A process that
fails, or that nobody schedules again, leaves what it has committed so far.
-/

namespace LampLight

/-- A request, with what the environment decides while it is served. -/
inductive AuthCall
  | handler (request : AuthRequest) (draw : AuthDraw)
  | signUp (tenant : Option TenantContext) (body : Option Js.Json) (draw : InvitationDraw)
      (delivered : Bool)
  | invite (tenant : TenantContext) (roleInput emails : String) (draws : String → InvitationDraw)
      (delivered : String → Bool)
  | provision (call : ProvisionCall)
  | resetRequest (tenant : Option TenantContext) (body : Option Js.Json) (suppressed : Bool)
      (draw : AuthDraw) (delivered : Bool)
  | activate (call : ActivationCall)
  | sweep (tenantId : Uuid) (now : Instant)

/-- Whether the mail server takes a letter of this call. -/
def AuthCall.delivers : AuthCall → Letter → Bool
  | .signUp _ _ _ delivered, _ => delivered
  | .invite _ _ _ _ delivered, letter => delivered letter.address
  | .provision call, _ => call.mailSent
  | .resetRequest _ _ _ _ delivered, _ => delivered
  | _, _ => false

/-- How far a process has come. `inviting` and `posting` carry the addresses still to be invited. -/
inductive AuthPhase
  | start
  | inviting (todo : List String)
  | posting (letter : Letter) (todo : List String)
  | activation (phase : ActivationPhase)
  | done

/-- Going on with the letter a route wants sent, if there is one. -/
def AuthWorld.hand (w : AuthWorld) (letter : Option Letter) (todo : List String) :
    AuthPhase × AuthWorld :=
  match letter with
  | none => (.inviting todo, w)
  | some letter => (.posting letter todo, w.mint letter)

variable (lib : BetterAuth) (env : Env) (hashToken : String → String)

/-- The first phase of each call. -/
def startCall (w : AuthWorld) : AuthCall → AuthPhase × AuthWorld
  | .handler request draw =>
    let effect := lib.handler request draw w.db.toIdentity
    -- The catch-all route establishes no institute.
    (w.absorb request.secrets draw effect).hand (effect.resetMail.bind (sendResetPassword none)) []
  | .signUp tenant body draw _ =>
    let result := signUp env hashToken w.db tenant body draw
    AuthWorld.hand { w with db := result.2.2 } result.2.1 []
  | .invite _ _ emails _ _ =>
    match readInvites emails with
    | .error _ => (.done, w)
    | .ok candidates => (.inviting candidates, w)
  | .provision call =>
    let result := provisionTenant env hashToken w.toWorld call
    let letter := match result.1 with
      | .ok (.ok _ _ adminEmail) => some ⟨adminEmail, call.invitation.token⟩
      | _ => none
    AuthWorld.hand { w with db := result.2.db } letter []
  | .resetRequest tenant body suppressed draw _ =>
    let result := resetRequest lib w tenant body suppressed draw
    result.2.2.hand result.2.1 []
  | .activate call => (.activation (openActivation hashToken call w.db), w)
  | .sweep tenantId now => (.done, { w with db := (sweepInvitations w.db tenantId now).2 })

/-- One turn of the office's loop. A failed statement ends the action. -/
def inviteNext (call : AuthCall) (email : String) (todo : List String) (w : AuthWorld) :
    AuthPhase × AuthWorld :=
  match call with
  | .invite tenant roleInput _ draws _ =>
    match inviteOne hashToken w.db tenant (invitationRole roleInput) email (draws email) with
    | .error _ => (.done, w)
    | .ok (letter, db) => AuthWorld.hand { w with db := db } letter todo
  | _ => (.done, w)

/-- The next step of an activation. -/
def activateNext (call : AuthCall) (phase : ActivationPhase) (w : AuthWorld) :
    AuthPhase × AuthWorld :=
  match call with
  | .activate call =>
    let result := activationStep lib hashToken call phase w
    (.activation result.1, result.2)
  | _ => (.done, w)

/-- One step of one process. -/
def authStep (call : AuthCall) (phase : AuthPhase) (w : AuthWorld) : AuthPhase × AuthWorld :=
  match phase with
  | .start => startCall lib env hashToken w call
  | .inviting [] => (.done, w)
  | .inviting (email :: todo) => inviteNext hashToken call email todo w
  | .posting letter todo =>
    if call.delivers letter then (.inviting todo, w.post letter) else (.done, w)
  | .activation phase => activateNext lib hashToken call phase w
  | .done => (.done, w)

variable {ι : Type*} [DecidableEq ι]

/-- The platform with all its requests, none of which has begun. -/
def AuthWorld.opened (w : AuthWorld) : Interleave.Config ι AuthPhase AuthWorld where
  phase _ := .start
  shared := w

/-- The process `i` moves. -/
def authTurn (calls : ι → AuthCall) :
    Interleave.Config ι AuthPhase AuthWorld → ι → Interleave.Config ι AuthPhase AuthWorld :=
  Interleave.turn fun i => authStep lib env hashToken (calls i)

end LampLight
