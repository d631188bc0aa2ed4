import LampLight.Auth.Invitations
import LampLight.Domains.Orphans

/-!
# The platform sweep

A request with the shared secret visits every active tenant in turn. A turn deletes invitations that
have outlived their purpose, checks the tenant's domains and releases the claims that have lapsed;
what a turn throws is counted and does not stop the next one.

## Main definitions

* `sweep` — the endpoint
* `SweepAction`, `sweepStep` — the lifecycle with sweeps
-/

namespace LampLight

open Cloudflare
open Machine (run Meets)

variable (p : Platform)

/-! ### The endpoint -/

/-- `select id from tenants where status = 'active' order by created_at`. -/
def listActiveTenantIds (db : Database) : List Uuid :=
  (Table.orderBy TenantRow.createdAt (db.tenants.filter fun t => t.status = .active)).map (·.id)

/-- One request to the endpoint, with what the environment answers during it. A tenant has one turn
and a row is checked and released at most once in it, so answers and clocks go by their ids. -/
structure SweepCall where
  offered : Option String
  startedAt : Instant
  invitationClock : Uuid → Instant
  checkAnswers : Uuid → TransportResult
  checkClock : Uuid → Instant
  removeAnswers : Uuid → TransportResult
  releaseClock : Uuid → Instant

/-- The counters of a sweep. -/
structure SweepCounts where
  refreshed : ℕ := 0
  released : ℕ := 0
  expired : ℕ := 0
  spent : ℕ := 0
  failed : ℕ := 0
deriving DecidableEq

/-- The counts of two tenants together. -/
def SweepCounts.add (a b : SweepCounts) : SweepCounts where
  refreshed := a.refreshed + b.refreshed
  released := a.released + b.released
  expired := a.expired + b.expired
  spent := a.spent + b.spent
  failed := a.failed + b.failed

/-- What the sweep answers. -/
inductive SweepResponse where
  | notFound
  | ok (tenants : ℕ) (enabled : Bool) (counts : SweepCounts)
deriving DecidableEq

/-- Constant-time comparison, of values of one length. -/
def secretsMatch (offered expected : String) : Bool :=
  if offered.utf8ByteSize ≠ expected.utf8ByteSize then false else offered = expected

/-- The secret is configured and the request carries it. -/
def authorised (call : SweepCall) : Bool :=
  p.env.domainSweepSecret.any fun secret =>
    secret ≠ "" && secretsMatch (call.offered.getD "") secret

/-- One tenant's turn: what it adds to the counters, and the world it leaves. -/
def sweepTenant (call : SweepCall) (enabled : Bool) (w : World) (tenantId : Uuid) :
    SweepCounts × World :=
  let invitations := sweepInvitations w.db tenantId (call.invitationClock tenantId)
  let counts : SweepCounts :=
    { expired := invitations.1.expired, spent := invitations.1.spent }
  let w := { w with db := invitations.2 }
  if !enabled then (counts, w)
  else
    match refreshAllDomains p.env p.client w tenantId call.checkAnswers call.checkClock with
    | (.error _, w) => ({ counts with failed := 1 }, w)
    | (.ok domains, w) =>
      let counts := { counts with refreshed := domains.length }
      match releaseLapsedClaims p.env p.client w tenantId call.removeAnswers call.releaseClock with
      | (.error _, w) => ({ counts with failed := 1 }, w)
      | (.ok released, w) => ({ counts with released := released }, w)

/-- The loop over the tenants. -/
def sweepTenants (call : SweepCall) (enabled : Bool) : World → List Uuid → SweepCounts × World
  | w, [] => ({}, w)
  | w, tenantId :: rest =>
    let turn := sweepTenant p call enabled w tenantId
    let later := sweepTenants call enabled turn.2 rest
    (turn.1.add later.1, later.2)

/-- `POST /api/platform/sweep`. -/
def sweep (w : World) (call : SweepCall) : SweepResponse × World :=
  if !authorised p call then (.notFound, w)
  else
    let tenantIds := listActiveTenantIds w.db
    let enabled := customHostnamesConfigured p.env
    let r := sweepTenants p call enabled w tenantIds
    (.ok tenantIds.length enabled r.1, r.2)

/-! ### The lifecycle with sweeps -/

/-- What happens to domains: an operation, or a sweep. -/
inductive SweepAction where
  | domain (action : DomainAction)
  | sweep (call : SweepCall)

/-- The world after it. -/
def sweepStep (w : World) : SweepAction → World
  | .domain a => step p w a
  | .sweep call => (sweep p w call).2

/-- The world after a tenant's turn. -/
def turnWorld (call : SweepCall) (w : World) (tenantId : Uuid) : World :=
  (sweepTenant p call (customHostnamesConfigured p.env) w tenantId).2

variable {p} {w : World} {call : SweepCall}

/-- An authorised sweep is the turns of the active tenants, one after the other. -/
theorem sweep_eq_run (h : authorised p call = true) :
    (sweep p w call).2 = run (turnWorld p call) w (listActiveTenantIds w.db) := by
  have hloop : ∀ (ids : List Uuid) (w : World),
      (sweepTenants p call (customHostnamesConfigured p.env) w ids).2
        = run (turnWorld p call) w ids := by
    intro ids
    induction ids with
    | nil => exact fun _ => rfl
    | cons id ids ih => exact fun w => ih _
  rw [sweep, h]
  exact hloop _ _

theorem sweep_unauthorised (h : authorised p call = false) : (sweep p w call).2 = w := by
  rw [sweep, h]
  rfl

/-- The world of a turn once its invitations are swept. -/
def sweptInvitations (call : SweepCall) (w : World) (tenantId : Uuid) : World :=
  { w with db := (sweepInvitations w.db tenantId (call.invitationClock tenantId)).2 }

/-- The check in a turn. -/
def checkAll (call : SweepCall) (tenantId : Uuid) : DomainAction :=
  .refreshAll tenantId call.checkAnswers call.checkClock

/-- The release in a turn. -/
def releaseAll (call : SweepCall) (tenantId : Uuid) : DomainAction :=
  .releaseLapsed tenantId call.removeAnswers call.releaseClock

/-- A turn is a check of all domains and then, unless that threw, a release of the lapsed claims. -/
theorem turnWorld_eq (hcfg : customHostnamesConfigured p.env = true) (tenantId : Uuid) :
    let w₁ := sweptInvitations call w tenantId
    ((∃ e, (exec p w₁ (checkAll call tenantId)).1 = .error e) ∧
        turnWorld p call w tenantId = step p w₁ (checkAll call tenantId)) ∨
      ((exec p w₁ (checkAll call tenantId)).1 = .ok () ∧ turnWorld p call w tenantId
        = step p (step p w₁ (checkAll call tenantId)) (releaseAll call tenantId)) := by
  rw [turnWorld, sweepTenant, hcfg]
  dsimp only [Bool.not_true, step, checkAll, releaseAll, exec, Machine.discard]
  rw [if_neg (by decide), ← sweptInvitations]
  cases refreshAllDomains p.env p.client (sweptInvitations call w tenantId) tenantId
      call.checkAnswers call.checkClock with
  | mk result w₂ =>
    cases result with
    | error e => exact Or.inl ⟨⟨e, rfl⟩, rfl⟩
    | ok domains =>
      refine Or.inr ⟨rfl, ?_⟩
      dsimp only
      cases releaseLapsedClaims p.env p.client w₂ tenantId call.removeAnswers
          call.releaseClock with
      | mk result w₃ => cases result <;> rfl

theorem sweptInvitations_change (a : DomainAction) (tenantId : Uuid) :
    Change p a w (sweptInvitations call w tenantId) := .idle rfl rfl rfl

/-- What every change of the tables preserves, every turn preserves. -/
theorem turnWorld_invariant {I : World → Prop} (h : ∀ a w w', Change p a w w' → I w → I w')
    (tenantId : Uuid) (hw : I w) : I (turnWorld p call w tenantId) := by
  have hstep : ∀ w a, I w → I (step p w a) :=
    fun w a hw => changes_invariant (h a) (exec_changes a) hw
  have hswept : I (sweptInvitations call w tenantId) :=
    h (checkAll call tenantId) _ _ (sweptInvitations_change _ tenantId) hw
  cases hcfg : customHostnamesConfigured p.env with
  | false =>
    rw [turnWorld, sweepTenant, hcfg]
    exact hswept
  | true =>
    rcases @turnWorld_eq p w call hcfg tenantId with ⟨-, h⟩ | ⟨-, h⟩
    · rw [h]
      exact hstep _ _ hswept
    · rw [h]
      exact hstep _ _ (hstep _ _ hswept)

/-- What every change of the tables preserves, every run with sweeps preserves. -/
theorem sweepRun_invariant {I : World → Prop} (h : ∀ a w w', Change p a w w' → I w → I w')
    (hw : I w) (as : List SweepAction) : I (run (sweepStep p) w as) := by
  refine Machine.run_invariant (fun w a hw => ?_) hw as
  cases a with
  | domain a => exact changes_invariant (h a) (exec_changes a) hw
  | sweep call =>
    cases hauth : authorised p call with
    | false =>
      rw [sweepStep, sweep_unauthorised hauth]
      exact hw
    | true =>
      rw [sweepStep, sweep_eq_run hauth]
      exact Machine.run_invariant (fun _ id hw => turnWorld_invariant h id hw) hw _

end LampLight
