import LampLight.Foundation.Interleave
import LampLight.Tenancy.Policies

/-!
# Units of work on pooled connections

A connection serves one tenant after another. Every unit of work opens a transaction, makes the
tenant a setting of that transaction, and runs its statements; when it ends, the setting is gone. A
statement outside of a unit runs with whatever setting the session has, and the two layers differ in
what they would make of a mistake: there is no filter here, only the policies.

A unit is the call `getTenantDb(tenantId).run(fn)`. The callback is a function of what its
statements have answered so far, so nothing is assumed about what it asks or writes. The tables are
the tenant-owned ones. The constraints are any function of the rows of every tenant and of what a
statement changes; whether a statement fails for a reason outside the tables is given with it.

A connection that waits for a lock has no turn. Locks are left out otherwise: the schedules they
would not allow are among those considered.

## Main definitions

* `connectionStep`, `openPool` — the commands of the connections, and a pool at its start
* `Connection.Clean`, `Connection.Confined` — what is left on a connection is nobody's, and what a
  unit has changed is its tenant's
* `turnsOf`, `forTenant` — what concerns one tenant in a run
* `Unaffected` — no row of somebody else decides over a statement of the tenant

## Main results

* `confined_run` — no setting survives its transaction, and no unit changes another tenant's rows
* `pool_confined` — a command touches only rows of the tenant whose unit it belongs to
* `pool_alone` — the units of a tenant come to what they would come to with the tenant alone
* `localTo_tenantLeads` — which unique indexes see to that
* `hostname_affects` — and one that does not
-/

namespace LampLight

open Interleave (Config turn)
open Machine (run)
open RowSecurity (Change LocalTo Policy Statement Tables applyAll ownedBy uniqueIndex)

/-! ### Work -/

/-- What a callback does next. -/
inductive Next (Row : TenantOwnedTable → Type) (α : Type)
  | statement (s : Statement Row α) (fails : Bool)
  | returns
  | throws
  /-- The connection breaks. -/
  | disconnects

/-- `getTenantDb(tenantId).run(fn)`. A statement that fails has no answer. -/
structure TenantRun (Row : TenantOwnedTable → Type) (α : Type) where
  tenantId : String
  fn : List (Option α) → Next Row α

/-- What a connection is handed: a unit of work, or a statement outside of any. -/
inductive Work (Row : TenantOwnedTable → Type) (α : Type)
  | run (call : TenantRun Row α)
  | execute (s : Statement Row α) (fails : Bool)

/-- An open transaction: its own setting of `app.tenant_id`, what it has changed, whether a
statement has failed, and what its statements have answered. -/
structure Transaction (Row : TenantOwnedTable → Type) (α : Type) where
  setting : Option String := none
  pending : List (Change Row) := []
  failed : Bool := false
  answers : List (Option α) := []

/-- How a piece of work ended. -/
structure Outcome (α : Type) where
  tenantId : Option String
  answers : List (Option α)
  committed : Bool

/-- A connection: the setting of its session, the unit it is in, and the work before and after. -/
structure Connection (Row : TenantOwnedTable → Type) (α : Type) where
  setting : Option String := none
  unit : Option (TenantRun Row α × Transaction Row α) := none
  queue : List (Work Row α)
  finished : List (Outcome α) := []

variable {Row : TenantOwnedTable → Type} {α κ : Type}

/-! ### Commands -/

/-- The unit is over, and its session goes on with `setting`. -/
def Connection.close (c : Connection Row α) (call : TenantRun Row α) (tx : Transaction Row α)
    (setting : Option String) (committed : Bool) : Connection Row α :=
  { c with
    setting := setting
    unit := none
    finished := c.finished ++ [⟨some call.tenantId, tx.answers, committed⟩] }

section Commands

variable [∀ i, DecidableEq (Row i)] (p : Policy Row Uuid)
  (allows : Tables Row → List (Change Row) → Bool)

/-- One statement of a transaction. After a failure every further one fails. -/
def Transaction.execute (session : Option String) (db : Tables Row) (tx : Transaction Row α)
    (s : Statement Row α) (fails : Bool) : Transaction Row α :=
  let aborted := { tx with failed := true, answers := tx.answers ++ [none] }
  if tx.failed || fails then aborted
  else
    match appCurrentTenantId (tx.setting.or session) with
    | .error _ => aborted
    | .ok current =>
      match p.execute current allows db tx.pending s with
      | none => aborted
      | some (answer, pending) =>
        { tx with pending := pending, answers := tx.answers ++ [some answer] }

/-- `commit`, which rolls a failed transaction back. -/
def Transaction.commit (db : Tables Row) (tx : Transaction Row α) : Option (Tables Row) :=
  if tx.failed then none else some (applyAll db tx.pending)

/-- A connection without a unit takes up its next piece of work. -/
def Connection.begin (c : Connection Row α) (db : Tables Row) : Connection Row α × Tables Row :=
  match c.queue with
  | [] => (c, db)
  | .execute s fails :: rest =>
    let tx := ({} : Transaction Row α).execute p allows c.setting db s fails
    let stored := tx.commit db
    ({ c with queue := rest, finished := c.finished ++ [⟨none, tx.answers, stored.isSome⟩] },
      stored.getD db)
  | .run call :: rest =>
    -- `getTenantDb` throws before it asks for a connection
    if matchesUuidPattern call.tenantId then
      ({ c with queue := rest, unit := some (call, {}) }, db)
    else
      ({ c with queue := rest, finished := c.finished ++ [⟨some call.tenantId, [], false⟩] }, db)

/-- The callback goes on. What is left of the transaction's setting when it ends is the empty text,
unless the session is lost with it. -/
def Connection.proceed (c : Connection Row α) (call : TenantRun Row α) (tx : Transaction Row α)
    (db : Tables Row) : Connection Row α × Tables Row :=
  let cleared := some (c.setting.getD "")
  match call.fn tx.answers with
  | .statement s fails =>
    ({ c with unit := some (call, tx.execute p allows c.setting db s fails) }, db)
  | .returns =>
    let stored := tx.commit db
    (c.close call tx cleared stored.isSome, stored.getD db)
  | .throws => (c.close call tx cleared false, db)
  | .disconnects => (c.close call tx none false, db)

/-- The next command of a connection. -/
def connectionStep (_ : κ) (c : Connection Row α) (db : Tables Row) :
    Connection Row α × Tables Row :=
  match c.unit with
  | none => c.begin p allows db
  | some (call, tx) =>
    match tx.setting with
    -- `select set_config('app.tenant_id', tenantId, true)`
    | none => ({ c with unit := some (call, { tx with setting := some call.tenantId }) }, db)
    | some _ => c.proceed p allows call tx db

end Commands

/-- A pool of fresh connections, each with the work it is going to be handed. -/
def openPool (works : κ → List (Work Row α)) (db : Tables Row) :
    Config κ (Connection Row α) (Tables Row) where
  phase k := { queue := works k }
  shared := db

/-! ### Nothing is left behind -/

/-- The session has no tenant, and a transaction has that of its unit or none yet. -/
structure Connection.Clean (c : Connection Row α) : Prop where
  session : Unset c.setting
  unit : ∀ call tx, c.unit = some (call, tx) → matchesUuidPattern call.tenantId = true ∧
    (tx.setting = some call.tenantId ∨ tx.setting = none ∧ tx = {})

theorem unset_getD {setting : Option String} (h : Unset setting) :
    Unset (some (setting.getD "")) := by
  rcases h with rfl | rfl <;> exact Or.inr rfl

theorem clean_close {c : Connection Row α} {call : TenantRun Row α} {tx : Transaction Row α}
    {setting : Option String} {committed : Bool} (h : Unset setting) :
    (c.close call tx setting committed).Clean where
  session := h
  unit := fun _ _ hunit => by cases hunit

theorem clean_fresh (queue : List (Work Row α)) : ({ queue } : Connection Row α).Clean where
  session := Or.inl rfl
  unit := fun _ _ hunit => by cases hunit

/-- A unit's transaction has the unit's tenant once it has one. -/
theorem Connection.Clean.setting_eq {c : Connection Row α} (hc : c.Clean) {call : TenantRun Row α}
    {tx : Transaction Row α} {text : String} (hunit : c.unit = some (call, tx))
    (hset : tx.setting = some text) : tx.setting = some call.tenantId := by
  rcases (hc.unit call tx hunit).2 with h | ⟨h, -⟩
  · exact h
  · rw [h] at hset
    cases hset

section Clean

variable [∀ i, DecidableEq (Row i)] {p : Policy Row Uuid}
  {allows : Tables Row → List (Change Row) → Bool} {c : Connection Row α} {db : Tables Row}

theorem Transaction.execute_setting (session : Option String) (db : Tables Row)
    (tx : Transaction Row α) (s : Statement Row α) (fails : Bool) :
    (tx.execute p allows session db s fails).setting = tx.setting := by
  simp only [Transaction.execute]
  split_ifs
  · rfl
  · split
    · rfl
    · split <;> rfl

theorem clean_begin (p : Policy Row Uuid) (allows : Tables Row → List (Change Row) → Bool)
    (db : Tables Row) (hc : c.Clean) (hunit : c.unit = none) :
    (c.begin p allows db).1.Clean := by
  have hnone : ∀ call tx, c.unit ≠ some (call, tx) := fun call tx h => by
    rw [hunit] at h
    cases h
  rw [Connection.begin.eq_def]
  split
  · exact hc
  · exact ⟨hc.session, fun call tx h => absurd h (hnone call tx)⟩
  · split_ifs with hpattern
    · refine ⟨hc.session, fun call tx h => ?_⟩
      obtain ⟨rfl, rfl⟩ := Prod.mk.inj (Option.some.inj h)
      exact ⟨hpattern, Or.inr ⟨rfl, rfl⟩⟩
    · exact ⟨hc.session, fun call tx h => absurd h (hnone call tx)⟩

theorem clean_proceed (p : Policy Row Uuid) (allows : Tables Row → List (Change Row) → Bool)
    (db : Tables Row) (hc : c.Clean) {call : TenantRun Row α} {tx : Transaction Row α}
    (hunit : c.unit = some (call, tx)) (hset : tx.setting = some call.tenantId) :
    (c.proceed p allows call tx db).1.Clean := by
  rw [Connection.proceed.eq_def]
  dsimp only
  split
  · refine ⟨hc.session, fun call' tx' h => ?_⟩
    obtain ⟨rfl, rfl⟩ := Prod.mk.inj (Option.some.inj h)
    exact ⟨(hc.unit _ _ hunit).1, Or.inl (by rw [Transaction.execute_setting, hset])⟩
  · exact clean_close (unset_getD hc.session)
  · exact clean_close (unset_getD hc.session)
  · exact clean_close (Or.inl rfl)

theorem clean_step (p : Policy Row Uuid) (allows : Tables Row → List (Change Row) → Bool) (k : κ)
    (db : Tables Row) (hc : c.Clean) :
    (connectionStep p allows k c db).1.Clean := by
  rw [connectionStep.eq_def]
  split
  · next hunit => exact clean_begin p allows db hc hunit
  · next call tx hunit =>
    split
    · refine ⟨hc.session, fun call' tx' h => ?_⟩
      obtain ⟨rfl, rfl⟩ := Prod.mk.inj (Option.some.inj h)
      exact ⟨(hc.unit _ _ hunit).1, Or.inl rfl⟩
    · next text hset => exact clean_proceed p allows db hc hunit (hc.setting_eq hunit hset)

end Clean

/-! ### A command touches its own tenant's rows -/

/-- The tenant of a piece of work. -/
def Work.tenant? : Work Row α → Option Uuid
  | .run call => castUuid call.tenantId
  | .execute _ _ => none

/-- The tenant whose unit the next command belongs to. -/
def Connection.serves (c : Connection Row α) : Option Uuid :=
  match c.unit with
  | some (call, _) => castUuid call.tenantId
  | none => c.queue.head?.bind Work.tenant?

/-- The tenant that the statements of a connection run under at this moment. -/
def Connection.current (c : Connection Row α) : Except String (Option Uuid) :=
  appCurrentTenantId ((c.unit.bind fun u => u.2.setting).or c.setting)

/-- What a unit has changed are rows of its tenant. -/
structure Connection.Confined (tenantId : ∀ i, Row i → Uuid) (c : Connection Row α) : Prop
    extends Connection.Clean c where
  pending : ∀ call tx, c.unit = some (call, tx) →
    ∀ change ∈ tx.pending, change.Of tenantId (castUuid call.tenantId)

/-- Statements run under the tenant of the unit, or under none before the unit has set it. -/
theorem current_of_clean {c : Connection Row α} (hc : c.Clean) :
    c.current = .ok none ∨ c.unit ≠ none ∧ c.current = .ok c.serves := by
  rw [Connection.current, Connection.serves]
  cases hunit : c.unit with
  | none => exact Or.inl hc.session.current
  | some x =>
    obtain ⟨call, tx⟩ := x
    obtain ⟨hpattern, hset | ⟨hset, -⟩⟩ := hc.unit call tx hunit
    · obtain ⟨t, ht⟩ := castUuid_of_pattern hpattern
      refine Or.inr ⟨by simp, ?_⟩
      rw [Option.bind_some, hset, Option.some_or, appCurrentTenantId_of_cast ht]
      exact congrArg Except.ok ht.symm
    · left
      rw [Option.bind_some, hset, Option.none_or]
      exact hc.session.current

theorem confined_fresh (tenantId : ∀ i, Row i → Uuid) (queue : List (Work Row α)) :
    ({ queue } : Connection Row α).Confined tenantId where
  toClean := clean_fresh queue
  pending := fun _ _ hunit => by cases hunit

theorem confined_close {tenantId : ∀ i, Row i → Uuid} {c : Connection Row α}
    {call : TenantRun Row α} {tx : Transaction Row α} {setting : Option String} {committed : Bool}
    (h : Unset setting) : (c.close call tx setting committed).Confined tenantId where
  toClean := clean_close h
  pending := fun _ _ hunit => by cases hunit

section Confined

variable [∀ i, DecidableEq (Row i)] {allows : Tables Row → List (Change Row) → Bool}
  {tenantId : ∀ i, Row i → Uuid} {u : Uuid} {g : Option Uuid} {tx : Transaction Row α}
  {c : Connection Row α} {db : Tables Row} {session : Option String}

theorem of_execute (hcurrent : appCurrentTenantId (tx.setting.or session) = .ok g)
    (hpending : ∀ change ∈ tx.pending, change.Of tenantId g) (s : Statement Row α) (fails : Bool) :
    ∀ change ∈ (tx.execute (tenantIsolation tenantId) allows session db s fails).pending,
      change.Of tenantId g := by
  simp only [Transaction.execute, hcurrent]
  split_ifs
  · exact hpending
  · split
    · exact hpending
    · next hexecute =>
      exact RowSecurity.execute_of (tenantIsolation_isolates tenantId) hpending hexecute

/-- What a commit leaves of the rows of somebody else, or of everybody's when there is no tenant. -/
theorem ownedBy_commit (hpending : ∀ change ∈ tx.pending, change.Of tenantId g)
    (hu : g ≠ some u) :
    ownedBy tenantId u ((tx.commit db).getD db) = ownedBy tenantId u db := by
  rw [Transaction.commit]
  split_ifs
  · rfl
  · exact RowSecurity.applyAll_others hpending hu db

/-! What a connection does next keeps it confined. -/

theorem confined_begin (allows : Tables Row → List (Change Row) → Bool) (db : Tables Row)
    (hc : c.Confined tenantId) (hunit : c.unit = none) :
    (c.begin (tenantIsolation tenantId) allows db).1.Confined tenantId where
  toClean := clean_begin _ allows db hc.toClean hunit
  pending := by
    intro call tx h
    rw [Connection.begin.eq_def] at h
    split at h
    · exact hc.pending call tx h
    · exact hc.pending call tx h
    · split_ifs at h
      · obtain ⟨rfl, rfl⟩ := Prod.mk.inj (Option.some.inj h)
        exact fun change hchange => absurd hchange List.not_mem_nil
      · exact hc.pending call tx h

theorem confined_proceed (allows : Tables Row → List (Change Row) → Bool) (db : Tables Row)
    (hc : c.Confined tenantId) {call : TenantRun Row α}
    (hunit : c.unit = some (call, tx)) (hset : tx.setting = some call.tenantId) :
    (c.proceed (tenantIsolation tenantId) allows call tx db).1.Confined tenantId where
  toClean := clean_proceed _ allows db hc.toClean hunit hset
  pending := by
    obtain ⟨t, ht⟩ := castUuid_of_pattern (hc.unit _ _ hunit).1
    have hcurrent : appCurrentTenantId (tx.setting.or c.setting)
        = .ok (castUuid call.tenantId) := by
      rw [hset, Option.some_or, appCurrentTenantId_of_cast ht, ht]
    intro call' tx' h
    rw [Connection.proceed.eq_def] at h
    dsimp only at h
    split at h
    · obtain ⟨rfl, rfl⟩ := Prod.mk.inj (Option.some.inj h)
      exact of_execute hcurrent (hc.pending _ _ hunit) _ _
    · cases h
    · cases h
    · cases h

theorem confined_step (tenantId : ∀ i, Row i → Uuid)
    (allows : Tables Row → List (Change Row) → Bool) (k : κ) (db : Tables Row)
    (hc : c.Confined tenantId) :
    (connectionStep (tenantIsolation tenantId) allows k c db).1.Confined tenantId := by
  rw [connectionStep.eq_def]
  split
  · next hunit => exact confined_begin allows db hc hunit
  · next call tx hunit =>
    split
    · refine ⟨⟨hc.session, fun call' tx' h => ?_⟩, fun call' tx' h => ?_⟩
      · obtain ⟨rfl, rfl⟩ := Prod.mk.inj (Option.some.inj h)
        exact ⟨(hc.unit _ _ hunit).1, Or.inl rfl⟩
      · obtain ⟨rfl, rfl⟩ := Prod.mk.inj (Option.some.inj h)
        exact hc.pending call tx hunit
    · next text hset => exact confined_proceed allows db hc hunit (hc.setting_eq hunit hset)

/-- Nothing survives a unit, however the commands of the connections are interleaved. -/
theorem confined_run [DecidableEq κ] (tenantId : ∀ i, Row i → Uuid) (works : κ → List (Work Row α))
    (db : Tables Row) (schedule : List κ) (k : κ) :
    ((run (turn (connectionStep (tenantIsolation tenantId) allows)) (openPool works db)
      schedule).phase k).Confined tenantId := by
  refine Machine.run_invariant
    (I := fun s : Config κ (Connection Row α) (Tables Row) => ∀ k, (s.phase k).Confined tenantId)
    (fun s i hs => ?_) (fun k => confined_fresh tenantId (works k)) schedule k
  exact Interleave.turn_invariant
    (J := fun _ (c : Connection Row α) (_ : Tables Row) => c.Confined tenantId)
    (confined_step tenantId allows i s.shared (hs i)) (fun _ _ h => h) hs

/-! And it leaves the rows of every tenant but its own as they are. -/

theorem ownedBy_begin (hc : c.Clean) (u : Uuid) :
    ownedBy tenantId u (c.begin (tenantIsolation tenantId) allows db).2
      = ownedBy tenantId u db := by
  rw [Connection.begin.eq_def]
  split
  · rfl
  · next s fails rest hqueue =>
    have hcurrent : appCurrentTenantId (({} : Transaction Row α).setting.or c.setting) = .ok none :=
      hc.session.current
    have hempty : ∀ change ∈ ({} : Transaction Row α).pending, change.Of tenantId none :=
      fun _ hchange => absurd hchange List.not_mem_nil
    exact ownedBy_commit (of_execute hcurrent hempty s fails) (by simp)
  · split_ifs <;> rfl

theorem ownedBy_proceed (hc : c.Confined tenantId) {call : TenantRun Row α}
    (hunit : c.unit = some (call, tx)) (hu : castUuid call.tenantId ≠ some u) :
    ownedBy tenantId u (c.proceed (tenantIsolation tenantId) allows call tx db).2
      = ownedBy tenantId u db := by
  rw [Connection.proceed.eq_def]
  dsimp only
  split
  · rfl
  · exact ownedBy_commit (hc.pending _ _ hunit) hu
  · rfl
  · rfl

theorem ownedBy_step (tenantId : ∀ i, Row i → Uuid)
    (allows : Tables Row → List (Change Row) → Bool) (k : κ) (db : Tables Row)
    (hc : c.Confined tenantId) (hu : c.serves ≠ some u) :
    ownedBy tenantId u (connectionStep (tenantIsolation tenantId) allows k c db).2
      = ownedBy tenantId u db := by
  rw [connectionStep.eq_def]
  split
  · exact ownedBy_begin hc.toClean u
  · next call tx hunit =>
    split
    · rfl
    · refine ownedBy_proceed hc hunit ?_
      rwa [Connection.serves, hunit] at hu

/-- A statement outside of a unit is answered from no rows. -/
theorem answer_outside {setting : Option String} (hsetting : Unset setting) {s : Statement Row α}
    {fails : Bool} {answer : α} (h : some answer ∈ (({} : Transaction Row α).execute
      (tenantIsolation tenantId) allows setting db s fails).answers) :
    answer = s.answer fun _ => [] := by
  have hcurrent : appCurrentTenantId ((none : Option String).or setting) = .ok none :=
    hsetting.current
  simp only [Transaction.execute, hcurrent, Policy.execute,
    RowSecurity.visible_none (tenantIsolation_isolates tenantId)] at h
  split_ifs at h
  · simp at h
  · split at h
    · simp at h
    · next hexecute =>
      obtain ⟨changes, -, hallowed⟩ := Option.bind_eq_some_iff.mp hexecute
      split_ifs at hallowed
      simpa [(Prod.mk.inj (Option.some.inj hallowed)).1] using h

/-- **A pool is confined by its policies.** Whatever the callbacks ask and write, and however the
commands of the connections are interleaved: a connection between two units has no tenant, and a
statement there is answered from no rows; inside a unit it has none or that of the unit; and its
next command changes no row of any other tenant. -/
theorem pool_confined [DecidableEq κ] (tenantId : ∀ i, Row i → Uuid)
    (allows : Tables Row → List (Change Row) → Bool) (works : κ → List (Work Row α))
    (db : Tables Row) (schedule : List κ) (k : κ) :
    let step : κ → Connection Row α → Tables Row → Connection Row α × Tables Row :=
      connectionStep (tenantIsolation tenantId) allows
    let pool := run (turn step) (openPool works db) schedule
    ((pool.phase k).unit = none → (pool.phase k).current = .ok none) ∧
      (∀ (s : Statement Row α) fails answer,
        some answer ∈ (({} : Transaction Row α).execute (tenantIsolation tenantId) allows
          (pool.phase k).setting pool.shared s fails).answers → answer = s.answer fun _ => []) ∧
      ((pool.phase k).current = .ok none ∨ (pool.phase k).current = .ok (pool.phase k).serves) ∧
      ∀ u, (pool.phase k).serves ≠ some u →
        ownedBy tenantId u (turn step pool k).shared = ownedBy tenantId u pool.shared := by
  intro step pool
  have hclean : (pool.phase k).Confined tenantId := confined_run tenantId works db schedule k
  refine ⟨fun hunit => ?_, fun s fails answer => answer_outside hclean.session, ?_,
    fun u hu => ownedBy_step tenantId allows k pool.shared hclean hu⟩
  · rcases current_of_clean hclean.toClean with h | ⟨h, -⟩
    · exact h
    · exact absurd hunit h
  · exact (current_of_clean hclean.toClean).imp_right And.right

end Confined

/-! ### A tenant alone -/

/-- The tenant whose unit a piece of work was. -/
def Outcome.tenant? (o : Outcome α) : Option Uuid := o.tenantId.bind castUuid

/-- The work of one tenant. -/
def forTenant (t : Uuid) (works : κ → List (Work Row α)) : κ → List (Work Row α) :=
  fun k => (works k).filter fun w => w.tenant? = some t

section Turns

variable [∀ i, DecidableEq (Row i)] [DecidableEq κ]

/-- The turns of a run that belong to units of one tenant. -/
def turnsOf (p : Policy Row Uuid) (allows : Tables Row → List (Change Row) → Bool) (t : Uuid) :
    Config κ (Connection Row α) (Tables Row) → List κ → List κ
  | _, [] => []
  | s, k :: ks =>
    if (s.phase k).serves = some t then
      k :: turnsOf p allows t (turn (connectionStep p allows) s k) ks
    else turnsOf p allows t (turn (connectionStep p allows) s k) ks

/-- The constraints say of the statement that a connection runs next what they would say of it with
the rows of tenant `t` alone. -/
def Connection.Unaffected (tenantId : ∀ i, Row i → Uuid)
    (allows : Tables Row → List (Change Row) → Bool) (t : Uuid) (c : Connection Row α)
    (db : Tables Row) : Prop :=
  ∀ call tx s fails, c.unit = some (call, tx) → tx.setting ≠ none →
    call.fn tx.answers = .statement s fails →
      (tenantIsolation tenantId).Unaffected tenantId allows t db tx.pending s

/-- In a run no row of somebody else decides over a statement of tenant `t`. -/
def Unaffected (tenantId : ∀ i, Row i → Uuid) (allows : Tables Row → List (Change Row) → Bool)
    (t : Uuid) (s : Config κ (Connection Row α) (Tables Row)) (schedule : List κ) : Prop :=
  ∀ before k after, schedule = before ++ k :: after →
    let pool := run (turn (connectionStep (tenantIsolation tenantId) allows)) s before
    (pool.phase k).serves = some t → (pool.phase k).Unaffected tenantId allows t pool.shared

end Turns

/-- A connection, and one that has only ever had the work of tenant `t`. -/
structure Mirrors (tenantId : ∀ i, Row i → Uuid) (t : Uuid) (c a : Connection Row α) : Prop where
  confined : c.Confined tenantId
  alone : a.Clean
  queue : a.queue = c.queue.filter fun w => w.tenant? = some t
  unit : a.unit = c.unit.filter fun x => castUuid x.1.tenantId = some t
  finished : a.finished = c.finished.filter fun o => o.tenant? = some t

section Mirrors

variable {tenantId : ∀ i, Row i → Uuid} {t : Uuid} {a c : Connection Row α} {tx : Transaction Row α}
  {call : TenantRun Row α}

/-- The end of a unit of the tenant. -/
theorem Mirrors.close (h : Mirrors tenantId t c a) (ht : castUuid call.tenantId = some t)
    (tx : Transaction Row α) {setting setting' : Option String} (hs : Unset setting)
    (hs' : Unset setting') (committed : Bool) :
    Mirrors tenantId t (c.close call tx setting committed)
      (a.close call tx setting' committed) where
  confined := confined_close hs
  alone := clean_close hs'
  queue := h.queue
  unit := rfl
  finished := by
    simp only [Connection.close, List.filter_append, h.finished]
    simp [Outcome.tenant?, ht]

/-- The end of somebody else's. -/
theorem Mirrors.close_other (h : Mirrors tenantId t c a) (ht : castUuid call.tenantId ≠ some t)
    (hunit : a.unit = none) (tx : Transaction Row α) {setting : Option String}
    (hs : Unset setting) (committed : Bool) :
    Mirrors tenantId t (c.close call tx setting committed) a where
  confined := confined_close hs
  alone := h.alone
  queue := h.queue
  unit := hunit
  finished := by
    simp only [Connection.close, List.filter_append, h.finished]
    simp [Outcome.tenant?, ht]

variable [∀ i, DecidableEq (Row i)] {allows : Tables Row → List (Change Row) → Bool}
  {db : Tables Row}

/-- A statement of the tenant sees the tenant's rows, whatever session it runs in. -/
theorem execute_alone (session session' : Option String)
    (hset : tx.setting = some call.tenantId) (ht : castUuid call.tenantId = some t)
    (hpending : ∀ change ∈ tx.pending, change.Of tenantId (some t)) {s : Statement Row α}
    (h : (tenantIsolation tenantId).Unaffected tenantId allows t db tx.pending s) (fails : Bool) :
    tx.execute (tenantIsolation tenantId) allows session' (ownedBy tenantId t db) s fails
      = tx.execute (tenantIsolation tenantId) allows session db s fails := by
  have hcurrent : ∀ session, appCurrentTenantId (tx.setting.or session) = .ok (some t) := by
    intro session
    rw [hset, Option.some_or, appCurrentTenantId_of_cast ht]
  simp only [Transaction.execute, hcurrent,
    RowSecurity.execute_owned (tenantIsolation_isolates tenantId) hpending h]

theorem commit_alone (hpending : ∀ change ∈ tx.pending, change.Of tenantId (some t)) :
    tx.commit (ownedBy tenantId t db) = (tx.commit db).map (ownedBy tenantId t) := by
  rw [Transaction.commit, Transaction.commit]
  split_ifs
  · rfl
  · rw [Option.map_some, RowSecurity.applyAll_owned hpending]

theorem Mirrors.own_begin (h : Mirrors tenantId t c a) (hunit : c.unit = none)
    (hserves : c.serves = some t) :
    Mirrors tenantId t (c.begin (tenantIsolation tenantId) allows db).1
        (a.begin (tenantIsolation tenantId) allows (ownedBy tenantId t db)).1 ∧
      (a.begin (tenantIsolation tenantId) allows (ownedBy tenantId t db)).2
        = ownedBy tenantId t (c.begin (tenantIsolation tenantId) allows db).2 := by
  rw [Connection.serves, hunit] at hserves
  obtain ⟨w, hhead, hw⟩ := Option.bind_eq_some_iff.mp hserves
  obtain ⟨rest, hqueue⟩ : ∃ rest, c.queue = w :: rest := by
    cases hc : c.queue with
    | nil => rw [hc] at hhead; cases hhead
    | cons x xs => rw [hc] at hhead; exact ⟨xs, by rw [Option.some.inj hhead]⟩
  cases w with
  | execute s fails => cases hw
  | run call =>
    have hpattern : matchesUuidPattern call.tenantId = true := by
      by_contra hno
      rw [Work.tenant?, castUuid, if_neg hno] at hw
      cases hw
    have halone : a.queue = .run call :: rest.filter fun w => w.tenant? = some t := by
      have hkeep : decide ((Work.run call).tenant? = some t) = true := decide_eq_true hw
      rw [h.queue, hqueue, List.filter_cons, if_pos hkeep]
    simp only [Connection.begin, hqueue, halone, hpattern, if_true]
    refine ⟨⟨?_, ?_, rfl, ?_, h.finished⟩, trivial⟩
    · have hbegun := confined_begin allows db h.confined hunit
      simpa only [Connection.begin, hqueue, hpattern, if_true] using hbegun
    · have hnone : a.unit = none := by rw [h.unit, hunit]; rfl
      have hbegun := clean_begin (tenantIsolation tenantId) allows db h.alone hnone
      simpa only [Connection.begin, halone, hpattern, if_true] using hbegun
    · have hkeep : decide (castUuid call.tenantId = some t) = true := decide_eq_true hw
      rw [Option.filter_some, if_pos hkeep]

theorem Mirrors.own_proceed (h : Mirrors tenantId t c a) (hunit : c.unit = some (call, tx))
    (hset : tx.setting = some call.tenantId) (ht : castUuid call.tenantId = some t)
    (halone : c.Unaffected tenantId allows t db) :
    Mirrors tenantId t (c.proceed (tenantIsolation tenantId) allows call tx db).1
        (a.proceed (tenantIsolation tenantId) allows call tx (ownedBy tenantId t db)).1 ∧
      (a.proceed (tenantIsolation tenantId) allows call tx (ownedBy tenantId t db)).2
        = ownedBy tenantId t (c.proceed (tenantIsolation tenantId) allows call tx db).2 := by
  have hunit' : a.unit = some (call, tx) := by
    rw [h.unit, hunit, Option.filter_some, if_pos (decide_eq_true ht)]
  have hpending : ∀ change ∈ tx.pending, change.Of tenantId (some t) :=
    ht ▸ h.confined.pending call tx hunit
  have hconfined := confined_proceed allows db h.confined hunit hset
  have hclean := clean_proceed (tenantIsolation tenantId) allows (ownedBy tenantId t db) h.alone
    hunit' hset
  have hclose := h.close ht tx (unset_getD h.confined.session) (unset_getD h.alone.session)
  simp only [Connection.proceed] at hconfined hclean ⊢
  cases hnext : call.fn tx.answers with
  | statement s fails =>
    have hset' : tx.setting ≠ none := by
      rw [hset]
      exact Option.some_ne_none _
    have hexecute := execute_alone c.setting a.setting hset ht hpending
      (halone call tx s fails hunit hset' hnext) fails
    rw [hnext] at hconfined hclean
    dsimp only at hconfined hclean ⊢
    refine ⟨⟨hconfined, hclean, h.queue, ?_, h.finished⟩, rfl⟩
    rw [hexecute, Option.filter_some, if_pos (decide_eq_true ht)]
  | returns =>
    dsimp only
    rw [commit_alone hpending, Option.isSome_map]
    refine ⟨hclose _, ?_⟩
    cases tx.commit db <;> rfl
  | throws => exact ⟨hclose _, rfl⟩
  | disconnects => exact ⟨h.close ht tx (Or.inl rfl) (Or.inl rfl) _, rfl⟩

/-- A command of the tenant's own unit, among the others and alone. -/
theorem Mirrors.own_step (k : κ) (h : Mirrors tenantId t c a) (hserves : c.serves = some t)
    (halone : c.Unaffected tenantId allows t db) :
    Mirrors tenantId t (connectionStep (tenantIsolation tenantId) allows k c db).1
        (connectionStep (tenantIsolation tenantId) allows k a (ownedBy tenantId t db)).1 ∧
      (connectionStep (tenantIsolation tenantId) allows k a (ownedBy tenantId t db)).2
        = ownedBy tenantId t (connectionStep (tenantIsolation tenantId) allows k c db).2 := by
  cases hunit : c.unit with
  | none =>
    have hunit' : a.unit = none := by rw [h.unit, hunit]; rfl
    simp only [connectionStep, hunit, hunit']
    exact h.own_begin hunit hserves
  | some x =>
    obtain ⟨call, tx⟩ := x
    have ht : castUuid call.tenantId = some t := by rwa [Connection.serves, hunit] at hserves
    have hunit' : a.unit = some (call, tx) := by
      rw [h.unit, hunit, Option.filter_some, if_pos (decide_eq_true ht)]
    cases hset : tx.setting with
    | none =>
      have hconfined := confined_step tenantId allows k db h.confined
      have hclean := clean_step (tenantIsolation tenantId) allows k (ownedBy tenantId t db) h.alone
      simp only [connectionStep, hunit, hunit', hset] at hconfined hclean ⊢
      refine ⟨⟨hconfined, hclean, h.queue, ?_, h.finished⟩, trivial⟩
      rw [Option.filter_some, if_pos (decide_eq_true ht)]
    | some text =>
      simp only [connectionStep, hunit, hunit', hset]
      exact h.own_proceed hunit (h.confined.setting_eq hunit hset) ht halone

/-- A command of somebody else's unit goes unnoticed. -/
theorem Mirrors.other_step (allows : Tables Row → List (Change Row) → Bool) (k : κ)
    (db : Tables Row) (h : Mirrors tenantId t c a) (hserves : c.serves ≠ some t) :
    Mirrors tenantId t (connectionStep (tenantIsolation tenantId) allows k c db).1 a := by
  have hconfined := confined_step tenantId allows k db h.confined
  cases hunit : c.unit with
  | none =>
    have halone : a.unit = none := by rw [h.unit, hunit]; rfl
    rw [Connection.serves, hunit] at hserves
    simp only [connectionStep, hunit] at hconfined ⊢
    cases hqueue : c.queue with
    | nil =>
      simp only [Connection.begin, hqueue]
      exact h
    | cons w rest =>
      have hw : w.tenant? ≠ some t := by rwa [hqueue] at hserves
      have hrest : a.queue = rest.filter fun w => w.tenant? = some t := by
        rw [h.queue, hqueue, List.filter_cons_of_neg (by simpa using hw)]
      cases w with
      | execute s fails =>
        simp only [Connection.begin, hqueue] at hconfined ⊢
        refine ⟨hconfined, h.alone, hrest, by rw [halone, hunit]; rfl, ?_⟩
        rw [h.finished]
        simp [List.filter_append, Outcome.tenant?]
      | run call =>
        have hcast : castUuid call.tenantId ≠ some t := hw
        simp only [Connection.begin, hqueue] at hconfined ⊢
        split_ifs at hconfined ⊢ with hpattern
        · refine ⟨hconfined, h.alone, hrest, ?_, h.finished⟩
          rw [halone, Option.filter_some, if_neg (by simpa using hcast)]
        · refine ⟨hconfined, h.alone, hrest, by rw [halone, hunit]; rfl, ?_⟩
          rw [h.finished]
          simp [List.filter_append, Outcome.tenant?, hcast]
  | some x =>
    obtain ⟨call, tx⟩ := x
    have ht : castUuid call.tenantId ≠ some t := by rwa [Connection.serves, hunit] at hserves
    have halone : a.unit = none := by
      rw [h.unit, hunit, Option.filter_some, if_neg (by simpa using ht)]
    have hdropped : ∀ tx' : Transaction Row α,
        (none : Option (TenantRun Row α × Transaction Row α))
          = (some (call, tx')).filter fun x => castUuid x.1.tenantId = some t := by
      intro tx'
      rw [Option.filter_some, if_neg (by simpa using ht)]
    cases hset : tx.setting with
    | none =>
      simp only [connectionStep, hunit, hset] at hconfined ⊢
      exact ⟨hconfined, h.alone, h.queue, halone.trans (hdropped _), h.finished⟩
    | some text =>
      simp only [connectionStep, hunit, hset, Connection.proceed] at hconfined ⊢
      have hcleared := unset_getD h.confined.session
      cases hnext : call.fn tx.answers with
      | statement s fails =>
        rw [hnext] at hconfined
        exact ⟨hconfined, h.alone, h.queue, halone.trans (hdropped _), h.finished⟩
      | returns => exact h.close_other ht halone tx hcleared _
      | throws => exact h.close_other ht halone tx hcleared _
      | disconnects => exact h.close_other ht halone tx (Or.inl rfl) _

end Mirrors

section Alone

variable [∀ i, DecidableEq (Row i)] [DecidableEq κ] {tenantId : ∀ i, Row i → Uuid}
  {allows : Tables Row → List (Change Row) → Bool} {t : Uuid}
  {s b : Config κ (Connection Row α) (Tables Row)}

theorem Unaffected.cons {k : κ} {ks : List κ} (h : Unaffected tenantId allows t s (k :: ks)) :
    Unaffected tenantId allows t
      (turn (connectionStep (tenantIsolation tenantId) allows) s k) ks := by
  intro before j after hks
  exact h (k :: before) j after (by rw [hks, List.cons_append])

/-- A run, and the run of the turns that belong to one tenant. -/
theorem mirrors_run (hphase : ∀ k, Mirrors tenantId t (s.phase k) (b.phase k))
    (hshared : b.shared = ownedBy tenantId t s.shared) {schedule : List κ}
    (halone : Unaffected tenantId allows t s schedule) :
    let p := tenantIsolation tenantId
    let full := run (turn (connectionStep p allows)) s schedule
    let alone := run (turn (connectionStep p allows)) b (turnsOf p allows t s schedule)
    (∀ k, Mirrors tenantId t (full.phase k) (alone.phase k)) ∧
      alone.shared = ownedBy tenantId t full.shared := by
  induction schedule generalizing s b with
  | nil => exact ⟨hphase, hshared⟩
  | cons k ks ih =>
    by_cases hserves : (s.phase k).serves = some t
    · have hnow : (s.phase k).Unaffected tenantId allows t s.shared :=
        halone [] k ks rfl hserves
      obtain ⟨hown, hrows⟩ := (hphase k).own_step k hserves hnow
      rw [← hshared] at hown hrows
      have hnext := ih (s := turn (connectionStep (tenantIsolation tenantId) allows) s k)
        (b := turn (connectionStep (tenantIsolation tenantId) allows) b k) ?_ hrows halone.cons
      · simpa only [Machine.run_cons, turnsOf, if_pos hserves] using hnext
      · intro j
        by_cases hj : j = k
        · subst hj
          simpa only [turn, Function.update_self] using hown
        · simpa only [turn, Function.update_of_ne hj] using hphase j
    · have hother := (hphase k).other_step allows k s.shared hserves
      have hrows := ownedBy_step tenantId allows k s.shared (hphase k).confined hserves
      have hnext := ih (s := turn (connectionStep (tenantIsolation tenantId) allows) s k) (b := b)
        ?_ (hshared.trans hrows.symm) halone.cons
      · simpa only [Machine.run_cons, turnsOf, if_neg hserves] using hnext
      · intro j
        by_cases hj : j = k
        · subst hj
          simpa only [turn, Function.update_self] using hother
        · simpa only [turn, Function.update_of_ne hj] using hphase j

/-- **The units of a tenant come to what they would come to with the tenant alone.** Take away every
other tenant's work and every other tenant's rows: the callbacks of this tenant get the same
answers, end in the same way, and leave the same rows, unless a constraint sets a row of somebody
else against one of its statements. The policies alone see to it: a callback may leave out every
filter. -/
theorem pool_alone (tenantId : ∀ i, Row i → Uuid)
    (allows : Tables Row → List (Change Row) → Bool) (works : κ → List (Work Row α))
    (db : Tables Row) (schedule : List κ) (t : Uuid)
    (h : Unaffected tenantId allows t (openPool works db) schedule) :
    let p := tenantIsolation tenantId
    let full := run (turn (connectionStep p allows)) (openPool works db) schedule
    let alone := run (turn (connectionStep p allows))
      (openPool (forTenant t works) (ownedBy tenantId t db))
      (turnsOf p allows t (openPool works db) schedule)
    (∀ k, (alone.phase k).finished = (full.phase k).finished.filter fun o => o.tenant? = some t) ∧
      alone.shared = ownedBy tenantId t full.shared := by
  intro p full alone
  have hmirrors : ∀ k, Mirrors tenantId t ((openPool works db).phase k)
      ((openPool (forTenant t works) (ownedBy tenantId t db)).phase k) := fun k =>
    ⟨confined_fresh tenantId _, clean_fresh _, rfl, rfl, rfl⟩
  obtain ⟨hphase, hshared⟩ := mirrors_run hmirrors rfl h
  exact ⟨fun k => (hphase k).finished, hshared⟩

/-- Constraints that are local see to it in every run. -/
theorem unaffected_of_localTo (h : LocalTo tenantId allows) (t : Uuid)
    (s : Config κ (Connection Row α) (Tables Row)) (schedule : List κ) :
    Unaffected tenantId allows t s schedule :=
  fun _ _ _ _ _ _ tx st _ _ _ _ =>
    h.unaffected (tenantIsolation_isolates tenantId) t _ tx.pending st

end Alone

/-! ### Unique indexes -/

/-- A unique index whose first column is `tenant_id` is local. -/
theorem localTo_tenantLeads [∀ i, DecidableEq (Row i)] [DecidableEq κ]
    (tenantId : ∀ i, Row i → Uuid) (i : TenantOwnedTable) (columns : Row i → κ) :
    LocalTo tenantId (uniqueIndex i fun a => some (tenantId i a, columns a)) := by
  refine RowSecurity.localTo_uniqueIndex fun a b _ h => ?_
  exact (Prod.mk.inj (Option.some.inj h)).1

section Domains

/-- `tenant_domains` as the only table that is of interest. -/
@[reducible] def DomainRows : TenantOwnedTable → Type := fun _ => TenantDomainRow

/-- The policies on `tenant_domains`. -/
def domainIsolation : Policy DomainRows Uuid := tenantIsolation fun _ => TenantDomainRow.tenantId

/-- `refreshDomain`, as far as it makes a row active. -/
def activateRow (tenantId id : Uuid) : TenantRun DomainRows ℕ where
  tenantId := uuidText tenantId
  fn
    | [] => .statement
        { answer := fun seen => (seen .tenantDomains).length
          writes := fun _ => [.update .tenantDomains (fun row => row.id = id)
            fun row => { row with verificationStatus := .active }] } false
    | _ => .returns

/-- `tenant_domains_tenant_id_hostname_key`. -/
def tenantHostnameKey : Tables DomainRows → List (Change DomainRows) → Bool :=
  uniqueIndex .tenantDomains fun row => some (row.tenantId, row.hostname)

/-- `tenant_domains_active_hostname_key`, over the rows that resolve. -/
def activeHostnameKey : Tables DomainRows → List (Change DomainRows) → Bool :=
  uniqueIndex .tenantDomains fun row =>
    if row.verificationStatus = .active then some row.hostname else none

/-- Two institutes with one hostname, which the first of them has active. -/
def sharedHostname : Tables DomainRows
  | .tenantDomains =>
    let row : TenantDomainRow :=
      ⟨1, 1, "college.example", false, .active, none, [], none, none, none, 0⟩
    [row, { row with id := 2, tenantId := 2, verificationStatus := .verifying }]
  | _ => []

/-- Both institutes refresh, each on its own connection. -/
def refreshes : Bool → List (Work DomainRows ℕ)
  | false => [.run (activateRow 1 1)]
  | true => [.run (activateRow 2 2)]

theorem pool_alone_refreshes :
    let start := openPool refreshes sharedHostname
    let schedule := [true, false, true, false, true, false, true]
    let full := run (turn (connectionStep domainIsolation tenantHostnameKey)) start schedule
    let alone := run (turn (connectionStep domainIsolation tenantHostnameKey))
      (openPool (forTenant 2 refreshes) (ownedBy (fun _ => TenantDomainRow.tenantId) 2
        sharedHostname)) (turnsOf domainIsolation tenantHostnameKey 2 start schedule)
    (∀ k, (alone.phase k).finished = (full.phase k).finished.filter fun o => o.tenant? = some 2) ∧
      alone.shared = ownedBy (fun _ => TenantDomainRow.tenantId) 2 full.shared :=
  pool_alone _ tenantHostnameKey refreshes sharedHostname _ 2
    (unaffected_of_localTo (localTo_tenantLeads _ _ _) _ _ _)

/-- Whether the units of the second institute end in a commit. -/
def secondCommits (works : Bool → List (Work DomainRows ℕ)) (db : Tables DomainRows) : List Bool :=
  ((run (turn (connectionStep domainIsolation activeHostnameKey)) (openPool works db)
    (List.replicate 4 true)).phase true).finished.map Outcome.committed

/-- The index over the hostnames that resolve is not local: a row that the second institute does not
see fails its unit. -/
theorem hostname_affects :
    secondCommits refreshes sharedHostname = [false] ∧
      secondCommits (forTenant 2 refreshes)
        (ownedBy (fun _ => TenantDomainRow.tenantId) 2 sharedHostname) = [true] := by
  decide +kernel

end Domains

end LampLight
