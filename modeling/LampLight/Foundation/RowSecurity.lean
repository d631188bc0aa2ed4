import LampLight.Foundation.Machine
import LampLight.Foundation.Table
import Mathlib.Logic.Function.Basic

/-!
# Row security

A database with row-level security runs every statement under policies: a session sees the rows its
policy shows, and writes only rows its policy admits. A statement is therefore an arbitrary function
of the rows that are shown, both in what it answers and in what it writes. Nothing is assumed about
its `where` clauses, its joins or its subqueries.

A session belongs to an owner or to nobody. A policy *isolates* owners when it shows and admits
exactly the rows of the session's owner, and nothing to nobody.

## Pending changes

A statement fixes the rows it writes when it runs. A transaction is kept as these changes, which are
made to the tables when it commits. Its own statements see what the changes make of the rows that
are committed when they look, which is read committed isolation.

## Constraints

Constraints are checked over all rows, whatever the policies show: a unique index knows the rows of
every owner. They are *local* when the rows of one owner never decide over another's.

## Main results

* `visible_owned`, `visible_none` — what a session sees
* `apply_owned`, `apply_others` — on the owner's own rows changes do what they do on the whole
  database, and nothing anywhere else
* `resolve_of`, `resolve_owned` — a statement's changes are the owner's, and come from its rows
* `execute_owned` — a statement answers and writes from the owner's rows alone
* `localTo_uniqueIndex` — a unique index whose keys name the owner is local
-/

namespace RowSecurity

variable {ι τ α κ : Type} {Row : ι → Type}

/-- The rows of every table. -/
abbrev Tables (Row : ι → Type) := ∀ i, List (Row i)

/-- What a session shows and admits: `using` and `with check`, of every table. -/
structure Policy (Row : ι → Type) (τ : Type) where
  shows : ∀ i, Option τ → Row i → Bool
  admits : ∀ i, Option τ → Row i → Bool

/-- What a session sees. -/
def Policy.visible (p : Policy Row τ) (g : Option τ) (db : Tables Row) : Tables Row :=
  fun i => (db i).filter (p.shows i g)

/-- One write to one table. -/
inductive Write (Row : ι → Type)
  | insert (i : ι) (rows : List (Row i))
  | update (i : ι) (qualifies : Row i → Bool) (set : Row i → Row i)
  | delete (i : ι) (qualifies : Row i → Bool)

/-- What a statement answers and writes, given what it sees. -/
structure Statement (Row : ι → Type) (α : Type) where
  answer : Tables Row → α
  writes : Tables Row → List (Write Row)

/-- A write with the very rows it adds, rewrites or removes. -/
inductive Change (Row : ι → Type)
  | insert (i : ι) (rows : List (Row i))
  | update (i : ι) (rows : List (Row i)) (set : Row i → Row i)
  | delete (i : ι) (rows : List (Row i))

section Execution

variable [DecidableEq ι] [∀ i, DecidableEq (Row i)] (p : Policy Row τ) (g : Option τ)

/-- What a change makes of the tables. A row that is gone by now is not touched. -/
def Change.apply (db : Tables Row) : Change Row → Tables Row
  | .insert i rows => Function.update db i (db i ++ rows)
  | .update i rows set => Function.update db i (Table.update (· ∈ rows) set (db i))
  | .delete i rows => Function.update db i (Table.delete (· ∈ rows) (db i))

/-- Several changes, in order. -/
def applyAll (db : Tables Row) (cs : List (Change Row)) : Tables Row := cs.foldl Change.apply db

/-- The change that a write comes to under a policy, or nothing when the policy refuses it. Rows
that are not shown are not touched, and a row that is written has to be admitted. -/
def Policy.resolve (db : Tables Row) : Write Row → Option (Change Row)
  | .insert i rows => if rows.all (p.admits i g) then some (.insert i rows) else none
  | .update i qualifies set =>
    let rows := (db i).filter fun a => p.shows i g a && qualifies a
    if rows.all fun a => p.admits i g (set a) then some (.update i rows set) else none
  | .delete i qualifies => some (.delete i ((db i).filter fun a => p.shows i g a && qualifies a))

/-- Several writes, each after the ones before it. -/
def Policy.resolveAll : Tables Row → List (Write Row) → Option (List (Change Row))
  | _, [] => some []
  | db, w :: ws => (p.resolve g db w).bind fun c =>
    (Policy.resolveAll (c.apply db) ws).map fun cs => c :: cs

/-- A statement of a transaction that has changed `pending` so far: what it answers, and what the
transaction has changed after it. It fails when the policy refuses a write, or the constraints the
changes. -/
def Policy.execute (allows : Tables Row → List (Change Row) → Bool) (db : Tables Row)
    (pending : List (Change Row)) (s : Statement Row α) : Option (α × List (Change Row)) :=
  let current := applyAll db pending
  let seen := p.visible g current
  (p.resolveAll g current (s.writes seen)).bind fun changes =>
    if allows current changes then some (s.answer seen, pending ++ changes) else none

theorem applyAll_cons (db : Tables Row) (c : Change Row) (cs : List (Change Row)) :
    applyAll db (c :: cs) = applyAll (c.apply db) cs := rfl

end Execution

/-! ### Policies that isolate -/

section Isolation

variable [DecidableEq τ] (owner : ∀ i, Row i → τ)

/-- The rows of one owner, in every table. -/
def ownedBy (t : τ) (db : Tables Row) : Tables Row := fun i => Table.owned (owner i) t (db i)

/-- A policy that shows and admits a row exactly to its owner. -/
structure Policy.Isolates (p : Policy Row τ) : Prop where
  shows : ∀ i g a, p.shows i g a = decide (g = some (owner i a))
  admits : ∀ i g a, p.admits i g a = decide (g = some (owner i a))

/-- Every row of a change, before and after it, belongs to the session's owner. -/
def Change.Of (g : Option τ) : Change Row → Prop
  | .insert i rows => ∀ a ∈ rows, g = some (owner i a)
  | .update i rows set => ∀ a ∈ rows, g = some (owner i a) ∧ g = some (owner i (set a))
  | .delete i rows => ∀ a ∈ rows, g = some (owner i a)

variable {owner} {p : Policy Row τ} {t u : τ} {g : Option τ} {db : Tables Row} {i : ι} {a : Row i}

@[simp] theorem ownedBy_ownedBy (t : τ) (db : Tables Row) :
    ownedBy owner t (ownedBy owner t db) = ownedBy owner t db :=
  funext fun i => Table.owned_owned (db i)

theorem Policy.Isolates.shows_iff (hp : p.Isolates owner) :
    p.shows i g a = true ↔ g = some (owner i a) := by
  rw [hp.shows, decide_eq_true_eq]

theorem Policy.Isolates.admits_iff (hp : p.Isolates owner) :
    p.admits i g a = true ↔ g = some (owner i a) := by
  rw [hp.admits, decide_eq_true_eq]

/-- An owner sees the rows that are its own. -/
theorem visible_owned (hp : p.Isolates owner) (t : τ) (db : Tables Row) :
    p.visible (some t) db = ownedBy owner t db := by
  funext i
  refine List.filter_congr fun a _ => ?_
  rw [hp.shows]
  exact decide_eq_decide.mpr (Option.some_inj.trans eq_comm)

/-- Nobody sees nothing. -/
theorem visible_none (hp : p.Isolates owner) (db : Tables Row) :
    p.visible none db = fun _ => [] := by
  funext i
  exact List.filter_eq_nil_iff.mpr fun a _ => by simp [hp.shows]

/-! ### What a write comes to -/

variable {c : Change Row} {cs : List (Change Row)}

/-- The changes of a session are the owner's, and nobody changes nothing. -/
theorem resolve_of (hp : p.Isolates owner) {w : Write Row} (h : p.resolve g db w = some c) :
    c.Of owner g := by
  cases w with
  | insert i rows =>
    simp only [Policy.resolve] at h
    split_ifs at h with hrows
    obtain rfl := Option.some.inj h
    exact fun a ha => hp.admits_iff.mp (List.all_eq_true.mp hrows a ha)
  | update i qualifies set =>
    simp only [Policy.resolve] at h
    split_ifs at h with hrows
    obtain rfl := Option.some.inj h
    intro a ha
    have hshows := (Bool.and_eq_true _ _).mp (List.mem_filter.mp ha).2
    exact ⟨hp.shows_iff.mp hshows.1, hp.admits_iff.mp (List.all_eq_true.mp hrows a ha)⟩
  | delete i qualifies =>
    obtain rfl := Option.some.inj h
    intro a ha
    exact hp.shows_iff.mp ((Bool.and_eq_true _ _).mp (List.mem_filter.mp ha).2).1

theorem filter_ownedBy (hp : p.Isolates owner) (t : τ) (db : Tables Row) (i : ι)
    (qualifies : Row i → Bool) :
    (ownedBy owner t db i).filter (fun a => p.shows i (some t) a && qualifies a)
      = (db i).filter fun a => p.shows i (some t) a && qualifies a := by
  refine Table.filter_owned (fun a ha => ?_) (db i)
  exact (Option.some.inj (hp.shows_iff.mp ((Bool.and_eq_true _ _).mp ha).1)).symm

/-- A write comes to the same with the owner's rows alone. -/
theorem resolve_owned (hp : p.Isolates owner) (t : τ) (db : Tables Row) (w : Write Row) :
    p.resolve (some t) (ownedBy owner t db) w = p.resolve (some t) db w := by
  cases w with
  | insert i rows => rfl
  | update i qualifies set => simp only [Policy.resolve, filter_ownedBy hp]
  | delete i qualifies => simp only [Policy.resolve, filter_ownedBy hp]

/-! ### Changes stay with the owner -/

section Changes

variable [DecidableEq ι]

theorem ownedBy_update (t : τ) (db : Tables Row) (i : ι) (rows : List (Row i)) :
    ownedBy owner t (Function.update db i rows)
      = Function.update (ownedBy owner t db) i (Table.owned (owner i) t rows) := by
  funext j
  by_cases hj : j = i
  · subst hj
    rw [ownedBy, Function.update_self, Function.update_self]
  · rw [ownedBy, Function.update_of_ne hj, Function.update_of_ne hj]
    rfl

/-- A table whose rows of an owner are what they were. -/
theorem ownedBy_update_of_eq {rows : List (Row i)}
    (h : Table.owned (owner i) t rows = Table.owned (owner i) t (db i)) :
    ownedBy owner t (Function.update db i rows) = ownedBy owner t db := by
  rw [ownedBy_update, h]
  exact Function.update_eq_self i (ownedBy owner t db)

variable [∀ i, DecidableEq (Row i)]

/-- A change does to the owner's rows what it does to them among the others'. -/
theorem apply_owned (h : c.Of owner (some t)) (db : Tables Row) :
    ownedBy owner t (c.apply db) = c.apply (ownedBy owner t db) := by
  cases c with
  | insert i rows =>
    rw [Change.apply, ownedBy_update,
      Table.owned_append_of_owned fun a ha => (Option.some.inj (h a ha)).symm]
    rfl
  | update i rows set =>
    rw [Change.apply, ownedBy_update, Table.owned_update_of_owned fun a _ ha => ?_]
    · rfl
    · obtain ⟨hwas, his⟩ := h a (of_decide_eq_true ha)
      exact ⟨(Option.some.inj hwas).symm, (Option.some.inj his).symm⟩
  | delete i rows =>
    rw [Change.apply, ownedBy_update, Table.owned_delete]
    rfl

/-- And it leaves the rows of every other owner as they are. -/
theorem apply_others (h : c.Of owner g) (hu : g ≠ some u) (db : Tables Row) :
    ownedBy owner u (c.apply db) = ownedBy owner u db := by
  have hne : ∀ v, g = some v → v ≠ u := by
    rintro v rfl rfl
    exact hu rfl
  cases c with
  | insert i rows =>
    exact ownedBy_update_of_eq (Table.owned_append_of_ne fun a ha => hne _ (h a ha))
  | update i rows set =>
    refine ownedBy_update_of_eq (Table.owned_update_of_ne fun a _ ha => ?_)
    obtain ⟨hwas, his⟩ := h a (of_decide_eq_true ha)
    exact ⟨hne _ hwas, hne _ his⟩
  | delete i rows =>
    exact ownedBy_update_of_eq (Table.owned_delete_of_ne fun a _ ha =>
      hne _ (h a (of_decide_eq_true ha)))

theorem applyAll_owned (h : ∀ c ∈ cs, c.Of owner (some t)) (db : Tables Row) :
    ownedBy owner t (applyAll db cs) = applyAll (ownedBy owner t db) cs := by
  induction cs generalizing db with
  | nil => rfl
  | cons c cs ih =>
    rw [applyAll_cons, applyAll_cons, ih fun d hd => h d (List.mem_cons_of_mem _ hd),
      apply_owned (h c (List.mem_cons_self ..))]

theorem applyAll_others (h : ∀ c ∈ cs, c.Of owner g) (hu : g ≠ some u) (db : Tables Row) :
    ownedBy owner u (applyAll db cs) = ownedBy owner u db := by
  induction cs generalizing db with
  | nil => rfl
  | cons c cs ih =>
    rw [applyAll_cons, ih fun d hd => h d (List.mem_cons_of_mem _ hd),
      apply_others (h c (List.mem_cons_self ..)) hu]

/-! ### A statement's changes -/

theorem resolveAll_of (hp : p.Isolates owner) {ws : List (Write Row)}
    (h : p.resolveAll g db ws = some cs) : ∀ c ∈ cs, c.Of owner g := by
  induction ws generalizing db cs with
  | nil =>
    obtain rfl := Option.some.inj h
    exact fun c hc => absurd hc List.not_mem_nil
  | cons w ws ih =>
    obtain ⟨first, hfirst, hcons⟩ := Option.bind_eq_some_iff.mp h
    obtain ⟨rest, hrest, rfl⟩ := Option.map_eq_some_iff.mp hcons
    intro c hc
    rcases List.mem_cons.mp hc with rfl | hc
    · exact resolve_of hp hfirst
    · exact ih hrest c hc

theorem resolveAll_owned (hp : p.Isolates owner) (t : τ) (db : Tables Row)
    (ws : List (Write Row)) :
    p.resolveAll (some t) (ownedBy owner t db) ws = p.resolveAll (some t) db ws := by
  induction ws generalizing db with
  | nil => rfl
  | cons w ws ih =>
    rw [Policy.resolveAll, Policy.resolveAll, resolve_owned hp]
    cases hfirst : p.resolve (some t) db w with
    | none => rfl
    | some c => rw [Option.bind_some, Option.bind_some, ← apply_owned (resolve_of hp hfirst), ih]

/-! ### Constraints -/

variable {allows : Tables Row → List (Change Row) → Bool} {pending : List (Change Row)}
  {s : Statement Row α}

/-- The constraints say of a statement what they would say of it with the owner's rows alone. -/
def Policy.Unaffected (p : Policy Row τ) (owner : ∀ i, Row i → τ)
    (allows : Tables Row → List (Change Row) → Bool) (t : τ) (db : Tables Row)
    (pending : List (Change Row)) (s : Statement Row α) : Prop :=
  let current := applyAll db pending
  ∀ changes, p.resolveAll (some t) current (s.writes (p.visible (some t) current)) = some changes →
    allows (ownedBy owner t current) changes = allows current changes

/-- The constraints let an owner's changes through or not because of the owner's rows. -/
def LocalTo (owner : ∀ i, Row i → τ) (allows : Tables Row → List (Change Row) → Bool) : Prop :=
  ∀ t db changes, (∀ c ∈ changes, c.Of owner (some t)) →
    allows (ownedBy owner t db) changes = allows db changes

theorem LocalTo.unaffected (h : LocalTo owner allows) (hp : p.Isolates owner) (t : τ)
    (db : Tables Row) (pending : List (Change Row)) (s : Statement Row α) :
    p.Unaffected owner allows t db pending s :=
  fun changes hchanges => h t _ changes (resolveAll_of hp hchanges)

theorem execute_of (hp : p.Isolates owner) {answer : α} {changed : List (Change Row)}
    (hpending : ∀ c ∈ pending, c.Of owner g)
    (h : p.execute g allows db pending s = some (answer, changed)) :
    ∀ c ∈ changed, c.Of owner g := by
  obtain ⟨changes, hchanges, hallowed⟩ := Option.bind_eq_some_iff.mp h
  split_ifs at hallowed
  obtain ⟨-, rfl⟩ := Prod.mk.inj (Option.some.inj hallowed)
  intro c hc
  rcases List.mem_append.mp hc with hc | hc
  · exact hpending c hc
  · exact resolveAll_of hp hchanges c hc

/-- A statement answers and writes from the owner's rows alone, unless another's rows decide over
it. -/
theorem execute_owned (hp : p.Isolates owner) (hpending : ∀ c ∈ pending, c.Of owner (some t))
    (h : p.Unaffected owner allows t db pending s) :
    p.execute (some t) allows (ownedBy owner t db) pending s
      = p.execute (some t) allows db pending s := by
  simp only [Policy.execute, ← applyAll_owned hpending, visible_owned hp, ownedBy_ownedBy,
    resolveAll_owned hp]
  rw [Policy.Unaffected, visible_owned hp] at h
  cases hchanges : p.resolveAll (some t) (applyAll db pending)
      (s.writes (ownedBy owner t (applyAll db pending))) with
  | none => rfl
  | some changes => rw [Option.bind_some, Option.bind_some, h changes hchanges]

/-! ### Unique indexes -/

section UniqueIndex

variable [DecidableEq κ]

/-- A unique index over the rows of a table that have a key: a row that was not there before shares
its key with no other. -/
def uniqueIndex (i : ι) (key : Row i → Option κ) (db : Tables Row) (changes : List (Change Row)) :
    Bool :=
  let after := applyAll db changes i
  after.all fun a =>
    decide (a ∈ db i) || decide (key a = none) ||
      decide ((after.filter fun b => key b = key a).length ≤ 1)

/-- A unique index is local when rows with one key have one owner, such as when its first column is
the owner's. -/
theorem localTo_uniqueIndex {key : Row i → Option κ}
    (hkey : ∀ a b, key a ≠ none → key b = key a → owner i b = owner i a) :
    LocalTo owner (uniqueIndex i key) := by
  intro t db changes hof
  have hafter : applyAll (ownedBy owner t db) changes i
      = Table.owned (owner i) t (applyAll db changes i) :=
    (congrFun (applyAll_owned hof db) i).symm
  rw [uniqueIndex, uniqueIndex, hafter, Bool.eq_iff_iff, List.all_eq_true, List.all_eq_true]
  have hsame : ∀ a, owner i a = t → key a ≠ none →
      (Table.owned (owner i) t (applyAll db changes i)).filter (fun b => key b = key a)
        = (applyAll db changes i).filter fun b => key b = key a := by
    intro a ha hsome
    exact Table.filter_owned (fun b hb => (hkey a b hsome (of_decide_eq_true hb)).trans ha) _
  constructor
  · intro h a ha
    by_cases hown : owner i a = t
    · have hrow := h a (Table.mem_owned.mpr ⟨ha, hown⟩)
      by_cases hsome : key a = none
      · simp [hsome]
      · simpa [ownedBy, hown, hsome, hsame a hown hsome] using hrow
    · -- a row of somebody else is as it was
      have hold : a ∈ ownedBy owner (owner i a) db i := by
        rw [← applyAll_others hof (fun h => hown (Option.some.inj h).symm)]
        exact Table.mem_owned.mpr ⟨ha, rfl⟩
      simp [(Table.mem_owned.mp hold).1]
  · intro h a ha
    obtain ⟨ha, hown⟩ := Table.mem_owned.mp ha
    have hrow := h a ha
    by_cases hsome : key a = none
    · simp [hsome]
    · simpa [ownedBy, hown, hsome, hsame a hown hsome] using hrow

end UniqueIndex

end Changes

end Isolation

end RowSecurity
