import Mathlib.Logic.Basic
import Mathlib.Data.List.Basic

/-!
# Machines and their runs

A machine is a step function `step : σ → α → σ`: what a state becomes when an action happens. Every
choice the environment makes (who calls, what a remote service answers, what the clock says) is part
of the action, so a run is a list of actions and a property of all runs is a property of all lists.

## Conditions on a run

`Meets step ok s as` says that each action of the run satisfies `ok` in the state it is taken in.
Both the assumptions of a theorem and a property of single steps have this shape, which is what lets
`Meets.iff_of_invariant` compare the two along a whole run.

## Main results

* `Preserves.run`, `run_invariant` — an invariant that each allowed step, or each step, preserves
  holds after every allowed run, or every run
* `held_iff` — what a run holds at its end, from what one step puts there and takes away
* `Meets.of_invariant`, `Meets.iff_of_invariant` — from one step under an invariant to a whole run
* `forEach_invariant` — the same for a loop inside a step
-/

namespace Machine

universe u

variable {σ α : Type*} (step : σ → α → σ)

/-- The state after the actions of a run, in order. -/
def run (s : σ) (as : List α) : σ := as.foldl step s

@[simp] theorem run_nil (s : σ) : run step s [] = s := rfl

@[simp] theorem run_cons (s : σ) (a : α) (as : List α) :
    run step s (a :: as) = run step (step s a) as := rfl

theorem run_append (s : σ) (as bs : List α) :
    run step s (as ++ bs) = run step (run step s as) bs := List.foldl_append

/-- Every action of the run is taken in a state that allows it. -/
def Meets (ok : σ → α → Prop) : σ → List α → Prop
  | _, [] => True
  | s, a :: as => ok s a ∧ Meets ok (step s a) as

@[simp] theorem meets_nil (ok : σ → α → Prop) (s : σ) : Meets step ok s [] := trivial

@[simp] theorem meets_cons (ok : σ → α → Prop) (s : σ) (a : α) (as : List α) :
    Meets step ok s (a :: as) ↔ ok s a ∧ Meets step ok (step s a) as := Iff.rfl

instance Meets.decidable (ok : σ → α → Prop) [∀ s a, Decidable (ok s a)] :
    ∀ (s : σ) (as : List α), Decidable (Meets step ok s as)
  | _, [] => isTrue trivial
  | s, a :: as => @instDecidableAnd _ _ _ (Meets.decidable ok (step s a) as)

theorem meets_append {ok : σ → α → Prop} {s : σ} {as bs : List α} :
    Meets step ok s (as ++ bs) ↔ Meets step ok s as ∧ Meets step ok (run step s as) bs := by
  induction as generalizing s with
  | nil => simp
  | cons a as ih => simp [ih, and_assoc]

theorem meets_true (s : σ) (as : List α) : Meets step (fun _ _ => True) s as := by
  induction as generalizing s with
  | nil => trivial
  | cons a as ih => exact ⟨trivial, ih _⟩

theorem meets_of_forall_mem {ok : α → Prop} (s : σ) {as : List α} (h : ∀ a ∈ as, ok a) :
    Meets step (fun _ a => ok a) s as := by
  induction as generalizing s with
  | nil => trivial
  | cons a as ih =>
    exact ⟨h a (List.mem_cons_self ..), ih _ fun b hb => h b (List.mem_cons_of_mem _ hb)⟩

/-- Every allowed step takes a state of `I` to a state of `I`. -/
def Preserves (ok : σ → α → Prop) (I : σ → Prop) : Prop :=
  ∀ s a, ok s a → I s → I (step s a)

variable {step} {ok P Q : σ → α → Prop} {I : σ → Prop}

/-- **The invariant rule.** -/
theorem Preserves.run (h : Preserves step ok I) {s : σ} {as : List α} (hs : I s)
    (has : Meets step ok s as) : I (Machine.run step s as) := by
  induction as generalizing s with
  | nil => exact hs
  | cons a as ih => exact ih (h s a has.1 hs) has.2

/-- The rule for what every step preserves, whatever the action. -/
theorem run_invariant (h : ∀ s a, I s → I (step s a)) {s : σ} (hs : I s) (as : List α) :
    I (Machine.run step s as) := by
  have hpres : Preserves step (fun _ _ => True) I := fun s a _ => h s a
  exact hpres.run hs (meets_true step s as)

/-- What a state holds after a run it held before, or a step of the run has put there. -/
theorem held_or_put {β : Type*} {H : σ → β → Prop} {Put : σ → α → β → Prop}
    (h : ∀ s a b, H (step s a) b → H s b ∨ Put s a b) {s : σ} {as : List α} {b : β}
    (hb : H (Machine.run step s as) b) :
    H s b ∨ ∃ before a after, as = before ++ a :: after ∧ Put (Machine.run step s before) a b := by
  induction as generalizing s with
  | nil => exact Or.inl hb
  | cons a as ih =>
    rcases ih hb with hnext | ⟨before, a', after, rfl, hput⟩
    · exact (h s a b hnext).imp_right fun hput => ⟨[], a, as, rfl, hput⟩
    · exact Or.inr ⟨a :: before, a', after, rfl, hput⟩

/-- **What a run holds at its end**: what it held before and no step has taken away, and what a step
has put there and none has taken away since. -/
theorem held_iff {β : Type*} {H : σ → β → Prop} {Put Cut : σ → α → β → Prop}
    (h : ∀ s a b, H (step s a) b ↔ (H s b ∧ ¬ Cut s a b) ∨ Put s a b) {s : σ} {as : List α}
    {b : β} :
    H (Machine.run step s as) b ↔
      (H s b ∧ Meets step (fun s a => ¬ Cut s a b) s as) ∨
        ∃ before a after, as = before ++ a :: after ∧ Put (Machine.run step s before) a b ∧
          Meets step (fun s a => ¬ Cut s a b) (Machine.run step s (before ++ [a])) after := by
  induction as generalizing s with
  | nil => simp
  | cons a as ih =>
    rw [run_cons, ih, h s a b, meets_cons]
    constructor
    · rintro (⟨⟨hs, hcut⟩ | hput, hmeets⟩ | ⟨before, a', after, rfl, hput, hmeets⟩)
      · exact Or.inl ⟨hs, hcut, hmeets⟩
      · exact Or.inr ⟨[], a, as, rfl, hput, hmeets⟩
      · exact Or.inr ⟨a :: before, a', after, rfl, hput, hmeets⟩
    · rintro (⟨hs, hcut, hmeets⟩ | ⟨before, a', after, heq, hput, hmeets⟩)
      · exact Or.inl ⟨Or.inl ⟨hs, hcut⟩, hmeets⟩
      · cases before with
        | nil =>
          obtain ⟨rfl, rfl⟩ := List.cons.inj heq
          exact Or.inl ⟨Or.inr hput, hmeets⟩
        | cons first before =>
          obtain ⟨rfl, rfl⟩ := List.cons.inj heq
          exact Or.inr ⟨before, a', after, rfl, hput, hmeets⟩

/-- What every allowed step satisfies under an invariant, every step of an allowed run satisfies. -/
theorem Meets.of_invariant (h : Preserves step ok I) (hstep : ∀ s a, I s → ok s a → P s a) {s : σ}
    {as : List α} (hs : I s) (has : Meets step ok s as) : Meets step P s as := by
  induction as generalizing s with
  | nil => trivial
  | cons a as ih => exact ⟨hstep s a hs has.1, ih (h s a has.1 hs) has.2⟩

/-- Two step properties that agree under an invariant agree along every allowed run, when the steps
that have them keep the invariant. -/
theorem Meets.iff_of_invariant (hI : ∀ s a, I s → ok s a → Q s a → I (step s a))
    (hstep : ∀ s a, I s → ok s a → (P s a ↔ Q s a)) {s : σ} {as : List α} (hs : I s)
    (has : Meets step ok s as) : Meets step P s as ↔ Meets step Q s as := by
  induction as generalizing s with
  | nil => exact Iff.rfl
  | cons a as ih =>
    rw [meets_cons, meets_cons, hstep s a hs has.1]
    exact and_congr_right fun hQ => ih (hI s a hs has.1 hQ) has.2

/-- What every step leads to holds in every state on the way. -/
theorem meets_step_iff {D : σ → Prop} {s : σ} {as : List α} :
    D s ∧ Meets step (fun s a => D (step s a)) s as ↔
      ∀ before, before <+: as → D (Machine.run step s before) := by
  induction as generalizing s with
  | nil =>
    constructor
    · rintro ⟨hs, -⟩ before hbefore
      rw [List.prefix_nil.mp hbefore]
      exact hs
    · exact fun h => ⟨h [] List.prefix_rfl, trivial⟩
  | cons a as ih =>
    rw [meets_cons, ih]
    constructor
    · rintro ⟨hs, hrest⟩ before hbefore
      rcases List.prefix_cons_iff.mp hbefore with rfl | ⟨tail, rfl, htail⟩
      · exact hs
      · exact hrest tail htail
    · intro h
      refine ⟨h [] List.nil_prefix, fun before hbefore => ?_⟩
      exact h (a :: before) (List.cons_prefix_cons.mpr ⟨rfl, hbefore⟩)

theorem Meets.and {s : σ} {as : List α} (hP : Meets step P s as) (hQ : Meets step Q s as) :
    Meets step (fun s a => P s a ∧ Q s a) s as := by
  induction as generalizing s with
  | nil => trivial
  | cons a as ih => exact ⟨⟨hP.1, hQ.1⟩, ih hP.2 hQ.2⟩

theorem Meets.mono (hPQ : ∀ s a, P s a → Q s a) {s : σ} {as : List α} (h : Meets step P s as) :
    Meets step Q s as := by
  induction as generalizing s with
  | nil => trivial
  | cons a as ih => exact ⟨hPQ s a h.1, ih h.2⟩

/-! ### Computations that may fail -/

theorem bind_eq_ok {ε : Type*} {β γ : Type u} {x : Except ε β} {f : β → Except ε γ} {c : γ} :
    (x >>= f) = .ok c ↔ ∃ b, x = .ok b ∧ f b = .ok c := by
  cases x with
  | error e =>
    constructor
    · intro h
      cases h
    · rintro ⟨b, hb, -⟩
      cases hb
  | ok b =>
    constructor
    · exact fun h => ⟨b, rfl, h⟩
    · rintro ⟨b', hb, h⟩
      obtain rfl := Except.ok.inj hb
      exact h

theorem map_eq_ok {ε β γ : Type*} {x : Except ε β} {f : β → γ} {c : γ} :
    x.map f = .ok c ↔ ∃ b, x = .ok b ∧ f b = c := by
  cases x with
  | error e => simp [Except.map]
  | ok b => simp [Except.map]

theorem map_eq_error {ε β γ : Type*} {x : Except ε β} {f : β → γ} {e : ε} :
    x.map f = .error e ↔ x = .error e := by
  cases x with
  | error e => simp [Except.map]
  | ok b => simp [Except.map]

/-- A computation in two steps, seen through maps: the first step is seen through `g`, and the
second continues from what `g` shows. -/
theorem bind_eq_map_bind {ε : Type*} {β β' γ γ' : Type u} {x : Except ε β} {x' : Except ε β'}
    {f : β → Except ε γ} {f' : β' → Except ε γ'} (g : β → β') {h : γ → γ'} (hx : x' = x.map g)
    (hf : ∀ b, x = .ok b → f' (g b) = (f b).map h) : (x' >>= f') = (x >>= f).map h := by
  subst hx
  cases x with
  | error e => rfl
  | ok b => exact hf b rfl

/-- The same for a second step that cannot fail. -/
theorem map_eq_map_map {ε β β' γ γ' : Type*} {x : Except ε β} {x' : Except ε β'} {f : β → γ}
    {f' : β' → γ'} (g : β → β') {h : γ → γ'} (hx : x' = x.map g) (hf : ∀ b, f' (g b) = h (f b)) :
    x'.map f' = (x.map f).map h := by
  subst hx
  cases x with
  | error e => rfl
  | ok b => exact congrArg Except.ok (hf b)

/-! ### Loops that an exception ends -/

section Loop

variable {ε δ : Type*}

/-- The outcome of an operation whose result nobody looks at. -/
def discard {β : Type*} (r : Except ε β × σ) : Except ε Unit × σ := (r.1.map fun _ => (), r.2)

@[simp] theorem discard_snd {β : Type*} (r : Except ε β × σ) : (discard r).2 = r.2 := rfl

/-- A loop over a list whose body may throw. An exception leaves the rest of the list undone and
keeps what has happened so far. -/
def forEach (body : σ → δ → Except ε Unit × σ) : σ → List δ → Except ε Unit × σ
  | s, [] => (.ok (), s)
  | s, d :: ds =>
    match body s d with
    | (.error e, s') => (.error e, s')
    | (.ok (), s') => forEach body s' ds

variable {body : σ → δ → Except ε Unit × σ}

theorem forEach_cons_ok {s s' : σ} {d : δ} (h : body s d = (.ok (), s')) (ds : List δ) :
    forEach body s (d :: ds) = forEach body s' ds := by
  rw [forEach, h]

theorem forEach_cons_error {s s' : σ} {d : δ} {e : ε} (h : body s d = (.error e, s'))
    (ds : List δ) : forEach body s (d :: ds) = (.error e, s') := by
  rw [forEach, h]

theorem forEach_map {β : Type*} (f : β → δ) (s : σ) (bs : List β) :
    forEach body s (bs.map f) = forEach (fun s b => body s (f b)) s bs := by
  induction bs generalizing s with
  | nil => rfl
  | cons b bs ih =>
    rw [List.map_cons, forEach, forEach]
    split
    · rfl
    · exact ih _

theorem forEach_singleton (s : σ) (d : δ) : forEach body s [d] = body s d := by
  rw [forEach]
  split
  · next h => exact h.symm
  · next h => exact h.symm

/-- What every turn of a loop preserves, the loop preserves. -/
theorem forEach_invariant {ds : List δ} (h : ∀ s, ∀ d ∈ ds, I s → I (body s d).2) {s : σ}
    (hs : I s) : I (forEach body s ds).2 := by
  induction ds generalizing s with
  | nil => exact hs
  | cons d ds ih =>
    have hd : I (body s d).2 := h s d (List.mem_cons_self ..) hs
    cases hbody : body s d with
    | mk result s' =>
      rw [hbody] at hd
      cases result with
      | error e =>
        rw [forEach_cons_error hbody]
        exact hd
      | ok _ =>
        rw [forEach_cons_ok hbody]
        exact ih (fun s x hx => h s x (List.mem_cons_of_mem _ hx)) hd

/-- What every turn's result satisfies, the loop's result satisfies. -/
theorem forEach_result {R : Except ε Unit → Prop} {ds : List δ}
    (hI : ∀ s, ∀ d ∈ ds, I s → I (body s d).2) (h : ∀ s, ∀ d ∈ ds, I s → R (body s d).1)
    (hok : R (.ok ())) {s : σ} (hs : I s) : R (forEach body s ds).1 := by
  induction ds generalizing s with
  | nil => exact hok
  | cons d ds ih =>
    have hd : I (body s d).2 := hI s d (List.mem_cons_self ..) hs
    have hr : R (body s d).1 := h s d (List.mem_cons_self ..) hs
    cases hbody : body s d with
    | mk result s' =>
      rw [hbody] at hd hr
      cases result with
      | error e =>
        rw [forEach_cons_error hbody]
        exact hr
      | ok _ =>
        rw [forEach_cons_ok hbody]
        exact ih (fun s x hx => hI s x (List.mem_cons_of_mem _ hx))
          (fun s x hx => h s x (List.mem_cons_of_mem _ hx)) hd

/-- What one turn achieves and every turn keeps, a loop that ran through has achieved. -/
theorem forEach_achieves {Q : σ → Prop} {ds : List δ} {d₀ : δ} (hd₀ : d₀ ∈ ds)
    (hI : ∀ s, ∀ d ∈ ds, I s → I (body s d).2)
    (hset : ∀ s, I s → (body s d₀).1 = .ok () → Q (body s d₀).2)
    (hkeep : ∀ s, ∀ d ∈ ds, I s → Q s → Q (body s d).2) {s : σ} (hs : I s)
    (hok : (forEach body s ds).1 = .ok ()) : Q (forEach body s ds).2 := by
  induction ds generalizing s with
  | nil => cases hd₀
  | cons d ds ih =>
    have hd : I (body s d).2 := hI s d (List.mem_cons_self ..) hs
    cases hbody : body s d with
    | mk result s' =>
      cases result with
      | error e =>
        rw [forEach_cons_error hbody] at hok
        cases hok
      | ok _ =>
        rw [forEach_cons_ok hbody] at hok ⊢
        have hI' : ∀ s, ∀ x ∈ ds, I s → I (body s x).2 :=
          fun s x hx => hI s x (List.mem_cons_of_mem _ hx)
        have hkeep' : ∀ s, ∀ x ∈ ds, I s → Q s → Q (body s x).2 :=
          fun s x hx => hkeep s x (List.mem_cons_of_mem _ hx)
        have hs' : I s' := by
          rw [hbody] at hd
          exact hd
        rcases List.mem_cons.mp hd₀ with rfl | hmem
        · have hQ : Q s' := by
            have := hset s hs (by rw [hbody])
            rw [hbody] at this
            exact this
          have hboth : I (forEach body s' ds).2 ∧ Q (forEach body s' ds).2 :=
            forEach_invariant (I := fun s => I s ∧ Q s)
              (fun s x hx h => ⟨hI' s x hx h.1, hkeep' s x hx h.1 h.2⟩) ⟨hs', hQ⟩
          exact hboth.2
        · exact ih hmem hI' hkeep' hs' hok

end Loop

end Machine
