import LampLight.Foundation.Machine
import Mathlib.Logic.Function.Iterate

/-!
# Interleaved processes

Several processes work on one shared state. Each is a step function of its own local phase and the
shared state, and a schedule is the list of who moves next. Nothing is assumed about fairness: a
process that has finished steps to itself.

## Rely and guarantee

`run_invariant` is the rule for a property of one process that survives whatever the others do: its
own steps keep it, every step of every process guarantees some relation between the shared state
before and after, and the property is stable under that relation.

## Main results

* `turn_invariant_of_ne`, `turn_invariant`, `run_invariant` — the rule, for one turn and for a
  schedule
* `run_replicate` — a process that is scheduled alone
-/

namespace Interleave

variable {ι π σ : Type*} [DecidableEq ι] (step : ι → π → σ → π × σ)

/-- Where each process is, and what they share. -/
structure Config (ι π σ : Type*) where
  phase : ι → π
  shared : σ

/-- One step of one process. -/
def turn (c : Config ι π σ) (i : ι) : Config ι π σ where
  phase := Function.update c.phase i (step i (c.phase i) c.shared).1
  shared := (step i (c.phase i) c.shared).2

variable {step} {J : ι → π → σ → Prop} {G : σ → σ → Prop}

/-- One turn keeps a property of every process that the moving one keeps for itself and does not
take from the others. -/
theorem turn_invariant_of_ne {c : Config ι π σ} {i : ι}
    (hown : J i (step i (c.phase i) c.shared).1 (step i (c.phase i) c.shared).2)
    (hstable : ∀ j, j ≠ i → J j (c.phase j) c.shared →
      J j (c.phase j) (step i (c.phase i) c.shared).2)
    (hc : ∀ j, J j (c.phase j) c.shared) :
    ∀ j, J j ((turn step c i).phase j) (turn step c i).shared := by
  intro j
  by_cases hij : j = i
  · subst hij
    show J j (Function.update c.phase j _ j) _
    rw [Function.update_self]
    exact hown
  · show J j (Function.update c.phase i _ j) _
    rw [Function.update_of_ne hij]
    exact hstable j hij (hc j)

/-- The same for a property that no process could take from any other. -/
theorem turn_invariant {c : Config ι π σ} {i : ι}
    (hown : J i (step i (c.phase i) c.shared).1 (step i (c.phase i) c.shared).2)
    (hstable : ∀ j p, J j p c.shared → J j p (step i (c.phase i) c.shared).2)
    (hc : ∀ j, J j (c.phase j) c.shared) :
    ∀ j, J j ((turn step c i).phase j) (turn step c i).shared :=
  turn_invariant_of_ne hown (fun j _ => hstable j _) hc

/-- **Rely and guarantee.** -/
theorem run_invariant (hguarantee : ∀ i p s, J i p s → G s (step i p s).2)
    (hown : ∀ i p s, J i p s → J i (step i p s).1 (step i p s).2)
    (hstable : ∀ i p s s', G s s' → J i p s → J i p s') {c : Config ι π σ}
    (hc : ∀ i, J i (c.phase i) c.shared) (schedule : List ι) :
    ∀ i, J i ((Machine.run (turn step) c schedule).phase i)
      (Machine.run (turn step) c schedule).shared := by
  refine Machine.run_invariant (I := fun c : Config ι π σ => ∀ i, J i (c.phase i) c.shared)
    (fun c i hc => ?_) hc schedule
  have hG : G c.shared (step i (c.phase i) c.shared).2 := hguarantee i _ _ (hc i)
  exact turn_invariant (hown i _ _ (hc i)) (fun j p hp => hstable j p _ _ hG hp) hc

/-- A process that is scheduled alone runs on its own, and the others stay where they are. -/
theorem run_replicate (c : Config ι π σ) (i : ι) (n : ℕ) :
    Machine.run (turn step) c (List.replicate n i) =
      { phase := Function.update c.phase i
          ((Function.uncurry (step i))^[n] (c.phase i, c.shared)).1
        shared := ((Function.uncurry (step i))^[n] (c.phase i, c.shared)).2 } := by
  induction n generalizing c with
  | zero => simp
  | succ n ih =>
    have hself : ((turn step c i).phase i, (turn step c i).shared)
        = Function.uncurry (step i) (c.phase i, c.shared) := by
      show (Function.update c.phase i _ i, _) = _
      rw [Function.update_self]
      rfl
    have hothers : ∀ p, Function.update (turn step c i).phase i p
        = Function.update c.phase i p := fun p => Function.update_idem _ _ _
    rw [List.replicate_succ, Machine.run_cons, ih, hself, hothers, Function.iterate_succ_apply]

theorem run_replicate_of {c : Config ι π σ} {i : ι} {n : ℕ} {p : π} {s : σ}
    (h : (Function.uncurry (step i))^[n] (c.phase i, c.shared) = (p, s)) :
    Machine.run (turn step) c (List.replicate n i)
      = { phase := Function.update c.phase i p, shared := s } := by
  rw [run_replicate, h]

end Interleave
