import Mathlib.Data.List.Dedup
import Mathlib.Data.List.DropRight
import Mathlib.Data.List.Perm.Subperm

/-!
# The order of last use

Keys are used one after another. A list of keys is in the order of last use when every key was last
used before the keys behind it, so what stands behind a key was used since.

## Main results

* `Ordered.use` — a key that is used goes to the end
* `Ordered.length_behind_le` — behind a key stand at most the keys that were used since
-/

namespace Recency

variable {κ : Type*} [DecidableEq κ] {uses keys : List κ} {k key : κ}

/-- The uses after the last use of a key. -/
def since (key : κ) (uses : List κ) : List κ := uses.rtakeWhile fun used => used ≠ key

theorem since_append_of_ne (h : k ≠ key) (uses : List κ) :
    since key (uses ++ [k]) = since key uses ++ [k] :=
  List.rtakeWhile_concat_pos _ _ _ (by simpa using h)

/-- How many other keys were used since the last use of a key. -/
def others (key : κ) (uses : List κ) : ℕ := (since key uses).dedup.length

/-- What was used since is at most what came after any use. -/
theorem length_since_le (before after : List κ) (key : κ) :
    (since key (before ++ key :: after)).length ≤ after.length := by
  induction after using List.reverseRecOn with
  | nil =>
    have hstop : since key (before ++ [key]) = [] :=
      List.rtakeWhile_concat_neg _ _ _ (by simp)
    rw [hstop, List.length_nil]
  | append_singleton after k ih =>
    rw [← List.cons_append, ← List.append_assoc, List.length_append, List.length_singleton]
    by_cases hk : k = key
    · have hstop : since key (before ++ key :: after ++ [k]) = [] :=
        List.rtakeWhile_concat_neg _ _ _ (by simpa using hk)
      rw [hstop]
      exact Nat.zero_le _
    · rw [since_append_of_ne hk, List.length_append, List.length_singleton]
      omega

theorem others_le_length (before after : List κ) (key : κ) :
    others key (before ++ key :: after) ≤ after.length :=
  (List.dedup_sublist _).length_le.trans (length_since_le before after key)

theorem length_le_others (hnd : keys.Nodup) (h : keys ⊆ since key uses) :
    keys.length ≤ others key uses := by
  have hsub : keys ⊆ (since key uses).dedup := fun k hk => List.mem_dedup.mpr (h hk)
  exact (List.subperm_of_subset hnd hsub).length_le

theorem others_le_append (h : k ≠ key) (uses : List κ) :
    others key uses ≤ others key (uses ++ [k]) := by
  refine length_le_others (List.nodup_dedup _) fun used hused => ?_
  rw [since_append_of_ne h]
  exact List.mem_append_left _ (List.mem_dedup.mp hused)

/-- Every key was last used before the keys behind it. -/
def Ordered (uses keys : List κ) : Prop := keys.Pairwise fun earlier later =>
  later ∈ since earlier uses

/-- The key that is used goes to the end, and the others stay as they are. -/
theorem Ordered.use (h : Ordered uses keys) (key : κ) :
    Ordered (uses ++ [key]) (keys.filter (· ≠ key) ++ [key]) := by
  have hne : ∀ k ∈ keys.filter (· ≠ key), key ≠ k := by
    intro k hk
    exact Ne.symm (of_decide_eq_true (List.mem_filter.mp hk).2)
  refine List.pairwise_append.mpr ⟨?_, List.pairwise_singleton _ _, ?_⟩
  · refine (List.Pairwise.filter _ h).imp_of_mem fun {a b} ha _ hab => ?_
    rw [since_append_of_ne (hne a ha)]
    exact List.mem_append_left _ hab
  · intro k hk used hused
    rw [List.mem_singleton.mp hused, since_append_of_ne (hne k hk)]
    exact List.mem_append_right _ (List.mem_singleton.mpr rfl)

/-- Behind a key stand at most the keys that were used since. -/
theorem Ordered.length_behind_le {front behind : List κ}
    (h : Ordered uses (front ++ key :: behind)) (hnd : (front ++ key :: behind).Nodup) :
    behind.length ≤ others key uses := by
  have hbehind := List.pairwise_cons.mp (List.pairwise_append.mp h).2.1
  have hnodup := List.nodup_cons.mp (List.nodup_append.mp hnd).2.1
  exact length_le_others hnodup.2 fun k hk => hbehind.1 k hk

end Recency
