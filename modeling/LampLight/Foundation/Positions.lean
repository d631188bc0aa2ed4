import Mathlib.Data.List.Sort

/-!
# Positions in a list

Items are listed by a position, and a new item takes the next position: one beyond those of the
items that somebody has seen. Whether the positions stay distinct depends on what has come in since
they were seen.

## Main results

* `Grown.eq_of_nodup` — the next position is free only while nothing has been added
* `Lists.pair_sublist`, `Lists.sublist` — what positions say about a listing
-/

namespace Positions

/-! ### Growing -/

section Growing

variable {α : Type*} {next : List α → α} {seen now : List α}

/-- The next position lies beyond all the others. -/
def Beyond [Preorder α] (next : List α → α) : Prop := ∀ xs, ∀ x ∈ xs, x < next xs

/-- What became of positions since they were seen: nothing was added, or first of all the position
that comes next. -/
def Grown (next : List α → α) (seen now : List α) : Prop :=
  now = seen ∨ ∃ rest, now = seen ++ next seen :: rest

theorem Grown.refl (next : List α → α) (seen : List α) : Grown next seen seen := Or.inl rfl

theorem Grown.append (h : Grown next seen now) : Grown next seen (now ++ [next now]) := by
  right
  rcases h with rfl | ⟨rest, rfl⟩
  · exact ⟨[], rfl⟩
  · exact ⟨rest ++ [next (seen ++ next seen :: rest)], by simp⟩

theorem nodup_append_next [Preorder α] (hnext : Beyond next) (h : now.Nodup) :
    (now ++ [next now]).Nodup := by
  rw [List.nodup_append']
  refine ⟨h, List.nodup_singleton _, ?_⟩
  rw [List.disjoint_singleton]
  exact fun hmem => lt_irrefl _ (hnext now _ hmem)

/-- Adding the position that came next when they were seen leaves them distinct only if nothing was
added in between. -/
theorem Grown.eq_of_nodup (h : Grown next seen now) (hnd : (now ++ [next seen]).Nodup) :
    now = seen := by
  rcases h with rfl | ⟨rest, rfl⟩
  · rfl
  · have hmem : next seen ∈ seen ++ next seen :: rest := by simp
    exact absurd (List.mem_singleton.mpr rfl) (List.disjoint_of_nodup_append hnd hmem)

end Growing

/-! ### Listing -/

section Listing

variable {ρ κ : Type*} [LinearOrder κ] {position : ρ → κ} {items old l l₀ : List ρ} {a b : ρ}

/-- The list has the items in the order of their positions, with ties broken in any way. -/
def Lists (position : ρ → κ) (items l : List ρ) : Prop :=
  l.Perm items ∧ l.Pairwise fun a b => position a ≤ position b

/-- Of two items with different positions, the lower is listed first. -/
theorem Lists.pair_sublist (h : Lists position items l) (ha : a ∈ items) (hb : b ∈ items)
    (hlt : position a < position b) : [a, b].Sublist l := by
  obtain ⟨u, v, rfl⟩ := List.append_of_mem (h.1.mem_iff.mpr ha)
  have hsorted := List.pairwise_append.mp h.2
  rcases List.mem_append.mp (h.1.mem_iff.mpr hb) with hu | hv
  · exact absurd (hsorted.2.2 b hu a (List.mem_cons_self ..)) (not_le.mpr hlt)
  · rcases List.mem_cons.mp hv with rfl | hv
    · exact absurd hlt (lt_irrefl _)
    · exact ((List.singleton_sublist.mpr hv).cons_cons a).trans (List.sublist_append_right u _)

/-- Distinct positions leave one way to list the items. -/
theorem Lists.pairwise_lt (h : Lists position items l) (hnd : (items.map position).Nodup) :
    l.Pairwise fun a b => position a < position b := by
  have hdistinct : l.Pairwise fun a b => position a ≠ position b :=
    List.pairwise_map.mp ((h.1.map position).nodup_iff.mpr hnd)
  exact (h.2.and hdistinct).imp fun hpair => lt_of_le_of_ne hpair.1 hpair.2

/-- Items that come in leave those that are there in their order. -/
theorem Lists.sublist (h₀ : Lists position old l₀) (h : Lists position items l)
    (hsub : old.Sublist items) (hnd : (items.map position).Nodup) : l₀.Sublist l := by
  have hold := h₀.pairwise_lt (hnd.sublist (hsub.map position))
  have hnew := h.pairwise_lt hnd
  have hsubperm : l₀.Subperm l := (h₀.1.subperm.trans hsub.subperm).trans h.1.symm.subperm
  have hantisymm : Std.Antisymm fun a b : ρ => position a < position b :=
    ⟨fun _ _ hab hba => absurd hba (lt_asymm hab)⟩
  exact List.sublist_of_subperm_of_pairwise hsubperm hold hnew

end Listing

end Positions
