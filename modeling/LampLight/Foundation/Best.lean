import LampLight.Foundation.Table
import Mathlib.Order.Bounds.Basic

/-!
# The best entry for each key

A loop over rows that keeps one entry for each key, and replaces it only by one that beats it. If
beating means to have the higher rank, then whatever the order of the rows, the loop ends with one
entry for each key among them, and that entry has the greatest rank of its key.

## Main definitions

* `keep` — one turn of the loop
* `BestOf` — one entry for each key, of the greatest rank

## Main results

* `bestOf_foldl` — what the loop ends with
* `BestOf.isGreatest` — the rank of an entry, by its definition as a maximum
-/

namespace Table

variable {ρ κ α : Type*} [LinearOrder α] {key : ρ → κ} {rank : ρ → α} {seen best : List ρ}

/-! ### One entry for each key -/

/-- One entry for each key that was seen, and none that ranks higher was seen. -/
structure BestOf (key : ρ → κ) (rank : ρ → α) (seen best : List ρ) : Prop where
  once : (best.map key).Nodup
  among : ∀ b ∈ best, b ∈ seen
  upper : ∀ a ∈ seen, ∃ b ∈ best, key b = key a ∧ rank a ≤ rank b

theorem BestOf.nil : BestOf key rank [] [] := by
  constructor <;> simp

/-- An entry that ranks no higher changes nothing. -/
theorem BestOf.skip (h : BestOf key rank seen best) {a b : ρ} (hb : b ∈ best) (hkey : key b = key a)
    (hrank : rank a ≤ rank b) : BestOf key rank (seen ++ [a]) best where
  once := h.once
  among := fun c hc => List.mem_append_left _ (h.among c hc)
  upper := by
    intro c hc
    rcases List.mem_append.mp hc with hc | hc
    · exact h.upper c hc
    · obtain rfl := List.mem_singleton.mp hc
      exact ⟨b, hb, hkey, hrank⟩

theorem BestOf.append (h : BestOf key rank seen best) {a : ρ} (hfresh : ∀ b ∈ best, key b ≠ key a) :
    BestOf key rank (seen ++ [a]) (best ++ [a]) where
  once := by
    rw [List.map_append, List.map_singleton]
    refine List.nodup_append.mpr ⟨h.once, List.nodup_singleton _, ?_⟩
    rintro _ hk _ hk' rfl
    obtain ⟨b, hb, hkey⟩ := List.mem_map.mp hk
    exact hfresh b hb (hkey.trans (List.mem_singleton.mp hk'))
  among := by
    intro c hc
    rw [List.mem_append] at hc ⊢
    exact hc.imp_left (h.among c)
  upper := by
    intro c hc
    rcases List.mem_append.mp hc with hc | hc
    · obtain ⟨b, hb, hkey, hrank⟩ := h.upper c hc
      exact ⟨b, List.mem_append_left _ hb, hkey, hrank⟩
    · exact ⟨c, List.mem_append_right _ hc, rfl, le_rfl⟩

/-- The order of the entries does not matter. -/
theorem BestOf.perm {best' : List ρ} (h : BestOf key rank seen best) (hperm : best'.Perm best) :
    BestOf key rank seen best' where
  once := (hperm.map key).nodup_iff.mpr h.once
  among := fun b hb => h.among b (hperm.mem_iff.mp hb)
  upper := by
    intro a ha
    obtain ⟨b, hb, hkey, hrank⟩ := h.upper a ha
    exact ⟨b, hperm.mem_iff.mpr hb, hkey, hrank⟩

/-- An entry has the greatest rank of its key. -/
theorem BestOf.isGreatest (h : BestOf key rank seen best) {b : ρ} (hb : b ∈ best) :
    IsGreatest {x | ∃ a ∈ seen, key a = key b ∧ rank a = x} (rank b) := by
  refine ⟨⟨b, h.among b hb, rfl, rfl⟩, ?_⟩
  rintro _ ⟨a, ha, hkey, rfl⟩
  obtain ⟨b', hb', hkey', hrank⟩ := h.upper a ha
  obtain rfl := eq_of_key_eq h.once hb' hb (hkey'.trans hkey)
  exact hrank

theorem BestOf.exists_iff (h : BestOf key rank seen best) {k : κ} :
    (∃ b ∈ best, key b = k) ↔ ∃ a ∈ seen, key a = k := by
  constructor
  · rintro ⟨b, hb, hkey⟩
    exact ⟨b, h.among b hb, hkey⟩
  · rintro ⟨a, ha, hkey⟩
    obtain ⟨b, hb, hkey', -⟩ := h.upper a ha
    exact ⟨b, hb, hkey'.trans hkey⟩

/-! ### The loop -/

section Keep

variable [DecidableEq κ] {beats : ρ → ρ → Bool}

/-- A new key is added, and an entry that is beaten is replaced where it stands. -/
def keep (key : ρ → κ) (beats : ρ → ρ → Bool) (best : List ρ) (a : ρ) : List ρ :=
  match best.find? fun b => key b = key a with
  | none => best ++ [a]
  | some b => if beats a b then update (fun b => key b = key a) (fun _ => a) best else best

theorem BestOf.replace (h : BestOf key rank seen best) {a b : ρ} (hb : b ∈ best)
    (hkey : key b = key a) (hrank : rank b ≤ rank a) :
    BestOf key rank (seen ++ [a]) (update (fun b => key b = key a) (fun _ => a) best) where
  once := by
    have hkeys : (update (fun b => key b = key a) (fun _ => a) best).map key = best.map key := by
      rw [update, List.map_map]
      refine List.map_congr_left fun c _ => ?_
      by_cases hc : key c = key a
      · simp [hc]
      · simp [hc]
    rw [hkeys]
    exact h.once
  among := by
    intro c hc
    rcases mem_update.mp hc with ⟨hc, -⟩ | ⟨c', -, -, rfl⟩
    · exact List.mem_append_left _ (h.among c hc)
    · exact List.mem_append_right _ (List.mem_singleton_self _)
  upper := by
    have hin : a ∈ update (fun b => key b = key a) (fun _ => a) best :=
      mem_update.mpr (Or.inr ⟨b, hb, by simpa using hkey, rfl⟩)
    intro c hc
    rcases List.mem_append.mp hc with hc | hc
    · obtain ⟨b', hb', hkey', hrank'⟩ := h.upper c hc
      by_cases hsame : key b' = key a
      · obtain rfl := eq_of_key_eq h.once hb' hb (hsame.trans hkey.symm)
        exact ⟨a, hin, hsame.symm.trans hkey', hrank'.trans hrank⟩
      · exact ⟨b', mem_update.mpr (Or.inl ⟨hb', by simpa using hsame⟩), hkey', hrank'⟩
    · obtain rfl := List.mem_singleton.mp hc
      exact ⟨c, hin, rfl, le_rfl⟩

/-- One turn of the loop. -/
theorem BestOf.keep (hbeats : ∀ a b, beats a b = true ↔ rank b < rank a)
    (h : BestOf key rank seen best) (a : ρ) :
    BestOf key rank (seen ++ [a]) (keep key beats best a) := by
  rw [Table.keep]
  split
  · next hnone =>
    refine h.append fun b hb hkey => ?_
    simpa [hkey] using List.find?_eq_none.mp hnone b hb
  · next b hsome =>
    have hb := List.mem_of_find?_eq_some hsome
    have hkey : key b = key a := by simpa using List.find?_some hsome
    split_ifs with hbeat
    · exact h.replace hb hkey ((hbeats a b).mp hbeat).le
    · exact h.skip hb hkey (not_lt.mp fun hlt => hbeat ((hbeats a b).mpr hlt))

/-- **The loop ends with the best entry for each key.** -/
theorem bestOf_foldl (hbeats : ∀ a b, beats a b = true ↔ rank b < rank a) (rows : List ρ) :
    BestOf key rank rows (rows.foldl (keep key beats) []) := by
  suffices hfrom : ∀ seen best : List ρ, BestOf key rank seen best →
      BestOf key rank (seen ++ rows) (rows.foldl (Table.keep key beats) best) from
    hfrom [] [] .nil
  induction rows with
  | nil => simp
  | cons a rows ih =>
    intro seen best h
    have hrest := ih (seen ++ [a]) (Table.keep key beats best a) (h.keep hbeats a)
    rwa [List.append_assoc, List.singleton_append] at hrest

/-- There is at most one entry for a key. -/
theorem BestOf.length_le_one (h : BestOf key rank seen best) (k : κ) :
    (best.filter fun b => key b = k).length ≤ 1 := by
  have hnd : ((best.filter fun b => key b = k).map key).Nodup :=
    h.once.sublist (List.filter_sublist.map key)
  rw [List.map_congr_left (g := fun _ => k) fun b hb => by simpa using (List.mem_filter.mp hb).2,
    List.map_const'] at hnd
  exact List.nodup_replicate.mp hnd

end Keep

end Table
