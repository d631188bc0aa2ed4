import Mathlib.Data.Int.Init
import Mathlib.Data.List.Basic
import Mathlib.Data.List.Nodup

/-!
# A bounded cache with per-entry expiry

A map that remembers the order of insertion. Reading an entry moves it to the end, so the first
entry is the one that has not been read for longest, and it is the one to go when the cache is full.
A read does not prolong an entry: its deadline is fixed when it is written.

## Main results

* `mem_get`, `mem_set`, `mem_delete` — what is in the cache after an operation
* `get_eq_some` — a hit is an entry of its key whose deadline lies ahead
* `length_set_le` — the cache never grows beyond its capacity
-/

namespace LampLight

/-- A value and the instant at which it is no longer given out. -/
structure TtlEntry (α : Type) where
  value : α
  expiresAt : ℤ
deriving DecidableEq

/-- Entries under distinct keys, the oldest first, and how many and how long they are kept. -/
structure TtlCache (κ α : Type) where
  maxEntries : ℕ
  ttlMs : ℤ
  entries : List (κ × TtlEntry α)
  keys_nodup : (entries.map Prod.fst).Nodup

namespace TtlCache

variable {κ α : Type}

/-- `new TtlCache(maxEntries, ttlMs)`. -/
def empty (maxEntries : ℕ) (ttlMs : ℤ) : TtlCache κ α where
  maxEntries := maxEntries
  ttlMs := ttlMs
  entries := []
  keys_nodup := List.nodup_nil

/-- Drops the oldest entries until the rest fits. -/
def evict (maxEntries : ℕ) : List (κ × TtlEntry α) → List (κ × TtlEntry α)
  | [] => []
  | x :: rest => if maxEntries < (x :: rest).length then evict maxEntries rest else x :: rest

theorem evict_suffix (maxEntries : ℕ) (entries : List (κ × TtlEntry α)) :
    evict maxEntries entries <:+ entries := by
  induction entries with
  | nil => exact List.suffix_rfl
  | cons x rest ih =>
    rw [evict]
    split_ifs
    · exact ih.trans (List.suffix_cons x rest)
    · exact List.suffix_rfl

theorem length_evict_le (maxEntries : ℕ) (entries : List (κ × TtlEntry α)) :
    (evict maxEntries entries).length ≤ maxEntries := by
  induction entries with
  | nil => exact Nat.zero_le _
  | cons x rest ih =>
    rw [evict]
    split_ifs with h
    · exact ih
    · omega

/-- What fits is kept. -/
theorem evict_append {maxEntries : ℕ} (front : List (κ × TtlEntry α))
    {behind : List (κ × TtlEntry α)} (h : behind.length ≤ maxEntries) :
    behind <:+ evict maxEntries (front ++ behind) := by
  induction front with
  | nil =>
    cases behind with
    | nil => exact List.suffix_rfl
    | cons x behind =>
      have hall : evict maxEntries ([] ++ x :: behind) = x :: behind := by
        rw [List.nil_append, evict, if_neg (by omega)]
      exact ⟨[], hall.symm⟩
  | cons y front ih =>
    rw [List.cons_append, evict]
    split_ifs
    · exact ih
    · exact (List.suffix_append front behind).trans (List.suffix_cons _ _)

variable [DecidableEq κ]

/-- The entries of the other keys. -/
def without (key : κ) (entries : List (κ × TtlEntry α)) : List (κ × TtlEntry α) :=
  entries.filter fun x => x.1 ≠ key

@[simp] theorem mem_without {key : κ} {entries : List (κ × TtlEntry α)} {x : κ × TtlEntry α} :
    x ∈ without key entries ↔ x ∈ entries ∧ x.1 ≠ key := by
  simp [without]

theorem nodup_without {key : κ} {entries : List (κ × TtlEntry α)}
    (h : (entries.map Prod.fst).Nodup) : ((without key entries).map Prod.fst).Nodup :=
  h.sublist (List.filter_sublist.map _)

theorem nodup_without_append {key : κ} {entries : List (κ × TtlEntry α)} (e : TtlEntry α)
    (h : (entries.map Prod.fst).Nodup) :
    ((without key entries ++ [(key, e)]).map Prod.fst).Nodup := by
  rw [List.map_append, List.map_singleton, List.nodup_append']
  refine ⟨nodup_without h, List.nodup_singleton _, ?_⟩
  rw [List.disjoint_singleton]
  intro hmem
  obtain ⟨x, hx, hkey⟩ := List.mem_map.mp hmem
  exact (mem_without.mp hx).2 hkey

/-! ### Operations -/

/-- `delete(key)`. -/
def delete (c : TtlCache κ α) (key : κ) : TtlCache κ α :=
  { c with entries := without key c.entries, keys_nodup := nodup_without c.keys_nodup }

/-- `clear()`. -/
def clear (c : TtlCache κ α) : TtlCache κ α :=
  { c with entries := [], keys_nodup := List.nodup_nil }

/-- The value of a key, and the cache it leaves: an expired entry goes, a live one moves to the
end. -/
def get (c : TtlCache κ α) (now : ℤ) (key : κ) : Option α × TtlCache κ α :=
  match c.entries.find? fun x => x.1 = key with
  | none => (none, c)
  | some x =>
    if x.2.expiresAt ≤ now then (none, c.delete key)
    else
      (some x.2.value,
        { c with
          entries := without key c.entries ++ [(key, x.2)]
          keys_nodup := nodup_without_append x.2 c.keys_nodup })

/-- Writes a value with a deadline of its own, or the one every entry gets. -/
def set (c : TtlCache κ α) (now : ℤ) (key : κ) (value : α) (ttlMsOverride : Option ℤ) :
    TtlCache κ α :=
  { c with
    entries := evict c.maxEntries
      (without key c.entries ++ [(key, ⟨value, now + ttlMsOverride.getD c.ttlMs⟩)])
    keys_nodup := (nodup_without_append _ c.keys_nodup).sublist
      ((evict_suffix c.maxEntries _).sublist.map _) }

/-! ### What is in the cache -/

variable {c : TtlCache κ α} {now : ℤ} {key : κ} {value : α} {ttl : Option ℤ}
  {x : κ × TtlEntry α}

@[simp] theorem mem_delete : x ∈ (c.delete key).entries ↔ x ∈ c.entries ∧ x.1 ≠ key :=
  mem_without

theorem mem_set (h : x ∈ (c.set now key value ttl).entries) :
    x = (key, ⟨value, now + ttl.getD c.ttlMs⟩) ∨ x ∈ c.entries ∧ x.1 ≠ key := by
  have hmem := (evict_suffix c.maxEntries _).subset h
  rcases List.mem_append.mp hmem with hold | hnew
  · exact Or.inr (mem_without.mp hold)
  · exact Or.inl (List.mem_singleton.mp hnew)

theorem find?_key {x : κ × TtlEntry α}
    (h : c.entries.find? (fun x => x.1 = key) = some x) : (key, x.2) ∈ c.entries := by
  have hkey : x.1 = key := by simpa using List.find?_some h
  rw [← hkey]
  exact List.mem_of_find?_eq_some h

/-- A read puts nothing into the cache. -/
theorem mem_get (h : x ∈ (c.get now key).2.entries) : x ∈ c.entries := by
  rw [get] at h
  split at h
  · exact h
  · next found hfound =>
    split_ifs at h
    · exact (mem_delete.mp h).1
    · rcases List.mem_append.mp h with hother | hkey
      · exact (mem_without.mp hother).1
      · rw [List.mem_singleton.mp hkey]
        exact find?_key hfound

theorem get_eq_some (h : (c.get now key).1 = some value) :
    ∃ e, (key, e) ∈ c.entries ∧ e.value = value ∧ now < e.expiresAt := by
  rw [get] at h
  split at h
  · cases h
  · next found hfound =>
    split_ifs at h with hexpired
    exact ⟨found.2, find?_key hfound, Option.some.inj h, by omega⟩

@[simp] theorem get_ttlMs : (c.get now key).2.ttlMs = c.ttlMs := by
  rw [get]
  split
  · rfl
  · split_ifs <;> rfl

/-- A spray of keys evicts itself. -/
theorem length_set_le : (c.set now key value ttl).entries.length ≤ c.maxEntries :=
  length_evict_le _ _

end TtlCache

end LampLight
