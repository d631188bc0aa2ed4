import LampLight.Cache.TtlCache
import LampLight.Foundation.Machine
import LampLight.Foundation.Recency
import LampLight.Foundation.Table

/-!
# The cache as a map with deadlines

A map with deadlines keeps the last value of every key until its deadline, with no bound on how many
there are. The cache answers nothing that the map would not, and what the map holds the cache holds
too, as long as fewer other keys than it has places were used since. An entry whose deadline has
passed keeps its place until it is read or pushed out, so it is uses that are counted and not
entries.

## Main definitions

* `CacheOp`, `step`, `uses` — operations, their runs, and the keys a run uses
* `DeadlineMap` — the map
* `Tracks` — what relates the cache to the map

## Main results

* `tracks_step`, `tracks_run` — the relation is kept
* `ttlCache_refines` — what the cache answers after any run
-/

namespace LampLight

open Machine (run)
open Recency (Ordered others)

variable {κ α : Type}

/-- An operation on the cache. -/
inductive CacheOp (κ α : Type)
  | set (key : κ) (value : α) (ttlMsOverride : Option ℤ)
  | get (key : κ)
  | delete (key : κ)
  | clear

/-! ### The last set of a key -/

/-- The operation takes away what was set for a key before. -/
def CacheOp.Ends (key : κ) : CacheOp κ α → Prop
  | .set k _ _ => k = key
  | .get _ => False
  | .delete k => k = key
  | .clear => True

/-- The last set of a key: since then it was neither set nor deleted, nor the cache cleared. -/
def LastSet (ops : List (ℤ × CacheOp κ α)) (key : κ) (at_ : ℤ) (value : α) (ttl : Option ℤ) :
    Prop :=
  ∃ before after, ops = before ++ (at_, .set key value ttl) :: after ∧
    ∀ op ∈ after, ¬ op.2.Ends key

theorem lastSet_append_self (ops : List (ℤ × CacheOp κ α)) (key : κ) (at_ : ℤ) (value : α)
    (ttl : Option ℤ) : LastSet (ops ++ [(at_, .set key value ttl)]) key at_ value ttl :=
  ⟨ops, [], rfl, fun _ h => absurd h List.not_mem_nil⟩

theorem lastSet_append_of_not_ends {ops : List (ℤ × CacheOp κ α)} {op : ℤ × CacheOp κ α} {key : κ}
    {at_ : ℤ} {value : α} {ttl : Option ℤ} (h : ¬ op.2.Ends key) :
    LastSet (ops ++ [op]) key at_ value ttl ↔ LastSet ops key at_ value ttl := by
  constructor
  · rintro ⟨before, after, heq, hafter⟩
    rcases List.eq_nil_or_concat after with rfl | ⟨init, last, rfl⟩
    · obtain ⟨-, hop⟩ := List.append_inj' heq rfl
      obtain rfl := (List.cons.inj hop).1
      exact absurd rfl h
    · rw [List.concat_eq_append, ← List.cons_append, ← List.append_assoc] at heq
      obtain ⟨hops, -⟩ := List.append_inj' heq rfl
      exact ⟨before, init, hops, fun o ho => hafter o (by simp [ho])⟩
  · rintro ⟨before, after, rfl, hafter⟩
    refine ⟨before, after ++ [op], by simp, fun o ho => ?_⟩
    rcases List.mem_append.mp ho with ho | ho
    · exact hafter o ho
    · rw [List.mem_singleton.mp ho]
      exact h

theorem not_lastSet_append {ops : List (ℤ × CacheOp κ α)} {op : ℤ × CacheOp κ α} {key : κ}
    {at_ : ℤ} {value : α} {ttl : Option ℤ} (h : op.2.Ends key)
    (hop : op ≠ (at_, .set key value ttl)) : ¬ LastSet (ops ++ [op]) key at_ value ttl := by
  rintro ⟨before, after, heq, hafter⟩
  rcases List.eq_nil_or_concat after with rfl | ⟨init, last, rfl⟩
  · obtain ⟨-, hlast⟩ := List.append_inj' heq rfl
    exact hop (List.cons.inj hlast).1
  · rw [List.concat_eq_append, ← List.cons_append, ← List.append_assoc] at heq
    obtain ⟨-, hlast⟩ := List.append_inj' heq rfl
    obtain rfl := (List.cons.inj hlast).1
    exact hafter op (by simp) h

variable [DecidableEq κ]

/-! ### Runs -/

namespace TtlCache

/-- The cache after an operation at a time. -/
def step (c : TtlCache κ α) (op : ℤ × CacheOp κ α) : TtlCache κ α :=
  match op with
  | (now, .set key value ttl) => c.set now key value ttl
  | (now, .get key) => (c.get now key).2
  | (_, .delete key) => c.delete key
  | (_, .clear) => c.clear

/-- The key an operation uses: the one it sets, or reads with success. -/
def used (c : TtlCache κ α) (op : ℤ × CacheOp κ α) : List κ :=
  match op with
  | (_, .set key _ _) => [key]
  | (now, .get key) => if (c.get now key).1.isSome then [key] else []
  | (_, .delete _) => []
  | (_, .clear) => []

/-- The keys a run uses, in order. -/
def uses : TtlCache κ α → List (ℤ × CacheOp κ α) → List κ
  | _, [] => []
  | c, op :: ops => c.used op ++ uses (c.step op) ops

/-- A new cache after a run. -/
def ran (maxEntries : ℕ) (ttlMs : ℤ) (ops : List (ℤ × CacheOp κ α)) : TtlCache κ α :=
  run step (empty maxEntries ttlMs) ops

/-- How many entries there are. -/
def size (c : TtlCache κ α) : ℕ := c.entries.length

end TtlCache

/-! ### Maps with deadlines -/

/-- What was last set for each key, and until when it counts. -/
abbrev DeadlineMap (κ α : Type) := κ → Option (TtlEntry α)

/-- The map after an operation. Reading changes nothing. -/
def DeadlineMap.step (ttlMs : ℤ) (m : DeadlineMap κ α) (op : ℤ × CacheOp κ α) : DeadlineMap κ α :=
  match op with
  | (now, .set key value ttl) => Function.update m key (some ⟨value, now + ttl.getD ttlMs⟩)
  | (_, .get _) => m
  | (_, .delete key) => Function.update m key none
  | (_, .clear) => fun _ => none

/-- The map holds the last set of every key. -/
theorem deadlineMap_eq_some (ttlMs : ℤ) (ops : List (ℤ × CacheOp κ α)) (key : κ)
    (e : TtlEntry α) :
    run (DeadlineMap.step ttlMs) (fun _ => none) ops key = some e ↔
      ∃ at_ ttl, LastSet ops key at_ e.value ttl ∧ e.expiresAt = at_ + ttl.getD ttlMs := by
  induction ops using List.reverseRecOn with
  | nil =>
    constructor
    · intro h
      cases h
    · rintro ⟨at_, ttl, ⟨before, after, heq, -⟩, -⟩
      exact absurd heq (by simp)
  | append_singleton ops op ih =>
    rw [Machine.run_append, Machine.run_cons, Machine.run_nil]
    by_cases hends : op.2.Ends key
    · obtain ⟨now, op⟩ := op
      cases op with
      | set k value ttl =>
        have hk : k = key := hends
        subst hk
        rw [DeadlineMap.step, Function.update_self, Option.some.injEq]
        constructor
        · rintro rfl
          exact ⟨now, ttl, lastSet_append_self _ _ _ _ _, rfl⟩
        · rintro ⟨at_, ttl', hlast, hexpires⟩
          by_cases hop : ((now, .set k value ttl) : ℤ × CacheOp κ α) = (at_, .set k e.value ttl')
          · cases hop
            cases e
            exact congrArg _ hexpires.symm
          · exact absurd hlast (not_lastSet_append hends hop)
      | get k => exact hends.elim
      | delete k =>
        have hk : k = key := hends
        subst hk
        rw [DeadlineMap.step, Function.update_self]
        refine iff_of_false (by simp) ?_
        rintro ⟨at_, ttl, hlast, -⟩
        exact not_lastSet_append hends (by simp) hlast
      | clear =>
        refine iff_of_false (by simp [DeadlineMap.step]) ?_
        rintro ⟨at_, ttl, hlast, -⟩
        exact not_lastSet_append hends (by simp) hlast
    · have hstep : DeadlineMap.step ttlMs (run (DeadlineMap.step ttlMs) (fun _ => none) ops) op key
          = run (DeadlineMap.step ttlMs) (fun _ => none) ops key := by
        obtain ⟨now, op⟩ := op
        cases op with
        | set k value ttl => exact Function.update_of_ne (Ne.symm hends) _ _
        | get k => rfl
        | delete k => exact Function.update_of_ne (Ne.symm hends) _ _
        | clear => exact absurd trivial hends
      rw [hstep, ih]
      simp only [lastSet_append_of_not_ends hends]

/-! ### Reading and evicting -/

namespace TtlCache

variable {c : TtlCache κ α} {now : ℤ} {key : κ} {x : κ × TtlEntry α}

@[simp] theorem get_maxEntries : (c.get now key).2.maxEntries = c.maxEntries := by
  rw [get]
  split
  · rfl
  · split_ifs <;> rfl

/-- What a read finds, and the cache it leaves. -/
theorem get_cases (c : TtlCache κ α) (now : ℤ) (key : κ) :
    c.get now key = (none, c) ∧ (∀ e, (key, e) ∉ c.entries) ∨
      ∃ e, (key, e) ∈ c.entries ∧
        ((e.expiresAt ≤ now ∧ c.get now key = (none, c.delete key)) ∨
          (now < e.expiresAt ∧ (c.get now key).1 = some e.value ∧
            (c.get now key).2.entries = without key c.entries ++ [(key, e)])) := by
  rw [get]
  split
  · next hnone =>
    refine Or.inl ⟨rfl, fun e he => ?_⟩
    exact List.find?_eq_none.mp hnone _ he (decide_eq_true rfl)
  · next found hfound =>
    refine Or.inr ⟨found.2, find?_key hfound, ?_⟩
    split_ifs with hexpired
    · exact Or.inl ⟨hexpired, rfl⟩
    · exact Or.inr ⟨by omega, rfl, rfl⟩

/-- A live entry is found. -/
theorem get_of_mem {e : TtlEntry α} (he : (key, e) ∈ c.entries) (hlive : now < e.expiresAt) :
    (c.get now key).1 = some e.value := by
  rcases get_cases c now key with ⟨-, hnone⟩ | ⟨e', he', ⟨hexpired, -⟩ | ⟨-, hvalue, -⟩⟩
  · exact absurd he (hnone e)
  · have heq := Table.eq_of_key_eq c.keys_nodup he he' rfl
    rw [(Prod.mk.inj heq).2] at hlive
    omega
  · have heq := Table.eq_of_key_eq c.keys_nodup he he' rfl
    rw [(Prod.mk.inj heq).2]
    exact hvalue

/-- An entry is not pushed out while fewer other keys than there are places were used since. -/
theorem mem_evict {maxEntries : ℕ} {entries : List (κ × TtlEntry α)} {trace : List κ}
    (hordered : Ordered trace (entries.map Prod.fst)) (hnd : (entries.map Prod.fst).Nodup)
    (hx : x ∈ entries) (hfew : others x.1 trace < maxEntries) : x ∈ evict maxEntries entries := by
  obtain ⟨front, behind, rfl⟩ := List.append_of_mem hx
  rw [List.map_append, List.map_cons] at hordered hnd
  have hbehind := hordered.length_behind_le hnd
  rw [List.length_map] at hbehind
  have hfits : (x :: behind).length ≤ maxEntries := by
    rw [List.length_cons]
    omega
  exact (evict_append front hfits).subset (List.mem_cons_self ..)

end TtlCache

/-! ### What relates the two -/

/-- The cache after a run, beside the map after the same run, the keys it has used and the time of
its last operation. -/
structure Tracks (maxEntries : ℕ) (ttlMs : ℤ) (m : DeadlineMap κ α) (trace : List κ) (clock : ℤ)
    (c : TtlCache κ α) : Prop where
  capacity : c.maxEntries = maxEntries
  lifetime : c.ttlMs = ttlMs
  bounded : c.size ≤ maxEntries
  ordered : Ordered trace (c.entries.map Prod.fst)
  stored : ∀ x ∈ c.entries, m x.1 = some x.2
  kept : ∀ key e, m key = some e → others key trace < maxEntries →
    (key, e) ∈ c.entries ∨ e.expiresAt ≤ clock

section Runs

variable {maxEntries : ℕ} {ttlMs clock now : ℤ} {m : DeadlineMap κ α} {trace : List κ}
  {c : TtlCache κ α} {key : κ}

theorem tracks_empty (maxEntries : ℕ) (ttlMs clock : ℤ) :
    Tracks maxEntries ttlMs (fun _ => none) [] clock
      (TtlCache.empty maxEntries ttlMs : TtlCache κ α) where
  capacity := rfl
  lifetime := rfl
  bounded := Nat.zero_le _
  ordered := List.Pairwise.nil
  stored _ hx := absurd hx List.not_mem_nil
  kept _ _ h := nomatch h

theorem Tracks.later (h : Tracks maxEntries ttlMs m trace clock c) (hnow : clock ≤ now) :
    Tracks maxEntries ttlMs m trace now c :=
  { h with kept := fun key e he hfew => (h.kept key e he hfew).imp_right fun hpast =>
      hpast.trans hnow }

theorem map_fst_without (key : κ) (entries : List (κ × TtlEntry α)) :
    (TtlCache.without key entries).map Prod.fst = (entries.map Prod.fst).filter (· ≠ key) := by
  rw [TtlCache.without, List.filter_map]
  rfl

/-- An entry that is written goes to the end, and nothing else but what is pushed out changes. -/
theorem Tracks.set (h : Tracks maxEntries ttlMs m trace clock c) (key : κ) (value : α)
    (ttl : Option ℤ) :
    Tracks maxEntries ttlMs (Function.update m key (some ⟨value, now + ttl.getD ttlMs⟩))
      (trace ++ [key]) clock (c.set now key value ttl) := by
  obtain ⟨hcap, rfl, hbound, hordered, hstored, hkept⟩ := h
  subst hcap
  let e₀ : TtlEntry α := ⟨value, now + ttl.getD c.ttlMs⟩
  have hmap : (TtlCache.without key c.entries ++ [(key, e₀)]).map Prod.fst
      = (c.entries.map Prod.fst).filter (· ≠ key) ++ [key] := by
    rw [List.map_append, map_fst_without]
    rfl
  have hordered' := hordered.use key
  rw [← hmap] at hordered'
  refine ⟨rfl, rfl, TtlCache.length_set_le, ?_, ?_, ?_⟩
  · exact hordered'.sublist ((TtlCache.evict_suffix _ _).sublist.map _)
  · intro x hx
    rcases TtlCache.mem_set hx with rfl | ⟨hx, hne⟩
    · exact Function.update_self _ _ _
    · rw [Function.update_of_ne hne]
      exact hstored x hx
  · intro k e he hfew
    have hmem : (k, e) ∈ TtlCache.without key c.entries ++ [(key, e₀)] ∨
        e.expiresAt ≤ clock := by
      by_cases hk : k = key
      · subst hk
        rw [Function.update_self] at he
        obtain rfl := Option.some.inj he
        exact Or.inl (List.mem_append_right _ (List.mem_singleton.mpr rfl))
      · rw [Function.update_of_ne hk] at he
        have hfew' := lt_of_le_of_lt (Recency.others_le_append (Ne.symm hk) trace) hfew
        refine (hkept k e he hfew').imp_left fun hold => ?_
        exact List.mem_append_left _ (TtlCache.mem_without.mpr ⟨hold, hk⟩)
    refine hmem.imp_left fun hmem => ?_
    exact TtlCache.mem_evict hordered' (TtlCache.nodup_without_append _ c.keys_nodup) hmem hfew

/-- An entry that is taken out was not in the map, or its deadline has passed. -/
theorem Tracks.delete (h : Tracks maxEntries ttlMs m trace clock c) {m' : DeadlineMap κ α}
    (hm : ∀ k, k ≠ key → m' k = m k) (hkey : ∀ e, m' key = some e → e.expiresAt ≤ clock) :
    Tracks maxEntries ttlMs m' trace clock (c.delete key) where
  capacity := h.capacity
  lifetime := h.lifetime
  bounded := (List.length_filter_le _ _).trans h.bounded
  ordered := h.ordered.sublist (List.filter_sublist.map _)
  stored := by
    intro x hx
    obtain ⟨hx, hne⟩ := TtlCache.mem_delete.mp hx
    rw [hm x.1 hne]
    exact h.stored x hx
  kept := by
    intro k e he hfew
    by_cases hk : k = key
    · subst hk
      exact Or.inr (hkey e he)
    · rw [hm k hk] at he
      exact (h.kept k e he hfew).imp_left fun hold => TtlCache.mem_delete.mpr ⟨hold, hk⟩

/-- A read keeps what the map says. -/
theorem Tracks.get (h : Tracks maxEntries ttlMs m trace now c) (key : κ) :
    Tracks maxEntries ttlMs m
      (trace ++ if (c.get now key).1.isSome then [key] else []) now (c.get now key).2 := by
  rcases TtlCache.get_cases c now key with
    ⟨hnone, -⟩ | ⟨e, he, ⟨hexpired, hgone⟩ | ⟨-, hvalue, hentries⟩⟩
  · rw [hnone]
    simpa using h
  · rw [hgone]
    have hheld : m key = some e := h.stored _ he
    have hdeleted : Tracks maxEntries ttlMs m trace now (c.delete key) := by
      refine h.delete (fun _ _ => rfl) fun e' he' => ?_
      rw [hheld] at he'
      obtain rfl := Option.some.inj he'
      exact hexpired
    simpa using hdeleted
  · rw [hvalue, Option.isSome_some, if_pos rfl]
    have hmem : ∀ x, x ∈ (c.get now key).2.entries ↔ x ∈ c.entries := by
      intro x
      refine ⟨TtlCache.mem_get, fun hx => ?_⟩
      rw [hentries]
      by_cases hk : x.1 = key
      · have heq := Table.eq_of_key_eq c.keys_nodup hx he hk
        exact List.mem_append_right _ (by rw [heq]; exact List.mem_singleton.mpr rfl)
      · exact List.mem_append_left _ (TtlCache.mem_without.mpr ⟨hx, hk⟩)
    have hperm : (c.get now key).2.entries.length ≤ c.entries.length := by
      have hkeys := (c.get now key).2.keys_nodup
      have hsub : (c.get now key).2.entries ⊆ c.entries := fun x hx => (hmem x).mp hx
      exact (List.subperm_of_subset (List.Nodup.of_map _ hkeys) hsub).length_le
    refine ⟨TtlCache.get_maxEntries.trans h.capacity, TtlCache.get_ttlMs.trans h.lifetime,
      hperm.trans h.bounded, ?_, fun x hx => h.stored x ((hmem x).mp hx), ?_⟩
    · rw [hentries, List.map_append, map_fst_without]
      exact h.ordered.use key
    · intro k e' he' hfew
      by_cases hk : k = key
      · subst hk
        have hheld : m k = some e := h.stored _ he
        rw [hheld] at he'
        obtain rfl := Option.some.inj he'
        exact Or.inl ((hmem _).mpr he)
      · have hfew' := lt_of_le_of_lt (Recency.others_le_append (Ne.symm hk) trace) hfew
        exact (h.kept k e' he' hfew').imp_left (hmem _).mpr

/-- One operation. -/
theorem tracks_step (h : Tracks maxEntries ttlMs m trace clock c) (op : ℤ × CacheOp κ α)
    (hclock : clock ≤ op.1) :
    Tracks maxEntries ttlMs (DeadlineMap.step ttlMs m op) (trace ++ c.used op) op.1
      (c.step op) := by
  have hlater := h.later hclock
  obtain ⟨now, op⟩ := op
  cases op with
  | set key value ttl => exact hlater.set key value ttl
  | get key => exact hlater.get key
  | delete key =>
    rw [TtlCache.used, List.append_nil]
    refine hlater.delete (fun k hk => Function.update_of_ne hk _ _) fun e he => ?_
    rw [DeadlineMap.step, Function.update_self] at he
    cases he
  | clear =>
    rw [TtlCache.used, List.append_nil]
    exact ⟨h.capacity, h.lifetime, Nat.zero_le _, List.Pairwise.nil,
      fun _ hx => absurd hx List.not_mem_nil, fun _ _ he => nomatch he⟩

/-- A whole run, on a clock that does not go back. -/
theorem tracks_run (h : Tracks maxEntries ttlMs m trace clock c) (ops : List (ℤ × CacheOp κ α))
    (hclock : (clock :: (ops.map Prod.fst ++ [now])).Pairwise (· ≤ ·)) :
    Tracks maxEntries ttlMs (run (DeadlineMap.step ttlMs) m ops) (trace ++ c.uses ops) now
      (run TtlCache.step c ops) := by
  induction ops generalizing m trace clock c with
  | nil =>
    rw [TtlCache.uses, List.append_nil]
    exact h.later (List.rel_of_pairwise_cons hclock (List.mem_singleton.mpr rfl))
  | cons op ops ih =>
    obtain ⟨hfirst, hrest⟩ := List.pairwise_cons.mp hclock
    rw [TtlCache.uses, ← List.append_assoc]
    exact ih (tracks_step h op (hfirst _ (List.mem_cons_self ..))) hrest

/-- **The cache refines the map.** After any run from an empty cache, on a clock that does not go
back: the cache is no larger than it may be; a read answers only what was last set, before its
deadline; and it does answer that, when fewer other keys than there are places were used since the
key was. -/
theorem ttlCache_refines (maxEntries : ℕ) (ttlMs : ℤ) (ops : List (ℤ × CacheOp κ α)) (now : ℤ)
    (hclock : (ops.map Prod.fst ++ [now]).Pairwise (· ≤ ·)) :
    (TtlCache.ran maxEntries ttlMs ops).size ≤ maxEntries ∧ ∀ key value,
      (((TtlCache.ran maxEntries ttlMs ops).get now key).1 = some value → ∃ at_ ttl,
        LastSet ops key at_ value ttl ∧ now < at_ + ttl.getD ttlMs) ∧
      ∀ at_ ttl, LastSet ops key at_ value ttl → now < at_ + ttl.getD ttlMs →
        others key (TtlCache.uses (.empty maxEntries ttlMs) ops) < maxEntries →
          ((TtlCache.ran maxEntries ttlMs ops).get now key).1 = some value := by
  obtain ⟨clock, hbefore⟩ : ∃ clock, (clock :: (ops.map Prod.fst ++ [now])).Pairwise (· ≤ ·) := by
    cases ops with
    | nil => exact ⟨now, by simp⟩
    | cons op ops =>
      refine ⟨op.1, List.pairwise_cons.mpr ⟨fun t ht => ?_, hclock⟩⟩
      rcases List.mem_cons.mp ht with rfl | ht
      · exact le_rfl
      · exact List.rel_of_pairwise_cons hclock ht
  have htracks := tracks_run (tracks_empty maxEntries ttlMs clock) ops hbefore
  rw [List.nil_append] at htracks
  refine ⟨htracks.bounded, fun key value => ⟨fun hget => ?_, fun at_ ttl hlast hlive hfew => ?_⟩⟩
  · obtain ⟨e, he, rfl, hlive⟩ := TtlCache.get_eq_some hget
    obtain ⟨at_, ttl, hlast, hexpires⟩ :=
      (deadlineMap_eq_some ttlMs ops key e).mp (htracks.stored _ he)
    exact ⟨at_, ttl, hlast, by omega⟩
  · have hheld := (deadlineMap_eq_some ttlMs ops key ⟨value, at_ + ttl.getD ttlMs⟩).mpr
      ⟨at_, ttl, hlast, rfl⟩
    rcases htracks.kept key _ hheld hfew with hmem | hpast
    · exact TtlCache.get_of_mem hmem hlive
    · exact absurd hlive (by simpa using hpast)

end Runs

section Example

/-- Two keys are set, the first is read, and a third is set. -/
def thirdKey : List (ℤ × CacheOp ℕ ℕ) :=
  [(0, .set 1 10 none), (1, .set 2 20 none), (2, .get 1), (3, .set 3 30 none)]

/-- With two places, the key that was read is there, and the other one is not. -/
theorem ttlCache_refines_thirdKey :
    ((TtlCache.ran 2 10 thirdKey).get 4 1).1 = some 10 ∧
      ((TtlCache.ran 2 10 thirdKey).get 4 2).1 = none := by
  have hset : LastSet thirdKey 1 0 10 none :=
    ⟨[], [(1, .set 2 20 none), (2, .get 1), (3, .set 3 30 none)], rfl, by simp [CacheOp.Ends]⟩
  have h := ttlCache_refines 2 10 thirdKey 4 (by decide)
  exact ⟨(h.2 1 10).2 0 none hset (by decide) (by decide), by decide⟩

end Example

end LampLight
