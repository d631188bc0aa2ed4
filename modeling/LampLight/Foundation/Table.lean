import Mathlib.Data.List.Sort
import Mathlib.Data.List.Nodup
import Mathlib.Tactic.Simps.Basic

/-!
# Tables as lists of rows

A relational table is a list of rows in storage order. Queries are list operations: `select … where`
is `List.filter`, `limit 1` is `List.find?`, `exists` is `List.any`, and the three combinators below
are an inner join, an `update … where` and a `delete … where`.

## Ownership

Several owners share one table. `owned owner t r` is the part of `r` that belongs to `t`, and
`others owner t r` is the rest. A query *stays with* `t` when its condition implies ownership; such
a query reads the same from the whole table and from the owned part, and such a write leaves the
rest alone. These two families of lemmas are what a two-run argument about isolation is made of.

## Main results

* `mem_innerJoin` — the rows of a join
* `find?_eq_some_of_unique` — `limit 1` under a uniqueness constraint
* `filter_upsert_self`, `filter_upsert_of_ne` — an upsert, at its key and elsewhere
* `Differ` — which rows two states of a table differ in
* `find?_owned`, `filter_owned`, `any_owned` — reads that stay with an owner
* `filter_innerJoin_owned` — the same for a query over a join
* `others_append_of_owned`, `others_update`, `others_delete` — writes that stay with an owner
-/

namespace Table

variable {ρ σ τ κ : Type*}

/-! ### Queries -/

/-- Inner join: the pairs of rows that satisfy the join condition, in nested-loop order. -/
def innerJoin (on : ρ → σ → Bool) (r : List ρ) (s : List σ) : List (ρ × σ) :=
  r.flatMap fun a => (s.filter (on a)).map fun b => (a, b)

/-- `update … set … where p`. -/
def update (p : ρ → Bool) (f : ρ → ρ) (r : List ρ) : List ρ :=
  r.map fun a => if p a then f a else a

/-- `insert … on conflict do update`, for the row that both write. -/
def upsert [DecidableEq κ] (key : ρ → κ) (a : ρ) (r : List ρ) : List ρ :=
  if r.any fun b => key b = key a then update (fun b => key b = key a) (fun _ => a) r
  else r ++ [a]

/-- `delete … where p`. -/
def delete (p : ρ → Bool) (r : List ρ) : List ρ := r.filter fun a => !p a

/-- `order by key`, stable. -/
def orderBy [LE κ] [DecidableLE κ] (key : ρ → κ) (r : List ρ) : List ρ :=
  r.insertionSort fun a b => key a ≤ key b

theorem innerJoin_cons (on : ρ → σ → Bool) (a : ρ) (r : List ρ) (s : List σ) :
    innerJoin on (a :: r) s = ((s.filter (on a)).map fun b => (a, b)) ++ innerJoin on r s := rfl

theorem update_cons (p : ρ → Bool) (f : ρ → ρ) (a : ρ) (r : List ρ) :
    update p f (a :: r) = (if p a then f a else a) :: update p f r := rfl

@[simp] theorem mem_innerJoin {on : ρ → σ → Bool} {r : List ρ} {s : List σ} {a : ρ} {b : σ} :
    (a, b) ∈ innerJoin on r s ↔ a ∈ r ∧ b ∈ s ∧ on a b = true := by
  simp only [innerJoin, List.mem_flatMap, List.mem_map, List.mem_filter, Prod.mk.injEq]
  constructor
  · rintro ⟨a', ha', b', ⟨hb', hon⟩, rfl, rfl⟩
    exact ⟨ha', hb', hon⟩
  · rintro ⟨ha, hb, hon⟩
    exact ⟨a, ha, b, ⟨hb, hon⟩, rfl, rfl⟩

/-- A change of the left rows that the join condition does not see. -/
theorem innerJoin_map_left {on : ρ → σ → Bool} {f : ρ → ρ} (hf : ∀ a, on (f a) = on a) (r : List ρ)
    (s : List σ) : innerJoin on (r.map f) s = (innerJoin on r s).map fun x => (f x.1, x.2) := by
  induction r with
  | nil => rfl
  | cons a r ih =>
    rw [List.map_cons, innerJoin_cons, innerJoin_cons, ih, List.map_append, List.map_map, hf]
    rfl

@[simp] theorem mem_orderBy [LE κ] [DecidableLE κ] {key : ρ → κ} {r : List ρ} {a : ρ} :
    a ∈ orderBy key r ↔ a ∈ r :=
  List.mem_insertionSort _

theorem perm_orderBy [LE κ] [DecidableLE κ] (key : ρ → κ) (r : List ρ) :
    (orderBy key r).Perm r :=
  List.perm_insertionSort _ r

theorem pairwise_orderBy [LinearOrder κ] (key : ρ → κ) (r : List ρ) :
    (orderBy key r).Pairwise fun a b => key a ≤ key b := by
  have htotal : Std.Total fun a b : ρ => key a ≤ key b := ⟨fun a b => le_total (key a) (key b)⟩
  have htrans : IsTrans ρ fun a b => key a ≤ key b := ⟨fun _ _ _ => le_trans⟩
  exact List.pairwise_insertionSort _ r

/-- Rows of one selection that share a key stay as they are: the order is stable. -/
theorem filter_orderBy_of_key_eq [LinearOrder κ] {key : ρ → κ} {p : ρ → Bool} {r : List ρ}
    (h : ∀ a ∈ r.filter p, ∀ b ∈ r.filter p, key a = key b) :
    (orderBy key r).filter p = r.filter p := by
  have hsorted : (r.filter p).Pairwise fun a b => key a ≤ key b :=
    List.pairwise_of_forall_mem_list fun a ha b hb => (h a ha b hb).le
  have hsub : (r.filter p).Sublist (orderBy key r) :=
    List.sublist_insertionSort hsorted List.filter_sublist
  have hkept : (r.filter p).Sublist ((orderBy key r).filter p) := by
    have := hsub.filter p
    rwa [List.filter_filter, show (fun a => p a && p a) = p from funext fun a => Bool.and_self _]
      at this
  exact (hkept.eq_of_length ((perm_orderBy key r).filter p).length_eq.symm).symm

/-- Rows that each find one partner come out of a join as they went in. -/
theorem map_fst_filter_innerJoin {on : ρ → σ → Bool} {p : ρ → Bool} {r : List ρ} {s : List σ}
    (h : ∀ a ∈ r, p a = true → ∃ b, s.filter (on a) = [b]) :
    ((innerJoin on r s).filter fun x => p x.1).map Prod.fst = r.filter p := by
  induction r with
  | nil => rfl
  | cons a r ih =>
    rw [innerJoin_cons, List.filter_append, List.map_append,
      ih fun b hb => h b (List.mem_cons_of_mem _ hb)]
    cases hp : p a with
    | true =>
      obtain ⟨b, hb⟩ := h a (List.mem_cons_self ..) hp
      simp [hb, hp]
    | false => simp [hp, List.filter_map, Function.comp_def]

/-- Rows with at most one partner come out of a join once at most, in their order. -/
theorem map_fst_filter_innerJoin_sublist {on : ρ → σ → Bool} {p : ρ × σ → Bool} {r : List ρ}
    {s : List σ} (h : ∀ a ∈ r, (s.filter fun b => p (a, b) && on a b).length ≤ 1) :
    (((innerJoin on r s).filter p).map Prod.fst).Sublist r := by
  induction r with
  | nil => exact List.Sublist.slnil
  | cons a r ih =>
    have hfirst : ((((s.filter (on a)).map fun b => (a, b)).filter p).map Prod.fst)
        = (s.filter fun b => p (a, b) && on a b).map fun _ => a := by
      rw [List.filter_map, List.map_map, List.filter_filter]
      rfl
    rw [innerJoin_cons, List.filter_append, List.map_append, hfirst]
    show List.Sublist _ ([a] ++ r)
    refine List.Sublist.append ?_ (ih fun b hb => h b (List.mem_cons_of_mem _ hb))
    match s.filter fun b => p (a, b) && on a b, h a (List.mem_cons_self ..) with
    | [], _ => exact List.nil_sublist _
    | [b], _ => exact List.Sublist.refl _

@[simp] theorem mem_delete {p : ρ → Bool} {r : List ρ} {a : ρ} :
    a ∈ delete p r ↔ a ∈ r ∧ p a = false := by
  simp [delete]

theorem mem_update {p : ρ → Bool} {f : ρ → ρ} {r : List ρ} {a : ρ} :
    a ∈ update p f r ↔ (a ∈ r ∧ p a = false) ∨ ∃ b ∈ r, p b = true ∧ f b = a := by
  simp only [update, List.mem_map]
  constructor
  · rintro ⟨b, hb, rfl⟩
    cases hp : p b with
    | true => exact Or.inr ⟨b, hb, hp, by simp⟩
    | false => exact Or.inl (by simpa [hp] using hb)
  · rintro (⟨ha, hp⟩ | ⟨b, hb, hp, rfl⟩)
    · exact ⟨a, ha, by simp [hp]⟩
    · exact ⟨b, hb, by simp [hp]⟩

/-- An update of a single row. -/
theorem mem_update_of_unique {p : ρ → Bool} {f : ρ → ρ} {r : List ρ} {a : ρ} (ha : a ∈ r)
    (hp : ∀ b ∈ r, p b = true ↔ b = a) {b : ρ} : b ∈ update p f r ↔ (b ∈ r ∧ b ≠ a) ∨ b = f a := by
  rw [mem_update]
  constructor
  · rintro (⟨hb, hfalse⟩ | ⟨c, hc, htrue, rfl⟩)
    · refine Or.inl ⟨hb, fun hba => ?_⟩
      rw [(hp b hb).mpr hba] at hfalse
      cases hfalse
    · exact Or.inr (congrArg f ((hp c hc).mp htrue))
  · rintro (⟨hb, hne⟩ | rfl)
    · exact Or.inl ⟨hb, Bool.eq_false_iff.mpr fun htrue => hne ((hp b hb).mp htrue)⟩
    · exact Or.inr ⟨a, ha, (hp a ha).mpr rfl, rfl⟩

/-- An update that takes rows out of a selection and none in. -/
theorem filter_update_sublist {p q : ρ → Bool} {f : ρ → ρ} (h : ∀ a, p a = true → q (f a) = false)
    (r : List ρ) : ((update p f r).filter q).Sublist (r.filter q) := by
  induction r with
  | nil => exact List.Sublist.refl _
  | cons a r ih =>
    simp only [update, List.map_cons] at ih ⊢
    cases hp : p a with
    | true =>
      rw [if_pos rfl, List.filter_cons_of_neg (by rw [h a hp]; exact Bool.false_ne_true)]
      exact ih.trans ((List.sublist_cons_self a r).filter q)
    | false =>
      rw [if_neg Bool.false_ne_true]
      cases hq : q a with
      | true =>
        rw [List.filter_cons_of_pos hq, List.filter_cons_of_pos hq]
        exact ih.cons_cons a
      | false =>
        rw [List.filter_cons_of_neg (by rw [hq]; exact Bool.false_ne_true),
          List.filter_cons_of_neg (by rw [hq]; exact Bool.false_ne_true)]
        exact ih

/-- Two members of a list of at most one. -/
theorem eq_of_length_le_one {r : List ρ} (h : r.length ≤ 1) {a b : ρ} (ha : a ∈ r) (hb : b ∈ r) :
    a = b := by
  match r, h with
  | [c], _ => rw [List.mem_singleton.mp ha, List.mem_singleton.mp hb]

/-- A selection of a single row. -/
theorem filter_eq_singleton {p : ρ → Bool} {r : List ρ} {a : ρ} (hnd : r.Nodup) (ha : a ∈ r)
    (hp : ∀ b ∈ r, p b = true ↔ b = a) : r.filter p = [a] := by
  refine List.perm_singleton.mp ((List.perm_ext_iff_of_nodup (hnd.filter p) ?_).mpr fun b => ?_)
  · exact List.nodup_singleton a
  · rw [List.mem_filter, List.mem_singleton]
    constructor
    · rintro ⟨hb, htrue⟩
      exact (hp b hb).mp htrue
    · rintro rfl
      exact ⟨ha, (hp b ha).mpr rfl⟩

theorem delete_sublist (p : ρ → Bool) (r : List ρ) : (delete p r).Sublist r :=
  List.filter_sublist

theorem delete_eq_self {p : ρ → Bool} {r : List ρ} (h : ∀ a ∈ r, p a = false) : delete p r = r :=
  List.filter_eq_self.mpr fun a ha => by rw [h a ha]; rfl

/-- An update that keeps a column keeps the whole column. -/
theorem map_update {p : ρ → Bool} {f : ρ → ρ} {g : ρ → σ} (hf : ∀ a, g (f a) = g a) (r : List ρ) :
    (update p f r).map g = r.map g := by
  simp only [update, List.map_map]
  refine List.map_congr_left fun a _ => ?_
  cases h : p a <;> simp [h, hf]

/-- Updating rows is updating what they map to, when the map shows what the update goes by. -/
theorem map_update_comm {g : ρ → σ} {p : ρ → Bool} {p' : σ → Bool} {f : ρ → ρ}
    {f' : σ → σ} (hp : ∀ a, p' (g a) = p a) (hf : ∀ a, g (f a) = f' (g a)) (r : List ρ) :
    (update p f r).map g = update p' f' (r.map g) := by
  simp only [update, List.map_map]
  refine List.map_congr_left fun a _ => ?_
  simp only [Function.comp_apply, hp]
  split_ifs <;> simp [hf]

/-- The same for a column of the rows that satisfy a condition the update keeps. -/
theorem map_filter_update {p q : ρ → Bool} {f : ρ → ρ} {g : ρ → σ} (hf : ∀ a, g (f a) = g a)
    (hq : ∀ a, q (f a) = q a) (r : List ρ) :
    ((update p f r).filter q).map g = (r.filter q).map g := by
  induction r with
  | nil => rfl
  | cons a r ih =>
    simp only [update, List.map_cons, List.filter_cons] at ih ⊢
    cases hp : p a <;> cases hqa : q a <;> simp [hf, hq, hqa, ih]

/-- An update that keeps its own condition rewrites the row that `limit 1` finds. -/
theorem find?_update {p : ρ → Bool} {f : ρ → ρ} (hp : ∀ a, p (f a) = p a) (r : List ρ) :
    (update p f r).find? p = (r.find? p).map f := by
  induction r with
  | nil => rfl
  | cons a r ih =>
    rw [update_cons, List.find?_cons, List.find?_cons, ih]
    cases h : p a with
    | true => simp [hp, h]
    | false => simp [h]

/-- An update of rows that do not qualify, before or after, goes unseen. -/
theorem find?_update_of_disjoint {p q : ρ → Bool} {f : ρ → ρ}
    (h : ∀ a, p a = true → q a = false ∧ q (f a) = false) (r : List ρ) :
    (update p f r).find? q = r.find? q := by
  induction r with
  | nil => rfl
  | cons a r ih =>
    rw [update_cons, List.find?_cons, List.find?_cons, ih]
    cases hp : p a with
    | true => simp [h a hp]
    | false => simp

/-- An update of rows that are not selected, before or after. -/
theorem filter_update_of_disjoint {p q : ρ → Bool} {f : ρ → ρ}
    (h : ∀ a, p a = true → q a = false ∧ q (f a) = false) (r : List ρ) :
    (update p f r).filter q = r.filter q := by
  induction r with
  | nil => rfl
  | cons a r ih =>
    rw [update_cons, List.filter_cons, List.filter_cons, ih]
    cases hp : p a with
    | true => simp [h a hp]
    | false => simp

/-- An update that keeps its own condition rewrites the rows it selects. -/
theorem filter_update_self {p : ρ → Bool} {f : ρ → ρ} (hp : ∀ a, p a = true → p (f a) = true)
    (r : List ρ) : (update p f r).filter p = (r.filter p).map f := by
  induction r with
  | nil => rfl
  | cons a r ih =>
    rw [update_cons, List.filter_cons, List.filter_cons, ih]
    cases h : p a with
    | true => simp [hp a h]
    | false => simp [h]

section Upsert

variable [DecidableEq κ] {key : ρ → κ} {a : ρ} {r : List ρ}

theorem filter_upsert_of_ne {k : κ} (h : key a ≠ k) :
    (upsert key a r).filter (fun b => key b = k) = r.filter fun b => key b = k := by
  rw [upsert]
  split_ifs
  · refine filter_update_of_disjoint (fun b hb => ?_) r
    rw [of_decide_eq_true hb]
    exact ⟨decide_eq_false h, decide_eq_false h⟩
  · simp [List.filter_append, h]

/-- Where a key has one row at most, it has the new one afterwards. -/
theorem filter_upsert_self (h : (r.filter fun b => key b = key a).length ≤ 1) :
    (upsert key a r).filter (fun b => key b = key a) = [a] := by
  rw [upsert]
  split_ifs with hany
  · rw [filter_update_self (by simp) r]
    obtain ⟨b, hb, hkey⟩ := List.any_eq_true.mp hany
    have hmem : b ∈ r.filter fun b => key b = key a := List.mem_filter.mpr ⟨hb, hkey⟩
    obtain ⟨c, hc⟩ := List.length_eq_one_iff.mp (le_antisymm h (List.length_pos_of_mem hmem))
    rw [hc]
    rfl
  · have hnone : r.filter (fun b => key b = key a) = [] :=
      List.filter_eq_nil_iff.mpr fun b hb hkey => hany (List.any_eq_true.mpr ⟨b, hb, hkey⟩)
    simp [List.filter_append, hnone]

end Upsert

/-- `limit 1` finds the only row that qualifies. -/
theorem find?_eq_some_of_unique {p : ρ → Bool} {r : List ρ} {a : ρ} (ha : a ∈ r) (hp : p a = true)
    (huniq : ∀ b ∈ r, p b = true → b = a) : r.find? p = some a := by
  cases hf : r.find? p with
  | none => exact absurd hp (by simpa using List.find?_eq_none.mp hf a ha)
  | some b =>
    rw [huniq b (List.mem_of_find?_eq_some hf) (List.find?_some hf)]

/-- A key column without duplicates identifies its row. -/
theorem eq_of_key_eq {g : ρ → κ} {r : List ρ} (hnd : (r.map g).Nodup) {a b : ρ} (ha : a ∈ r)
    (hb : b ∈ r) (h : g a = g b) : a = b :=
  List.inj_on_of_nodup_map hnd ha hb h

/-- A selection that fixes the key finds one row at most. -/
theorem length_filter_le_one {g : ρ → κ} {r : List ρ} (hnd : (r.map g).Nodup) {p : ρ → Bool} {k : κ}
    (hp : ∀ a, p a = true → g a = k) : (r.filter p).length ≤ 1 := by
  have hkeys : ∀ a ∈ r.filter p, g a = k := fun a ha => hp a (List.mem_filter.mp ha).2
  have hsub : ((r.filter p).map g).Nodup := hnd.sublist (List.filter_sublist.map g)
  rw [List.map_congr_left hkeys, List.map_const'] at hsub
  exact List.nodup_replicate.mp hsub

/-! ### Differences -/

/-- The rows that leave a table satisfy `was`, and the rows that come into it satisfy `is`. A row
that is changed leaves and comes. -/
structure Differ (old new : List ρ) (was is : ρ → Prop) : Prop where
  gone : ∀ a ∈ old, a ∉ new → was a
  came : ∀ a ∈ new, a ∉ old → is a

section Differ

variable {old mid new : List ρ} {was is : ρ → Prop} {p : ρ → Bool} {f : ρ → ρ}

theorem Differ.refl (r : List ρ) (was is : ρ → Prop) : Differ r r was is where
  gone := fun _ ha hna => absurd ha hna
  came := fun _ ha hna => absurd ha hna

theorem Differ.trans (h : Differ old mid was is) (h' : Differ mid new was is) :
    Differ old new was is where
  gone := by
    intro a ha hna
    by_cases hmid : a ∈ mid
    · exact h'.gone a hmid hna
    · exact h.gone a ha hmid
  came := by
    intro a ha hna
    by_cases hmid : a ∈ mid
    · exact h.came a hmid hna
    · exact h'.came a ha hmid

theorem differ_append {a : ρ} (ha : is a) (r : List ρ) : Differ r (r ++ [a]) was is where
  gone := fun b hb hnb => absurd (List.mem_append_left _ hb) hnb
  came := by
    intro b hb hnb
    rcases List.mem_append.mp hb with hb | hb
    · exact absurd hb hnb
    · rw [List.mem_singleton.mp hb]
      exact ha

theorem differ_update {r : List ρ} (hwas : ∀ a ∈ r, p a = true → was a)
    (his : ∀ a ∈ r, p a = true → is (f a)) : Differ r (update p f r) was is where
  gone := by
    intro a ha hna
    by_cases hp : p a = true
    · exact hwas a ha hp
    · exact absurd (mem_update.mpr (Or.inl ⟨ha, Bool.eq_false_iff.mpr hp⟩)) hna
  came := by
    intro a ha hna
    rcases mem_update.mp ha with ⟨hold, -⟩ | ⟨b, hb, hp, rfl⟩
    · exact absurd hold hna
    · exact his b hb hp

theorem differ_delete {r : List ρ} (hwas : ∀ a ∈ r, p a = true → was a) :
    Differ r (delete p r) was is where
  gone := by
    intro a ha hna
    by_cases hp : p a = true
    · exact hwas a ha hp
    · exact absurd (mem_delete.mpr ⟨ha, Bool.eq_false_iff.mpr hp⟩) hna
  came := fun a ha hna => absurd (mem_delete.mp ha).1 hna

/-- A change to the one row with a key. -/
theorem differ_update_key {r : List ρ} {key : ρ → κ} (hkeys : (r.map key).Nodup) {a : ρ}
    (ha : a ∈ r) (hp : ∀ b, p b = true → key b = key a) (hwas : was a) (his : is (f a)) :
    Differ r (update p f r) was is := by
  refine differ_update ?_ ?_
  · intro b hb hpb
    rw [eq_of_key_eq hkeys hb ha (hp b hpb)]
    exact hwas
  · intro b hb hpb
    rw [eq_of_key_eq hkeys hb ha (hp b hpb)]
    exact his

theorem differ_delete_key {r : List ρ} {key : ρ → κ} (hkeys : (r.map key).Nodup) {a : ρ}
    (ha : a ∈ r) (hp : ∀ b, p b = true → key b = key a) (hwas : was a) :
    Differ r (delete p r) was is := by
  refine differ_delete fun b hb hpb => ?_
  rw [eq_of_key_eq hkeys hb ha (hp b hpb)]
  exact hwas

end Differ

/-! ### Ownership -/

section Ownership

variable [DecidableEq τ] (owner : ρ → τ) (t : τ)

/-- The rows that belong to `t`. -/
def owned (r : List ρ) : List ρ := r.filter fun a => owner a = t

/-- The rows that belong to somebody else. -/
def others (r : List ρ) : List ρ := r.filter fun a => !decide (owner a = t)

variable {owner t}

@[simp] theorem mem_owned {r : List ρ} {a : ρ} : a ∈ owned owner t r ↔ a ∈ r ∧ owner a = t := by
  simp [owned]

@[simp] theorem owned_owned (r : List ρ) : owned owner t (owned owner t r) = owned owner t r := by
  simp [owned]

theorem find?_owned {p : ρ → Bool} (hp : ∀ a, p a = true → owner a = t) (r : List ρ) :
    (owned owner t r).find? p = r.find? p := by
  rw [owned, List.find?_filter]
  refine congrArg (fun q => List.find? q r) (funext fun a => ?_)
  cases h : p a with
  | false => simp
  | true => simp [hp a h]

theorem filter_owned {p : ρ → Bool} (hp : ∀ a, p a = true → owner a = t) (r : List ρ) :
    (owned owner t r).filter p = r.filter p := by
  rw [owned, List.filter_filter]
  refine List.filter_congr fun a _ => ?_
  cases h : p a with
  | false => simp
  | true => simp [hp a h]

theorem any_owned {p : ρ → Bool} (hp : ∀ a, p a = true → owner a = t) (r : List ρ) :
    (owned owner t r).any p = r.any p := by
  rw [Bool.eq_iff_iff, List.any_eq_true, List.any_eq_true]
  constructor
  · rintro ⟨a, ha, hpa⟩
    exact ⟨a, (mem_owned.mp ha).1, hpa⟩
  · rintro ⟨a, ha, hpa⟩
    exact ⟨a, mem_owned.mpr ⟨ha, hp a hpa⟩, hpa⟩

/-- Nobody's rows hold what no row holds. -/
theorem any_owned_of_none {p : ρ → Bool} {r : List ρ} (hp : ∀ a ∈ r, p a = false) :
    (owned owner t r).any p = r.any p := by
  rw [List.any_eq_false.mpr fun a ha => Bool.eq_false_iff.mp (hp a (mem_owned.mp ha).1),
    List.any_eq_false.mpr fun a ha => Bool.eq_false_iff.mp (hp a ha)]

/-- A join whose condition fixes the owner of the right row reads only that owner's rows. -/
theorem innerJoin_owned_right {on : σ → ρ → Bool} {r : List σ}
    (hon : ∀ a ∈ r, ∀ b, on a b = true → owner b = t) (s : List ρ) :
    innerJoin on r (owned owner t s) = innerJoin on r s :=
  List.flatMap_congr fun a ha => by rw [filter_owned (hon a ha)]

theorem filter_innerJoin (on : ρ → σ → Bool) (p : ρ → Bool) (r : List ρ) (s : List σ) :
    (innerJoin on r s).filter (fun x => p x.1) = innerJoin on (r.filter p) s := by
  induction r with
  | nil => rfl
  | cons a r ih =>
    rw [innerJoin_cons, List.filter_append, ih, List.filter_cons]
    cases h : p a with
    | true =>
      rw [if_pos rfl, innerJoin_cons]
      congr 1
      rw [List.filter_eq_self]
      rintro ⟨a', b⟩ hb
      obtain ⟨b', -, hab⟩ := List.mem_map.mp hb
      rw [← hab]
      exact h
    | false =>
      rw [if_neg (by simp)]
      simp [List.filter_map, Function.comp_def, h]

/-- The same, one join further: a condition `q` on the left rows moves past the join, where it may
help to fix the owner of the right row. -/
theorem filter_innerJoin_owned {on : σ → ρ → Bool} {q : σ → Bool} {r r' : List σ}
    (hr : r.filter q = r'.filter q) (hon : ∀ a b, q a = true → on a b = true → owner b = t)
    (s : List ρ) :
    (innerJoin on r (owned owner t s)).filter (fun x => q x.1)
      = (innerJoin on r' s).filter fun x => q x.1 := by
  rw [filter_innerJoin, filter_innerJoin, hr]
  exact innerJoin_owned_right (fun a ha b => hon a b (List.mem_filter.mp ha).2) s

theorem others_append_of_owned {r s : List ρ} (h : ∀ a ∈ s, owner a = t) :
    others owner t (r ++ s) = others owner t r := by
  have hs : s.filter (fun a => !decide (owner a = t)) = [] :=
    List.filter_eq_nil_iff.mpr fun a ha => by simp [h a ha]
  rw [others, List.filter_append, hs, List.append_nil, others]

theorem others_update {p : ρ → Bool} {f : ρ → ρ} (hp : ∀ a, p a = true → owner a = t)
    (hf : ∀ a, owner (f a) = owner a) (r : List ρ) :
    others owner t (update p f r) = others owner t r := by
  induction r with
  | nil => rfl
  | cons a r ih =>
    simp only [others, update, List.map_cons, List.filter_cons] at ih ⊢
    rw [ih]
    cases h : p a with
    | true => simp [hf, hp a h]
    | false => simp

theorem others_delete {p : ρ → Bool} (hp : ∀ a, p a = true → owner a = t) (r : List ρ) :
    others owner t (delete p r) = others owner t r := by
  rw [others, delete, List.filter_filter]
  refine List.filter_congr fun a _ => ?_
  cases h : p a with
  | true => simp [hp a h]
  | false => simp

theorem owned_append_of_owned {r s : List ρ} (h : ∀ a ∈ s, owner a = t) :
    owned owner t (r ++ s) = owned owner t r ++ s := by
  have hs : s.filter (fun a => decide (owner a = t)) = s :=
    List.filter_eq_self.mpr fun a ha => by simp [h a ha]
  rw [owned, List.filter_append, hs, owned]

/-- An update that takes no row from `t` and gives it none. -/
theorem owned_update_of_iff {p : ρ → Bool} {f : ρ → ρ} {r : List ρ}
    (h : ∀ a ∈ r, p a = true → (owner (f a) = t ↔ owner a = t)) :
    owned owner t (update p f r) = update p f (owned owner t r) := by
  induction r with
  | nil => rfl
  | cons a r ih =>
    have hrest := ih fun b hb => h b (List.mem_cons_of_mem _ hb)
    simp only [owned, update, List.map_cons, List.filter_cons] at hrest ⊢
    rw [hrest]
    cases hp : p a with
    | true =>
      have hsame := h a (List.mem_cons_self ..) hp
      by_cases hown : owner a = t <;> simp [hsame, hown, hp]
    | false => by_cases hown : owner a = t <;> simp [hown, hp]

theorem owned_update {p : ρ → Bool} {f : ρ → ρ} (hf : ∀ a, owner (f a) = owner a) (r : List ρ) :
    owned owner t (update p f r) = update p f (owned owner t r) :=
  owned_update_of_iff fun a _ _ => by rw [hf]

theorem owned_delete {p : ρ → Bool} (r : List ρ) :
    owned owner t (delete p r) = delete p (owned owner t r) := by
  rw [owned, delete, owned, delete, List.filter_filter, List.filter_filter]
  exact List.filter_congr fun a _ => Bool.and_comm _ _

/-- An update of rows of `t` that stay rows of `t`. -/
theorem owned_update_of_owned {p : ρ → Bool} {f : ρ → ρ} {r : List ρ}
    (h : ∀ a ∈ r, p a = true → owner a = t ∧ owner (f a) = t) :
    owned owner t (update p f r) = update p f (owned owner t r) :=
  owned_update_of_iff fun a ha hp => iff_of_true (h a ha hp).2 (h a ha hp).1

/-- What is done to rows of others is not done to those of `t`. -/
theorem owned_append_of_ne {r s : List ρ} (h : ∀ a ∈ s, owner a ≠ t) :
    owned owner t (r ++ s) = owned owner t r := by
  have hs : s.filter (fun a => decide (owner a = t)) = [] :=
    List.filter_eq_nil_iff.mpr fun a ha => by simpa using h a ha
  rw [owned, List.filter_append, hs, List.append_nil, owned]

theorem owned_update_of_ne {p : ρ → Bool} {f : ρ → ρ} {r : List ρ}
    (h : ∀ a ∈ r, p a = true → owner a ≠ t ∧ owner (f a) ≠ t) :
    owned owner t (update p f r) = owned owner t r := by
  rw [owned_update_of_iff fun a ha hp => iff_of_false (h a ha hp).2 (h a ha hp).1, update]
  -- no row that is left qualifies
  refine List.map_congr_left (fun a ha => ?_) |>.trans (List.map_id _)
  obtain ⟨hmem, hown⟩ := List.mem_filter.mp ha
  exact if_neg fun hp => (h a hmem hp).1 (of_decide_eq_true hown)

theorem owned_delete_of_ne {p : ρ → Bool} {r : List ρ}
    (h : ∀ a ∈ r, p a = true → owner a ≠ t) : owned owner t (delete p r) = owned owner t r := by
  rw [owned, delete, List.filter_filter, owned]
  refine List.filter_congr fun a ha => ?_
  cases hp : p a with
  | true => simp [h a ha hp]
  | false => simp

end Ownership

end Table
