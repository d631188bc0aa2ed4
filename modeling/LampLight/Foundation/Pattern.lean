import Mathlib.Data.List.TakeWhile
import Mathlib.Order.MinMax

/-!
# Regular expressions that backtrack

A regular expression here is what the languages that backtrack make of one: of the ways in which it
can match at a place, the first counts, a repetition prefers to be long, and an alternative prefers
its left side. `runs` lists the ways in that order, and `Reads` says which texts there are to read,
without an order. Repetitions are of one class of characters each.

A search goes on behind each match it finds. It ends because an expression that is searched for
reads at least one character, which `least` bounds.

## Main definitions

* `Regex.runs`, `Regex.Reads` — the ways to match, in order, and the texts that can be matched
* `Regex.exec`, `Regex.scan` — the first match, and all of them from left to right
* `Regex.atStart`, `Regex.whole` — matches with the anchors `^` and `^ $`
* `Regex.replaceAll`, `Regex.split` — what is made of the matches
* `Erases`, `Joined` — a text without some of its characters, and pieces with separators

## Main results

* `mem_runs_iff` — the ways to match are the texts that can be read
* `scan_text`, `scan_reads`, `least_mul_scan_le` — a search loses nothing, and how long it can be
* `erases_replaceAll`, `joined_split` — nor do the two functions made of it, but for what they match
-/

namespace Pattern

variable {α : Type*}

/-! ### Expressions -/

/-- Regular expressions: runs of characters, sequences, choices and capture groups. -/
inductive Regex (α : Type*) where
  | empty
  | rep (fewest : ℕ) (most : Option ℕ) (p : α → Bool)
  | seq (r t : Regex α)
  | alt (r t : Regex α)
  | group (r : Regex α)

/-- A match: what was read, what the groups in it read, and what is left. -/
structure Found (α : Type*) where
  text : List α
  groups : List (List α)
  rest : List α

/-- A match in the middle of a text. -/
structure Hit (α : Type*) extends Found α where
  before : List α

namespace Regex

/-- `[…]`. -/
def one (p : α → Bool) : Regex α := rep 1 (some 1) p

/-- `[…]+`. -/
def plus (p : α → Bool) : Regex α := rep 1 none p

/-- `[…]*`. -/
def star (p : α → Bool) : Regex α := rep 0 none p

/-- `[…]?`. -/
def opt (p : α → Bool) : Regex α := rep 0 (some 1) p

/-- Several patterns one after the other. -/
def seqs (rs : List (Regex α)) : Regex α := rs.foldr seq empty

/-- The characters as they are. -/
def word [DecidableEq α] (w : List α) : Regex α := seqs (w.map fun a => one (· = a))

/-! ### Matching -/

/-- The numbers of characters a repetition can take, the longest first. -/
def counts (fewest : ℕ) (most : Option ℕ) (p : α → Bool) (s : List α) : List ℕ :=
  let run := (s.takeWhile p).length
  let longest := match most with
    | none => run
    | some k => min k run
  ((List.range (longest + 1)).filter (fewest ≤ ·)).reverse

/-- The ways to match at the front of a text, the preferred first. -/
def runs : Regex α → List α → List (Found α)
  | empty, s => [⟨[], [], s⟩]
  | rep fewest most p, s => (counts fewest most p s).map fun n => ⟨s.take n, [], s.drop n⟩
  | seq r t, s => (r.runs s).flatMap fun a => (t.runs a.rest).map fun b =>
      ⟨a.text ++ b.text, a.groups ++ b.groups, b.rest⟩
  | alt r t, s => r.runs s ++ t.runs s
  | group r, s => (r.runs s).map fun a => { a with groups := a.text :: a.groups }

/-- The text can be read, with these texts in the groups. -/
def Reads : Regex α → List α → List (List α) → Prop
  | empty, m, g => m = [] ∧ g = []
  | rep fewest most p, m, g =>
      (∀ a ∈ m, p a = true) ∧ fewest ≤ m.length ∧ (∀ k, most = some k → m.length ≤ k) ∧ g = []
  | seq r t, m, g => ∃ m₁ m₂ g₁ g₂, r.Reads m₁ g₁ ∧ t.Reads m₂ g₂ ∧ m = m₁ ++ m₂ ∧ g = g₁ ++ g₂
  | alt r t, m, g => r.Reads m g ∨ t.Reads m g
  | group r, m, g => ∃ g', r.Reads m g' ∧ g = m :: g'

theorem le_length_takeWhile_iff {p : α → Bool} {s : List α} {n : ℕ} :
    n ≤ (s.takeWhile p).length ↔ n ≤ s.length ∧ ∀ a ∈ s.take n, p a = true := by
  induction s generalizing n with
  | nil => simp
  | cons a s ih =>
    cases n with
    | zero => simp
    | succ n =>
      by_cases ha : p a = true
      · simp [ha, ih]
      · simp [ha]

theorem mem_counts {fewest : ℕ} {most : Option ℕ} {p : α → Bool} {s : List α} {n : ℕ} :
    n ∈ counts fewest most p s ↔
      fewest ≤ n ∧ n ≤ (s.takeWhile p).length ∧ ∀ k, most = some k → n ≤ k := by
  simp only [counts, List.mem_reverse, List.mem_filter, List.mem_range, decide_eq_true_eq]
  cases most with
  | none =>
    simp only [reduceCtorEq, false_implies, implies_true, and_true]
    omega
  | some k =>
    simp only [Option.some.injEq, forall_eq']
    omega

/-- **The ways to match are the texts that can be read.** -/
theorem mem_runs_iff {r : Regex α} {s : List α} {a : Found α} :
    a ∈ r.runs s ↔ s = a.text ++ a.rest ∧ r.Reads a.text a.groups := by
  induction r generalizing s a with
  | empty =>
    obtain ⟨m, g, rest⟩ := a
    simp only [runs, List.mem_singleton, Found.mk.injEq, Reads]
    constructor
    · rintro ⟨rfl, rfl, rfl⟩
      exact ⟨rfl, rfl, rfl⟩
    · rintro ⟨rfl, rfl, rfl⟩
      exact ⟨rfl, rfl, rfl⟩
  | rep fewest most p =>
    obtain ⟨m, g, rest⟩ := a
    simp only [runs, List.mem_map, mem_counts, le_length_takeWhile_iff, Found.mk.injEq, Reads]
    constructor
    · rintro ⟨n, ⟨hfew, ⟨hn, hp⟩, hmost⟩, rfl, rfl, rfl⟩
      have hlength := List.length_take_of_le hn
      exact ⟨(List.take_append_drop n s).symm, hp, hfew.trans hlength.ge,
        fun k hk => hlength.le.trans (hmost k hk), rfl⟩
    · rintro ⟨rfl, hp, hfew, hmost, rfl⟩
      refine ⟨m.length, ⟨hfew, ⟨?_, ?_⟩, hmost⟩, ?_⟩
      · simp
      · simpa using hp
      · simp
  | seq r t hr ht =>
    obtain ⟨m, g, rest⟩ := a
    simp only [runs, List.mem_flatMap, List.mem_map, hr, ht, Found.mk.injEq, Reads]
    constructor
    · rintro ⟨b, ⟨rfl, hb⟩, c, ⟨hc, hcr⟩, rfl, rfl, rfl⟩
      rw [hc, List.append_assoc]
      exact ⟨rfl, b.text, c.text, b.groups, c.groups, hb, hcr, rfl, rfl⟩
    · rintro ⟨rfl, m₁, m₂, g₁, g₂, h₁, h₂, rfl, rfl⟩
      exact ⟨⟨m₁, g₁, m₂ ++ rest⟩, ⟨List.append_assoc .., h₁⟩, ⟨m₂, g₂, rest⟩, ⟨rfl, h₂⟩,
        rfl, rfl, rfl⟩
  | alt r t hr ht =>
    simp only [runs, List.mem_append, hr, ht, Reads]
    exact and_or_left.symm
  | group r hr =>
    obtain ⟨m, g, rest⟩ := a
    simp only [runs, List.mem_map, hr, Found.mk.injEq, Reads]
    constructor
    · rintro ⟨b, ⟨rfl, hb⟩, rfl, rfl, rfl⟩
      exact ⟨rfl, b.groups, hb, rfl⟩
    · rintro ⟨rfl, g', h, rfl⟩
      exact ⟨⟨m, g', rest⟩, ⟨rfl, h⟩, rfl, rfl, rfl⟩

/-! ### What the shapes read -/

variable {p : α → Bool} {m : List α} {g : List (List α)}

theorem reads_one : (one p).Reads m g ↔ (∃ a, p a = true ∧ m = [a]) ∧ g = [] := by
  simp only [one, Reads]
  constructor
  · rintro ⟨hp, hfew, hmost, rfl⟩
    obtain ⟨a, rfl⟩ := List.length_eq_one_iff.mp (le_antisymm (hmost 1 rfl) hfew)
    exact ⟨⟨a, hp a (List.mem_singleton_self a), rfl⟩, rfl⟩
  · rintro ⟨⟨a, ha, rfl⟩, rfl⟩
    exact ⟨by simpa using ha, le_rfl, by simp, rfl⟩

theorem reads_opt : (opt p).Reads m g ↔ (m = [] ∨ ∃ a, p a = true ∧ m = [a]) ∧ g = [] := by
  simp only [opt, Reads]
  constructor
  · rintro ⟨hp, -, hmost, rfl⟩
    refine ⟨?_, rfl⟩
    rcases Nat.le_one_iff_eq_zero_or_eq_one.mp (hmost 1 rfl) with hlength | hlength
    · exact Or.inl (List.length_eq_zero_iff.mp hlength)
    · obtain ⟨a, rfl⟩ := List.length_eq_one_iff.mp hlength
      exact Or.inr ⟨a, hp a (List.mem_singleton_self a), rfl⟩
  · rintro ⟨rfl | ⟨a, ha, rfl⟩, rfl⟩
    · simp
    · exact ⟨by simpa using ha, Nat.zero_le _, by simp, rfl⟩

theorem reads_star : (star p).Reads m g ↔ (∀ a ∈ m, p a = true) ∧ g = [] := by
  simp [star, Reads]

theorem reads_plus : (plus p).Reads m g ↔ ((∀ a ∈ m, p a = true) ∧ m ≠ []) ∧ g = [] := by
  simp [plus, Reads, Nat.one_le_iff_ne_zero, and_assoc]

theorem reads_seqs_cons {r : Regex α} {rs : List (Regex α)} :
    (seqs (r :: rs)).Reads m g ↔ ∃ m₁ m₂ g₁ g₂, r.Reads m₁ g₁ ∧ (seqs rs).Reads m₂ g₂ ∧
      m = m₁ ++ m₂ ∧ g = g₁ ++ g₂ := Iff.rfl

/-- A part without groups in front of others. -/
theorem reads_seqs_cons_of_bare {r : Regex α} {rs : List (Regex α)} {P : List α → Prop}
    (hr : ∀ m g, r.Reads m g ↔ P m ∧ g = []) :
    (seqs (r :: rs)).Reads m g ↔ ∃ m₁ m₂, P m₁ ∧ (seqs rs).Reads m₂ g ∧ m = m₁ ++ m₂ := by
  simp only [reads_seqs_cons, hr]
  constructor
  · rintro ⟨m₁, m₂, _, g, ⟨hm₁, rfl⟩, hm₂, rfl, rfl⟩
    exact ⟨m₁, m₂, hm₁, hm₂, rfl⟩
  · rintro ⟨m₁, m₂, hm₁, hm₂, rfl⟩
    exact ⟨m₁, m₂, [], g, ⟨hm₁, rfl⟩, hm₂, rfl, rfl⟩

theorem reads_word [DecidableEq α] {w : List α} : (word w).Reads m g ↔ m = w ∧ g = [] := by
  induction w generalizing m g with
  | nil => exact Iff.rfl
  | cons a w ih =>
    have hword : word (a :: w) = seqs (one (· = a) :: w.map fun a => one (· = a)) := rfl
    rw [hword, reads_seqs_cons_of_bare fun _ _ => reads_one]
    constructor
    · rintro ⟨_, m₂, ⟨b, hb, rfl⟩, hm₂, rfl⟩
      obtain ⟨rfl, rfl⟩ := ih.mp hm₂
      rw [of_decide_eq_true hb]
      exact ⟨rfl, rfl⟩
    · rintro ⟨rfl, rfl⟩
      exact ⟨[a], w, ⟨a, by simp, rfl⟩, ih.mpr ⟨rfl, rfl⟩, rfl⟩

/-- Something between delimiters. -/
theorem reads_between [DecidableEq α] {left right : List α} {r : Regex α} :
    (seqs [word left, r, word right]).Reads m g ↔ ∃ s, r.Reads s g ∧ m = left ++ s ++ right := by
  rw [reads_seqs_cons_of_bare fun _ _ => reads_word]
  constructor
  · rintro ⟨_, _, rfl, ⟨s, _, g, _, hs, hright, rfl, rfl⟩, rfl⟩
    obtain ⟨_, _, rfl, ⟨rfl, rfl⟩, rfl⟩ :=
      (reads_seqs_cons_of_bare fun _ _ => reads_word).mp hright
    exact ⟨s, by simpa using hs, by simp⟩
  · rintro ⟨s, hs, rfl⟩
    refine ⟨left, s ++ right, rfl, ⟨s, right, g, [], hs, ?_, rfl, by simp⟩, by simp⟩
    exact (reads_seqs_cons_of_bare fun _ _ => reads_word).mpr
      ⟨right, [], rfl, ⟨rfl, rfl⟩, by simp⟩

/-- Two things between three delimiters. -/
theorem reads_between_two [DecidableEq α] {left middle right : List α} {r t : Regex α} :
    (seqs [word left, r, word middle, t, word right]).Reads m g ↔ ∃ s s' g₁ g₂, r.Reads s g₁ ∧
      t.Reads s' g₂ ∧ m = left ++ s ++ middle ++ s' ++ right ∧ g = g₁ ++ g₂ := by
  rw [reads_seqs_cons_of_bare fun _ _ => reads_word]
  constructor
  · rintro ⟨_, _, rfl, ⟨s, _, g₁, g₂, hs, hrest, rfl, rfl⟩, rfl⟩
    obtain ⟨s', hs', rfl⟩ := reads_between.mp hrest
    exact ⟨s, s', g₁, g₂, hs, hs', by simp, rfl⟩
  · rintro ⟨s, s', g₁, g₂, hs, hs', rfl, rfl⟩
    refine ⟨left, s ++ (middle ++ s' ++ right), rfl, ⟨s, _, g₁, g₂, hs, ?_, rfl, rfl⟩, by simp⟩
    exact reads_between.mpr ⟨s', hs', rfl⟩

/-! ### How much is read -/

/-- The length of the shortest text, and maybe less. -/
def least : Regex α → ℕ
  | empty => 0
  | rep fewest _ _ => fewest
  | seq r t => r.least + t.least
  | alt r t => min r.least t.least
  | group r => r.least

theorem least_le_length {r : Regex α} {m : List α} {g : List (List α)} (h : r.Reads m g) :
    r.least ≤ m.length := by
  induction r generalizing m g with
  | empty => exact Nat.zero_le _
  | rep fewest most p => exact h.2.1
  | seq r t hr ht =>
    obtain ⟨m₁, m₂, g₁, g₂, h₁, h₂, rfl, rfl⟩ := h
    rw [least, List.length_append]
    exact Nat.add_le_add (hr h₁) (ht h₂)
  | alt r t hr ht =>
    rcases h with h | h
    · exact (min_le_left _ _).trans (hr h)
    · exact (min_le_right _ _).trans (ht h)
  | group r hr =>
    obtain ⟨g', h, rfl⟩ := h
    exact hr h

/-! ### Matches with anchors -/

/-- `^` in front of the expression. -/
def atStart (r : Regex α) (s : List α) : Option (Found α) := (r.runs s).head?

/-- `^` in front of the expression and `$` behind it. -/
def whole (r : Regex α) (s : List α) : Option (Found α) :=
  (r.runs s).find? fun a => a.rest.isEmpty

/-- `s.replace(r, '')`, with the anchor `^`. -/
def removeStart (r : Regex α) (s : List α) : List α :=
  match r.atStart s with
  | none => s
  | some a => a.rest

theorem atStart_eq_some {r : Regex α} {s : List α} {a : Found α} (h : r.atStart s = some a) :
    s = a.text ++ a.rest ∧ r.Reads a.text a.groups :=
  mem_runs_iff.mp (List.mem_of_head? h)

theorem whole_eq_some {r : Regex α} {s : List α} {a : Found α} (h : r.whole s = some a) :
    r.Reads s a.groups := by
  have hrest : a.rest = [] := by simpa using List.find?_some h
  obtain ⟨hs, hreads⟩ := mem_runs_iff.mp (List.mem_of_find?_eq_some h)
  rw [hrest, List.append_nil] at hs
  rwa [hs]

/-- What can be read as a whole is matched as a whole, though maybe with other groups. -/
theorem exists_whole {r : Regex α} {s : List α} {g : List (List α)} (h : r.Reads s g) :
    ∃ a, r.whole s = some a := by
  have hmem : (⟨s, g, []⟩ : Found α) ∈ r.runs s :=
    mem_runs_iff.mpr ⟨(List.append_nil s).symm, h⟩
  exact Option.isSome_iff_exists.mp (List.find?_isSome.mpr ⟨_, hmem, rfl⟩)

/-! ### Searching -/

/-- The first place with a match, and the preferred match there. -/
def exec (r : Regex α) : List α → Option (Hit α)
  | [] => (r.runs []).head?.map fun a => { a with before := [] }
  | c :: s =>
    match (r.runs (c :: s)).head? with
    | some a => some { a with before := [] }
    | none => (r.exec s).map fun hit => { hit with before := c :: hit.before }

theorem exec_eq_some {r : Regex α} {s : List α} {hit : Hit α} (h : r.exec s = some hit) :
    s = hit.before ++ hit.text ++ hit.rest ∧ r.Reads hit.text hit.groups := by
  induction s generalizing hit with
  | nil =>
    obtain ⟨a, ha, rfl⟩ := Option.map_eq_some_iff.mp h
    exact mem_runs_iff.mp (List.mem_of_head? ha)
  | cons c s ih =>
    rw [exec] at h
    cases hruns : (r.runs (c :: s)).head? with
    | some a =>
      rw [hruns] at h
      obtain rfl := Option.some.inj h
      exact mem_runs_iff.mp (List.mem_of_head? hruns)
    | none =>
      rw [hruns] at h
      obtain ⟨later, hlater, rfl⟩ := Option.map_eq_some_iff.mp h
      obtain ⟨hs, hreads⟩ := ih hlater
      exact ⟨congrArg (c :: ·) hs, hreads⟩

theorem length_rest_lt {r : Regex α} (hr : 0 < r.least) {s : List α} {hit : Hit α}
    (h : r.exec s = some hit) : hit.rest.length < s.length := by
  obtain ⟨hs, hreads⟩ := exec_eq_some h
  have hlength := congrArg List.length hs
  have hleast := least_le_length hreads
  rw [List.length_append, List.length_append] at hlength
  omega

/-- What a loop over `exec` goes through: the matches, each with the text since the one before, and
the text after the last. -/
def scan (r : Regex α) (hr : 0 < r.least) (s : List α) : List (Hit α) × List α :=
  match _h : r.exec s with
  | none => ([], s)
  | some hit =>
    let later := r.scan hr hit.rest
    (hit :: later.1, later.2)
termination_by s.length
decreasing_by exact length_rest_lt hr _h

variable {r : Regex α}

/-- To prove something of a search, prove it of a text without a match, and of one with a match from
the text behind it. -/
theorem scan_induction (hr : 0 < r.least) {motive : List α → List (Hit α) → List α → Prop}
    (none : ∀ s, r.exec s = none → motive s [] s)
    (some : ∀ s hit hits last, r.exec s = some hit → motive hit.rest hits last →
      motive s (hit :: hits) last)
    (s : List α) : motive s (r.scan hr s).1 (r.scan hr s).2 := by
  induction s using scan.induct r hr with
  | case1 s h =>
    rw [scan]
    split
    · exact none s h
    · next hit hsome =>
      rw [h] at hsome
      cases hsome
  | case2 s hit h ih =>
    rw [scan]
    split
    · next hnone =>
      rw [h] at hnone
      cases hnone
    · next found hsome =>
      obtain rfl := Option.some.inj (h.symm.trans hsome)
      exact some s hit _ _ h ih

theorem scan_text (hr : 0 < r.least) (s : List α) :
    ((r.scan hr s).1.flatMap fun hit => hit.before ++ hit.text) ++ (r.scan hr s).2 = s := by
  refine scan_induction hr (motive := fun s hits last =>
    (hits.flatMap fun hit => hit.before ++ hit.text) ++ last = s) ?_ ?_ s
  · intro s _
    rfl
  · intro s hit hits last h ih
    rw [List.flatMap_cons, List.append_assoc, ih]
    exact (exec_eq_some h).1.symm

theorem scan_reads (hr : 0 < r.least) (s : List α) :
    ∀ hit ∈ (r.scan hr s).1, r.Reads hit.text hit.groups := by
  refine scan_induction hr (motive := fun _ hits _ => ∀ hit ∈ hits, r.Reads hit.text hit.groups)
    ?_ ?_ s
  · intro s _ hit hmem
    cases hmem
  · intro s hit hits last h ih
    exact List.forall_mem_cons.mpr ⟨(exec_eq_some h).2, ih⟩

/-- How often the loop can go round. -/
theorem least_mul_scan_le (hr : 0 < r.least) (s : List α) :
    r.least * (r.scan hr s).1.length ≤ s.length := by
  refine scan_induction hr (motive := fun s hits _ => r.least * hits.length ≤ s.length) ?_ ?_ s
  · intro s _
    exact Nat.zero_le _
  · intro s hit hits last h ih
    obtain ⟨hs, hreads⟩ := exec_eq_some h
    have hleast := least_le_length hreads
    rw [hs, List.length_cons, Nat.mul_succ, List.length_append, List.length_append]
    omega

/-! ### Replacing and splitting -/

/-- `s.replace(r, new)`, everywhere. -/
def replaceAll (r : Regex α) (hr : 0 < r.least) (new s : List α) : List α :=
  ((r.scan hr s).1.flatMap fun hit => hit.before ++ new) ++ (r.scan hr s).2

/-- `s.split(r)`. -/
def split (r : Regex α) (hr : 0 < r.least) (s : List α) : List (List α) :=
  (r.scan hr s).1.map (·.before) ++ [(r.scan hr s).2]

end Regex

/-- The second text is the first one without some characters, each of which satisfies `p`. -/
inductive Erases (p : α → Prop) : List α → List α → Prop
  | nil : Erases p [] []
  | keep (a : α) {s t : List α} : Erases p s t → Erases p (a :: s) (a :: t)
  | drop {a : α} {s t : List α} : p a → Erases p s t → Erases p (a :: s) t

/-- The text is the pieces in their order, with separators between them. -/
inductive Joined (sep : List α → Prop) : List (List α) → List α → Prop
  | last (s : List α) : Joined sep [s] s
  | cons (s : List α) {m : List α} {pieces : List (List α)} {rest : List α} :
      sep m → Joined sep pieces rest → Joined sep (s :: pieces) (s ++ m ++ rest)

variable {p : α → Prop} {sep : List α → Prop} {s s' t t' : List α}

theorem Erases.refl (s : List α) : Erases p s s := by
  induction s with
  | nil => exact nil
  | cons a s ih => exact keep a ih

theorem Erases.append (h : Erases p s t) (h' : Erases p s' t') :
    Erases p (s ++ s') (t ++ t') := by
  induction h with
  | nil => exact h'
  | keep a _ ih => exact keep a ih
  | drop ha _ ih => exact drop ha ih

theorem joined_intercalate (h : sep t) {pieces : List (List α)} (hne : pieces ≠ []) :
    Joined sep pieces (t.intercalate pieces) := by
  induction pieces with
  | nil => exact absurd rfl hne
  | cons s pieces ih =>
    cases pieces with
    | nil =>
      rw [List.intercalate_singleton]
      exact Joined.last s
    | cons s' pieces =>
      rw [List.intercalate_cons_cons]
      exact Joined.cons s h (ih (List.cons_ne_nil _ _))

namespace Regex

variable {r : Regex α} {hr : 0 < r.least}

/-- What replacing takes away is what it takes away from each match. -/
theorem erases_replaceAll {new : List α} (h : ∀ m g, r.Reads m g → Erases p m new) (s : List α) :
    Erases p s (r.replaceAll hr new s) := by
  refine scan_induction hr (motive := fun s hits last =>
    Erases p s ((hits.flatMap fun hit => hit.before ++ new) ++ last)) ?_ ?_ s
  · intro s _
    exact Erases.refl s
  · intro s hit hits last hexec ih
    obtain ⟨hs, hreads⟩ := exec_eq_some hexec
    rw [hs, List.flatMap_cons, List.append_assoc (hit.before ++ new)]
    exact ((Erases.refl _).append (h _ _ hreads)).append ih

theorem joined_split (h : ∀ m g, r.Reads m g → sep m) (s : List α) :
    Joined sep (r.split hr s) s := by
  refine scan_induction hr (motive := fun s hits last =>
    Joined sep (hits.map (·.before) ++ [last]) s) ?_ ?_ s
  · intro s _
    exact Joined.last s
  · intro s hit hits last hexec ih
    obtain ⟨hs, hreads⟩ := exec_eq_some hexec
    rw [hs]
    exact Joined.cons hit.before (h _ _ hreads) ih

end Regex

end Pattern
