import Mathlib.Algebra.GroupWithZero.Nat
import Mathlib.Data.List.Chain
import Mathlib.Data.List.DropRight
import Mathlib.Data.List.Infix
import Mathlib.Data.Rat.Defs

/-!
# Text, numbers and JSON as a JavaScript program sees them

Text is analysed as a list of code points, and as a list of UTF-16 code units where a program cuts
it. The definitions here are the built-in string operations the programs use, under their own names.

`toLowerCase` is exact on every code point whose lower case contains an ASCII character: the ASCII
letters, `U+0130` and `U+212A` (the Kelvin sign, which becomes `k`). The other code points have
lower cases outside ASCII and are left as they are: a pattern over ASCII rejects both forms, and a
text that is lower-cased to be compared is taken to have no capital outside ASCII.

## Main results

* `trim_eq_self`, `toLowerCase_eq_self` — text these operations leave alone
* `trim_toLowerCase`, `trim_idem`, `toLowerCase_idem` — doing both twice changes nothing more
* `exists_mem_splitOn` — splitting loses only separators
* `replaceRuns_replaceRuns`, `replaceRuns_append_cons`, `exists_of_replaceRuns_eq` — what replacing
  runs keeps, and where
* `isChain_replaceRuns` — no run is left
* `replaceRuns_eq_self_iff` — what it leaves alone
-/

namespace Js

/-! ### Characters -/

/-- White space and line terminators, which is what `trim` removes. -/
def isSpace (c : Char) : Bool :=
  c.toNat ∈ [9, 10, 11, 12, 13, 32, 160, 5760, 8232, 8233, 8239, 8287, 12288, 65279]
    || (8192 ≤ c.toNat && c.toNat ≤ 8202)

/-- `[0-9]`. -/
def isDigit (c : Char) : Bool := '0' ≤ c && c ≤ '9'

/-- `[a-z]`. -/
def isLowerAscii (c : Char) : Bool := 'a' ≤ c && c ≤ 'z'

/-- `[a-z0-9]`. -/
def isLowerAlnum (c : Char) : Bool := isLowerAscii c || isDigit c

/-- The lower case of one code point, where it has ASCII in it. -/
def lowerChar (c : Char) : List Char :=
  if 'A' ≤ c ∧ c ≤ 'Z' then [c.toLower]
  else if c = '\u0130' then ['i', '\u0307']
  else if c = '\u212A' then ['k']
  else [c]

/-! ### Text -/

/-- `s.trim()`. -/
def trim (s : List Char) : List Char := (s.dropWhile isSpace).rdropWhile isSpace

/-- `s.toLowerCase()`, as far as `lowerChar` goes. -/
def toLowerCase (s : List Char) : List Char := s.flatMap lowerChar

/-- `s.length`, which counts UTF-16 code units. -/
def length (s : List Char) : ℕ := (s.map fun c => if c.toNat < 65536 then 1 else 2).sum

/-- `s.slice(0, s.indexOf(c))` when `c` occurs, and `s` otherwise. -/
def upTo (c : Char) (s : List Char) : List Char := s.takeWhile fun d => d ≠ c

/-- `sub.includes`: `sub` occurs somewhere in `s`. -/
def includes (s sub : List Char) : Bool := s.tails.any fun t => sub.isPrefixOf t

/-- Each longest run of characters of `p` becomes the one character `c`. -/
def replaceRuns {α : Type*} (p : α → Bool) (c : α) (s : List α) : List α := from_ false s
where
  from_ : Bool → List α → List α
    | _, [] => []
    | inRun, a :: s =>
      if p a then if inRun then from_ true s else c :: from_ true s
      else a :: from_ false s

theorem trim_eq_self {s : List Char} (h : ∀ c ∈ s, isSpace c = false) : trim s = s := by
  have hd : s.dropWhile isSpace = s := by
    cases s with
    | nil => rfl
    | cons a s => simp [h a (List.mem_cons_self ..)]
  rw [trim, hd, List.rdropWhile_eq_self_iff]
  intro hne
  simp [h _ (List.getLast_mem hne)]

theorem isDigit_iff {c : Char} : isDigit c = true ↔ 48 ≤ c.toNat ∧ c.toNat ≤ 57 := by
  rw [isDigit, Bool.and_eq_true, decide_eq_true_eq, decide_eq_true_eq]
  exact Iff.rfl

theorem isLowerAscii_iff {c : Char} : isLowerAscii c = true ↔ 97 ≤ c.toNat ∧ c.toNat ≤ 122 := by
  rw [isLowerAscii, Bool.and_eq_true, decide_eq_true_eq, decide_eq_true_eq]
  exact Iff.rfl

/-- The sixteen digits are distinct. -/
theorem digitChar_inj : ∀ a < 16, ∀ b < 16, Nat.digitChar a = Nat.digitChar b → a = b := by
  decide

/-- Printable ASCII is no white space. -/
theorem isSpace_eq_false {c : Char} (h : 32 < c.toNat ∧ c.toNat < 128) : isSpace c = false := by
  simp only [isSpace, List.mem_cons, List.not_mem_nil, or_false, Bool.or_eq_false_iff,
    decide_eq_false_iff_not, Bool.and_eq_false_iff]
  omega

/-- ASCII that is no capital letter is its own lower case. -/
theorem lowerChar_eq_self {c : Char} (h : c.toNat < 128)
    (hupper : ¬ (65 ≤ c.toNat ∧ c.toNat ≤ 90)) :
    lowerChar c = [c] := by
  have hcapital : ¬ ('A' ≤ c ∧ c ≤ 'Z') := by
    rw [Char.le_def, Char.le_def, UInt32.le_iff_toNat_le, UInt32.le_iff_toNat_le]
    exact hupper
  have hdot : c ≠ '\u0130' := by
    rintro rfl
    revert h
    decide
  have hkelvin : c ≠ '\u212A' := by
    rintro rfl
    revert h
    decide
  rw [lowerChar, if_neg hcapital, if_neg hdot, if_neg hkelvin]

theorem toLowerCase_eq_self {s : List Char} (h : ∀ c ∈ s, lowerChar c = [c]) :
    toLowerCase s = s := by
  induction s with
  | nil => rfl
  | cons a s ih =>
    rw [toLowerCase, List.flatMap_cons, h a (List.mem_cons_self ..)]
    exact congrArg _ (ih fun c hc => h c (List.mem_cons_of_mem _ hc))

theorem toLowerCase_append (s t : List Char) :
    toLowerCase (s ++ t) = toLowerCase s ++ toLowerCase t := List.flatMap_append

theorem lowerChar_ne_nil (c : Char) : lowerChar c ≠ [] := by
  rw [lowerChar]
  split_ifs <;> simp

/-- What a character becomes in lower case is in lower case, and is white space when the character
is. -/
theorem lowerChar_of_mem {c d : Char} (hd : d ∈ lowerChar c) :
    lowerChar d = [d] ∧ isSpace d = isSpace c := by
  have hletters : ∀ n < 26,
      lowerChar (Char.ofNat (65 + n)).toLower = [(Char.ofNat (65 + n)).toLower]
        ∧ isSpace (Char.ofNat (65 + n)).toLower = isSpace (Char.ofNat (65 + n)) := by
    decide
  -- The two characters outside ASCII, checked on the letters they become.
  have hdecided : ∀ a : Char, ((lowerChar a).all fun d =>
      decide (lowerChar d = [d] ∧ isSpace d = isSpace a)) = true → d ∈ lowerChar a →
        lowerChar d = [d] ∧ isSpace d = isSpace a :=
    fun a hall hd => of_decide_eq_true (List.all_eq_true.mp hall d hd)
  by_cases hupper : 'A' ≤ c ∧ c ≤ 'Z'
  · have hlow : 65 ≤ c.toNat := hupper.1
    have hhigh : c.toNat ≤ 90 := hupper.2
    have hc : c = Char.ofNat (65 + (c.toNat - 65)) := by
      rw [show 65 + (c.toNat - 65) = c.toNat by omega, Char.ofNat_toNat]
    rw [lowerChar, if_pos hupper, List.mem_singleton] at hd
    rw [hd, hc]
    exact hletters _ (by omega)
  · by_cases hdotted : c = '\u0130'
    · subst hdotted
      exact hdecided _ (by decide) hd
    · by_cases hkelvin : c = '\u212A'
      · subst hkelvin
        exact hdecided _ (by decide) hd
      · have hself : lowerChar c = [c] := by
          rw [lowerChar, if_neg hupper, if_neg hdotted, if_neg hkelvin]
        rw [hself, List.mem_singleton] at hd
        rw [hd]
        exact ⟨hself, rfl⟩

theorem toLowerCase_idem (s : List Char) : toLowerCase (toLowerCase s) = toLowerCase s := by
  refine toLowerCase_eq_self fun d hd => ?_
  obtain ⟨c, -, hd⟩ := List.mem_flatMap.mp hd
  exact (lowerChar_of_mem hd).1

theorem dropWhile_isSpace_flatMap {f : Char → List Char} (hne : ∀ c, f c ≠ [])
    (hspace : ∀ c, ∀ d ∈ f c, isSpace d = isSpace c) (s : List Char) :
    (s.flatMap f).dropWhile isSpace = (s.dropWhile isSpace).flatMap f := by
  induction s with
  | nil => rfl
  | cons a s ih =>
    rw [List.flatMap_cons]
    by_cases ha : isSpace a = true
    · rw [List.dropWhile_append_of_pos fun d hd => (hspace a d hd).trans ha, ih,
        List.dropWhile_cons_of_pos ha]
    · obtain ⟨d, ds, hds⟩ := List.exists_cons_of_ne_nil (hne a)
      have hd : ¬ isSpace d = true := by
        rw [hspace a d (by rw [hds]; exact List.mem_cons_self ..)]
        exact ha
      rw [List.dropWhile_cons_of_neg ha, List.flatMap_cons, hds, List.cons_append,
        List.dropWhile_cons_of_neg hd]

/-- Trimming and lower-casing commute. -/
theorem trim_toLowerCase (s : List Char) : trim (toLowerCase s) = toLowerCase (trim s) := by
  have hspace : ∀ c, ∀ d ∈ lowerChar c, isSpace d = isSpace c := fun c d hd =>
    (lowerChar_of_mem hd).2
  have hright : ∀ t : List Char,
      (t.flatMap lowerChar).rdropWhile isSpace = (t.rdropWhile isSpace).flatMap lowerChar := by
    intro t
    have hrev : (t.reverse.flatMap (List.reverse ∘ lowerChar)).dropWhile isSpace
        = (t.reverse.dropWhile isSpace).flatMap (List.reverse ∘ lowerChar) :=
      dropWhile_isSpace_flatMap (fun c hc => lowerChar_ne_nil c (List.reverse_eq_nil_iff.mp hc))
        (fun c d hd => hspace c d (List.mem_reverse.mp hd)) _
    rw [List.rdropWhile, List.reverse_flatMap, hrev, List.reverse_flatMap, List.rdropWhile]
    simp [Function.comp_def]
  rw [trim, toLowerCase, dropWhile_isSpace_flatMap lowerChar_ne_nil hspace, hright]
  rfl

/-- Dropping at the back leaves nothing to drop in front. -/
theorem dropWhile_rdropWhile_dropWhile {α : Type*} (p : α → Bool) (s : List α) :
    ((s.dropWhile p).rdropWhile p).dropWhile p = (s.dropWhile p).rdropWhile p := by
  have hprefix : (s.dropWhile p).rdropWhile p <+: s.dropWhile p := List.rdropWhile_prefix _ _
  cases hkept : (s.dropWhile p).rdropWhile p with
  | nil => rfl
  | cons a t =>
    rw [hkept] at hprefix
    obtain ⟨r, hr⟩ := hprefix
    have ha : ¬ p a = true := by
      have := List.head_dropWhile_not p (l := s) (by rw [← hr]; simp)
      simpa [← hr] using this
    rw [List.dropWhile_cons_of_neg ha]

theorem trim_idem (s : List Char) : trim (trim s) = trim s := by
  rw [trim, trim, dropWhile_rdropWhile_dropWhile, List.rdropWhile_idempotent]

/-- Every character but the separators lies in one of the pieces. -/
theorem exists_mem_splitOn {s : List Char} {sep c : Char} (hc : c ∈ s) (hne : c ≠ sep) :
    ∃ piece ∈ s.splitOn sep, c ∈ piece := by
  induction s with
  | nil => exact absurd hc List.not_mem_nil
  | cons a s ih =>
    rw [List.splitOn_cons_eq_if_modifyHead]
    by_cases ha : a = sep
    · rcases List.mem_cons.mp hc with rfl | hc
      · exact absurd ha hne
      · obtain ⟨piece, hp, hcp⟩ := ih hc
        exact ⟨piece, by simp [ha, hp], hcp⟩
    · rw [if_neg (by simpa using ha)]
      cases hsplit : s.splitOn sep with
      | nil => exact absurd hsplit (List.splitOn_ne_nil _ _)
      | cons first rest =>
        rw [hsplit] at ih
        rcases List.mem_cons.mp hc with rfl | hc
        · exact ⟨c :: first, by simp, List.mem_cons_self ..⟩
        · obtain ⟨piece, hp, hcp⟩ := ih hc
          rcases List.mem_cons.mp hp with rfl | hp
          · exact ⟨a :: piece, by simp, List.mem_cons_of_mem _ hcp⟩
          · exact ⟨piece, by simp [hp], hcp⟩

theorem includes_iff {s sub : List Char} : includes s sub = true ↔ sub <:+: s := by
  rw [includes, List.any_eq_true, List.infix_iff_prefix_suffix]
  constructor
  · rintro ⟨t, ht, hp⟩
    exact ⟨t, List.isPrefixOf_iff_prefix.mp hp, (List.mem_tails _ _).mp ht⟩
  · rintro ⟨t, hp, hs⟩
    exact ⟨t, (List.mem_tails _ _).mpr hs, List.isPrefixOf_iff_prefix.mpr hp⟩

/-- What occurs in the first `n` places of a list ends there. -/
theorem infix_take_iff {α : Type*} {n : ℕ} {sub s : List α} :
    sub <:+: s.take n ↔ ∃ u v, s = u ++ sub ++ v ∧ u.length + sub.length ≤ n := by
  constructor
  · rintro ⟨u, v, h⟩
    refine ⟨u, v ++ s.drop n, ?_, ?_⟩
    · rw [← List.append_assoc, h, List.take_append_drop]
    · have hlength := congrArg List.length h
      simp only [List.length_append, List.length_take] at hlength
      omega
  · rintro ⟨u, v, rfl, hn⟩
    refine ⟨u, v.take (n - (u ++ sub).length), ?_⟩
    rw [List.take_append, List.take_of_length_le (l := u ++ sub) (by simpa using hn)]

theorem rdropWhile_append_cons {α : Type*} {p : α → Bool} {a : α} (ha : p a = false)
    (u v : List α) :
    (u ++ a :: v).rdropWhile p = u ++ a :: v.rdropWhile p := by
  induction v using List.reverseRecOn with
  | nil => rw [List.rdropWhile_concat_neg _ _ _ (by simp [ha]), List.rdropWhile_nil]
  | append_singleton v b ih =>
    rw [← List.cons_append, ← List.append_assoc, List.rdropWhile_concat, List.rdropWhile_concat, ih]
    split_ifs <;> simp

/-! ### Code units -/

/-- The UTF-16 code units of a text. -/
def units (s : List Char) : List UInt16 :=
  s.flatMap fun c =>
    if c.toNat < 65536 then [.ofNat c.toNat]
    else [.ofNat (55296 + (c.toNat - 65536) / 1024), .ofNat (56320 + (c.toNat - 65536) % 1024)]

/-- The text that is encoded for code units: half of a surrogate pair becomes the replacement
character. -/
def ofUnits : List UInt16 → List Char
  | [] => []
  | [u] => [single u]
  | u :: v :: s =>
    if isHigh u && isLow v then
      Char.ofNat (65536 + (u.toNat - 55296) * 1024 + (v.toNat - 56320)) :: ofUnits s
    else single u :: ofUnits (v :: s)
where
  isHigh (u : UInt16) : Bool := 55296 ≤ u.toNat && u.toNat < 56320
  isLow (u : UInt16) : Bool := 56320 ≤ u.toNat && u.toNat < 57344
  single (u : UInt16) : Char := if isHigh u || isLow u then '\uFFFD' else Char.ofNat u.toNat

/-- A cut between the halves of a pair. -/
example : ofUnits ((units ['a', Char.ofNat 128512]).take 2) = ['a', '\uFFFD'] := by decide

/-- All white space lies outside the pairs. -/
def isSpaceUnit (u : UInt16) : Bool := isSpace (Char.ofNat u.toNat)

/-- `s.trim()`. -/
def trimUnits (s : List UInt16) : List UInt16 := (s.dropWhile isSpaceUnit).rdropWhile isSpaceUnit

/-! ### Runs -/

section Runs

variable {α : Type*} {p q : α → Bool} {c : α} {s : List α}

theorem exists_replaceRuns_cons_of_pos {a : α} (ha : p a = true) (s : List α) :
    ∃ rest, replaceRuns p c (a :: s) = c :: rest := by
  simp [replaceRuns, replaceRuns.from_, ha]

theorem replaceRuns_cons_of_neg {a : α} (ha : p a = false) :
    replaceRuns p c (a :: s) = a :: replaceRuns p c s := by
  simp [replaceRuns, replaceRuns.from_, ha]

/-- A character that is kept separates what is before it from what is after. -/
theorem replaceRuns_append_cons {a : α} (ha : p a = false) (s t : List α) :
    replaceRuns p c (s ++ a :: t) = replaceRuns p c s ++ a :: replaceRuns p c t := by
  suffices h : ∀ inRun, replaceRuns.from_ p c inRun (s ++ a :: t)
      = replaceRuns.from_ p c inRun s ++ a :: replaceRuns p c t from h false
  induction s with
  | nil =>
    intro inRun
    simp [replaceRuns, replaceRuns.from_, ha]
  | cons b s ih =>
    intro inRun
    simp only [List.cons_append, replaceRuns.from_, ih]
    split_ifs <;> rfl

/-- A kept character of the result was there before. -/
theorem exists_of_replaceRuns_eq {a : α} (hac : a ≠ c) {u v : List α}
    (h : replaceRuns p c s = u ++ a :: v) :
    ∃ x y, s = x ++ a :: y ∧ replaceRuns p c x = u ∧ replaceRuns p c y = v := by
  suffices hrun : ∀ inRun u, replaceRuns.from_ p c inRun s = u ++ a :: v →
      ∃ x y, s = x ++ a :: y ∧ replaceRuns.from_ p c inRun x = u ∧ replaceRuns p c y = v from
    hrun false u h
  clear h u
  induction s with
  | nil =>
    intro inRun u h
    simp [replaceRuns.from_] at h
  | cons b s ih =>
    intro inRun u h
    simp only [replaceRuns.from_] at h
    split_ifs at h with hb hrun
    · obtain ⟨x, y, rfl, hx, hy⟩ := ih true u h
      exact ⟨b :: x, y, rfl, by simp [replaceRuns.from_, hb, hrun, hx], hy⟩
    · cases u with
      | nil => exact absurd (List.cons.inj h).1.symm hac
      | cons d u =>
        obtain ⟨rfl, htail⟩ := List.cons.inj h
        obtain ⟨x, y, rfl, hx, hy⟩ := ih true u htail
        exact ⟨b :: x, y, rfl, by simp [replaceRuns.from_, hb, hrun, hx], hy⟩
    · cases u with
      | nil =>
        obtain ⟨rfl, htail⟩ := List.cons.inj h
        exact ⟨[], s, rfl, rfl, htail⟩
      | cons d u =>
        obtain ⟨rfl, htail⟩ := List.cons.inj h
        obtain ⟨x, y, rfl, hx, hy⟩ := ih false u htail
        exact ⟨b :: x, y, rfl, by simp [replaceRuns.from_, hb, hx], hy⟩

theorem replaceRuns_eq_nil (h : replaceRuns p c s = []) : s = [] := by
  cases s with
  | nil => rfl
  | cons a s =>
    simp only [replaceRuns, replaceRuns.from_, Bool.false_eq_true, if_false] at h
    split_ifs at h

/-- Squeezing the replacement afterwards is replacing it with the rest. -/
theorem replaceRuns_replaceRuns [DecidableEq α] (p : α → Bool) (c : α) (s : List α) :
    replaceRuns (· = c) c (replaceRuns p c s) = replaceRuns (fun a => a = c || p a) c s := by
  -- in a run of `p` the last character written was `c`
  suffices h : ∀ inner outer, (inner = true → outer = true) →
      replaceRuns.from_ (· = c) c outer (replaceRuns.from_ p c inner s)
        = replaceRuns.from_ (fun a => a = c || p a) c outer s from h false false id
  induction s with
  | nil =>
    intro inner outer hruns
    rfl
  | cons a s ih =>
    intro inner outer hruns
    cases ha : p a with
    | true =>
      cases inner with
      | true => simp [replaceRuns.from_, ha, hruns rfl, ih true true (fun _ => rfl)]
      | false => cases outer <;> simp [replaceRuns.from_, ha, ih true true (fun _ => rfl)]
    | false =>
      by_cases hac : a = c
      · subst hac
        cases outer <;> simp [replaceRuns.from_, ha, ih false true (fun _ => rfl)]
      · simp [replaceRuns.from_, ha, hac, ih false false id]

/-- What is dropped from the front of the result comes from the front of the text. -/
theorem dropWhile_replaceRuns (hc : q c = true) (s : List α) :
    (replaceRuns p c s).dropWhile q = replaceRuns p c (s.dropWhile fun a => p a || q a) := by
  suffices h : ∀ inRun, (replaceRuns.from_ p c inRun s).dropWhile q
      = replaceRuns p c (s.dropWhile fun a => p a || q a) from h false
  induction s with
  | nil =>
    intro inRun
    rfl
  | cons a s ih =>
    intro inRun
    cases ha : p a with
    | true => cases inRun <;> simp [replaceRuns.from_, ha, hc, ih]
    | false =>
      cases hq : q a with
      | true => simp [replaceRuns.from_, ha, hq, ih]
      | false =>
        simp [replaceRuns.from_, ha, hq, replaceRuns_cons_of_neg ha]
        rfl

theorem mem_replaceRuns {a : α} (h : a ∈ replaceRuns p c s) : a = c ∨ a ∈ s ∧ p a = false := by
  suffices hrun : ∀ inRun, a ∈ replaceRuns.from_ p c inRun s → a = c ∨ a ∈ s ∧ p a = false from
    hrun false h
  clear h
  induction s with
  | nil =>
    intro inRun h
    simp [replaceRuns.from_] at h
  | cons b s ih =>
    intro inRun h
    have hrest : ∀ inRun, a ∈ replaceRuns.from_ p c inRun s → a = c ∨ a ∈ b :: s ∧ p a = false :=
      fun inRun h => (ih inRun h).imp_right fun hmem => ⟨List.mem_cons_of_mem _ hmem.1, hmem.2⟩
    rw [replaceRuns.from_] at h
    split_ifs at h with hb hrun
    · exact hrest _ h
    · rcases List.mem_cons.mp h with rfl | h
      · exact Or.inl rfl
      · exact hrest _ h
    · rcases List.mem_cons.mp h with rfl | h
      · exact Or.inr ⟨List.mem_cons_self .., by simpa using hb⟩
      · exact hrest _ h

/-- No run is left. -/
theorem isChain_replaceRuns (p : α → Bool) (c : α) (s : List α) :
    (replaceRuns p c s).IsChain fun a b => p a = false ∨ p b = false := by
  -- in a run the next character written is outside of it
  suffices h : ∀ inRun,
      (replaceRuns.from_ p c inRun s).IsChain (fun a b => p a = false ∨ p b = false) ∧
        (inRun = true → ∀ b ∈ (replaceRuns.from_ p c inRun s).head?, p b = false) from
    (h false).1
  induction s with
  | nil =>
    intro inRun
    simp [replaceRuns.from_]
  | cons a s ih =>
    intro inRun
    rw [replaceRuns.from_]
    split_ifs with ha hrun
    · exact ⟨(ih true).1, fun _ => (ih true).2 rfl⟩
    · exact ⟨List.isChain_cons.mpr ⟨fun b hb => Or.inr ((ih true).2 rfl b hb), (ih true).1⟩,
        fun h => absurd h hrun⟩
    · have hkept : p a = false := by simpa using ha
      refine ⟨List.isChain_cons.mpr ⟨fun b _ => Or.inl hkept, (ih false).1⟩, fun _ b hb => ?_⟩
      rw [List.head?_cons, Option.mem_some_iff] at hb
      rwa [← hb]

theorem eq_of_mem_replaceRuns {a : α} (h : a ∈ replaceRuns p c s) (ha : p a = true) : a = c := by
  refine (mem_replaceRuns h).resolve_right fun hkept => ?_
  rw [hkept.2] at ha
  cases ha

/-- What is left alone has no runs, and none but the replacement to replace. -/
theorem replaceRuns_eq_self_iff :
    replaceRuns p c s = s ↔
      s.IsChain (fun a b => p a = false ∨ p b = false) ∧ ∀ a ∈ s, p a = true → a = c := by
  constructor
  · intro h
    refine ⟨h ▸ isChain_replaceRuns p c s, fun a ha => ?_⟩
    rw [← h] at ha
    exact eq_of_mem_replaceRuns ha
  · rintro ⟨hchain, honly⟩
    suffices hrun : ∀ inRun, (inRun = true → ∀ b ∈ s.head?, p b = false) →
        replaceRuns.from_ p c inRun s = s from hrun false fun h => absurd h Bool.false_ne_true
    induction s with
    | nil =>
      intro inRun hhead
      rfl
    | cons a s ih =>
      intro inRun hhead
      obtain ⟨hnext, hchain⟩ := List.isChain_cons.mp hchain
      have hrest := ih hchain fun b hb => honly b (List.mem_cons_of_mem _ hb)
      rw [replaceRuns.from_]
      split_ifs with ha hin
      · rw [hhead hin a rfl] at ha
        cases ha
      · have hafter : ∀ b ∈ s.head?, p b = false := fun b hb =>
          (hnext b hb).resolve_left fun hkept => by rw [hkept] at ha; cases ha
        rw [hrest true fun _ => hafter, honly a (List.mem_cons_self ..) ha]
      · rw [hrest false fun h => absurd h Bool.false_ne_true]

/-- Replacing again changes nothing more. -/
theorem replaceRuns_idem (p : α → Bool) (c : α) (s : List α) :
    replaceRuns p c (replaceRuns p c s) = replaceRuns p c s :=
  replaceRuns_eq_self_iff.mpr ⟨isChain_replaceRuns p c s, fun _ => eq_of_mem_replaceRuns⟩

/-- What replacing leaves alone, it leaves alone in every part from the front. -/
theorem replaceRuns_of_isPrefix {u : List α} (h : replaceRuns p c s = s) (hu : u <+: s) :
    replaceRuns p c u = u := by
  obtain ⟨hchain, honly⟩ := replaceRuns_eq_self_iff.mp h
  obtain ⟨t, rfl⟩ := hu
  exact replaceRuns_eq_self_iff.mpr ⟨hchain.left_of_append, fun a ha =>
    honly a (List.mem_append_left _ ha)⟩

end Runs

/-! ### Numbers and JSON -/

/-- A number value. Fractions are exact; the non-finite values are told apart. -/
inductive Number where
  | finite (q : ℚ)
  | infinite (negative : Bool)
  | nan
deriving DecidableEq

/-- `Math.round(q)`: the nearest whole number, ties upwards. -/
def round (q : ℚ) : ℤ := (q + 1 / 2).floor

/-- `q.toFixed(1)` for `0 ≤ q < 10 ^ 21`. -/
def toFixed1 (q : ℚ) : String :=
  let tenths := round (q * 10)
  toString (tenths / 10) ++ "." ++ toString (tenths % 10)

/-- A value `JSON.parse` can return. -/
inductive Json where
  | null
  | bool (b : Bool)
  | num (n : Number)
  | str (s : String)
  | arr (items : List Json)
  | obj (fields : List (String × Json))

/-- A value `JSON.parse` can return, its texts as code units: half of a surrogate pair can stand in
one. -/
inductive UnitJson where
  | null
  | bool (b : Bool)
  | num (n : Number)
  | str (s : List UInt16)
  | arr (items : List UnitJson)
  | obj (fields : List (List UInt16 × UnitJson))

namespace UnitJson

/-- Property access with optional chaining. -/
def get? : UnitJson → List UInt16 → Option UnitJson
  | .obj fields, key => fields.lookup key
  | _, _ => none

/-- The value when `typeof v === 'string'`. -/
def string? : UnitJson → Option (List UInt16)
  | .str s => some s
  | _ => none

end UnitJson

namespace Json

/-- Property access with optional chaining: absent for anything that has no such property. -/
def get? : Json → String → Option Json
  | .obj fields, key => fields.lookup key
  | _, _ => none

/-- Index access `v?.[i]`. -/
def at? : Json → ℕ → Option Json
  | .arr items, i => items[i]?
  | .str s, i => s.toList[i]?.map fun c => .str (String.ofList [c])
  | .obj fields, i => fields.lookup (toString i)
  | _, _ => none

/-- The property `v[key]` of an object or array, own properties only: what either inherits is
neither text nor a truth value. -/
def prop? : Json → String → Option Json
  | .obj fields, key => fields.lookup key
  | .arr items, key => ((List.range items.length).find? fun i => toString i = key).bind (items[·]?)
  | _, _ => none

/-- The value when `typeof v === 'string'`. -/
def string? : Json → Option String
  | .str s => some s
  | _ => none

/-- Whether the value counts as true in a condition. -/
def truthy : Json → Bool
  | .null => false
  | .bool b => b
  | .num (.finite q) => q ≠ 0
  | .num (.infinite _) => true
  | .num .nan => false
  | .str s => s ≠ ""
  | .arr _ => true
  | .obj _ => true

/-- The text `join` makes of an element, given how the runtime prints finite numbers. -/
def display (numberText : ℚ → String) : Json → String
  | .null => ""
  | .bool b => toString b
  | .num (.finite q) => numberText q
  | .num (.infinite negative) => if negative then "-Infinity" else "Infinity"
  | .num .nan => "NaN"
  | .str s => s
  | .arr items => displayItems numberText items
  | .obj _ => "[object Object]"
where
  displayItems (numberText : ℚ → String) : List Json → String
    | [] => ""
    | [v] => v.display numberText
    | v :: w :: rest => v.display numberText ++ "," ++ displayItems numberText (w :: rest)

end Json

end Js
