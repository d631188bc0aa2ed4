import LampLight.Foundation.JsDate
import LampLight.Foundation.JsText
import Mathlib.Algebra.Order.Field.Power
import Mathlib.Data.Int.Log
import Mathlib.Data.Rat.Floor
import Mathlib.Tactic.FieldSimp
import Mathlib.Tactic.Linarith
import Mathlib.Tactic.NormNum
import Mathlib.Tactic.Positivity
import Mathlib.Tactic.Push
import Mathlib.Tactic.Ring

/-!
# Doubles, and the texts numbers are read from

The result of an arithmetic operation and the value of a decimal literal are rounded to the nearest
double, and `parseFloat` reads the longest decimal literal at the front of a text. Zero has one
sign here.

## Main definitions

* `toDouble` — the nearest double, ties to the even one
* `parseFloat`
* `thousandthsText` — how a number of thousandths is printed

## Main results

* `toDouble_error`, `toDouble_intCast` — how far a double is off, and where it is exact
* `parseFloat_thousandthsText` — a number of thousandths is read as it is printed
* `padStart_toDigits` — two hexadecimal digits
-/

namespace Js

/-! ### Doubles -/

/-- The nearest whole number, ties to the even one. -/
def roundTiesEven (q : ℚ) : ℤ :=
  if 2 * Int.fract q < 1 ∨ 2 * Int.fract q = 1 ∧ ⌊q⌋ % 2 = 0 then ⌊q⌋ else ⌊q⌋ + 1

/-- The distance of doubles around a number. -/
def ulp (q : ℚ) : ℚ := 2 ^ max (Int.log 2 |q| - 52) (-1074)

/-- The nearest double, as if exponents had no upper bound. -/
def toDouble (q : ℚ) : ℚ := roundTiesEven (q / ulp q) * ulp q

/-- The value of a number beyond the largest double is infinite. -/
def Number.ofRat (q : ℚ) : Number :=
  if 2 ^ 1024 ≤ |toDouble q| then .infinite (q < 0) else .finite (toDouble q)

variable {q : ℚ}

theorem roundTiesEven_error (q : ℚ) : |(roundTiesEven q : ℚ) - q| ≤ 1 / 2 := by
  have hsum := Int.floor_add_fract q
  have hnonneg := Int.fract_nonneg q
  have hlt := Int.fract_lt_one q
  rw [roundTiesEven]
  split_ifs with hdown
  · have hhalf : 2 * Int.fract q ≤ 1 := by
      rcases hdown with h | ⟨h, -⟩ <;> linarith
    rw [abs_le]
    constructor <;> linarith
  · push Not at hdown
    push_cast
    rw [abs_le]
    constructor <;> linarith [hdown.1]

@[simp] theorem roundTiesEven_intCast (n : ℤ) : roundTiesEven n = n := by
  simp [roundTiesEven]

theorem roundTiesEven_nonneg (h : 0 ≤ q) : 0 ≤ roundTiesEven q := by
  have hfloor : 0 ≤ ⌊q⌋ := Int.floor_nonneg.mpr h
  rw [roundTiesEven]
  split_ifs <;> omega

theorem ulp_pos (q : ℚ) : 0 < ulp q := zpow_pos (by norm_num) _

theorem toDouble_error_ulp (q : ℚ) : |toDouble q - q| ≤ ulp q / 2 := by
  have hpos := ulp_pos q
  have hscaled : toDouble q - q = (roundTiesEven (q / ulp q) - q / ulp q) * ulp q := by
    rw [sub_mul, div_mul_cancel₀ q hpos.ne', toDouble]
  rw [hscaled, abs_mul, abs_of_pos hpos]
  calc |(roundTiesEven (q / ulp q) : ℚ) - q / ulp q| * ulp q
      ≤ 1 / 2 * ulp q := mul_le_mul_of_nonneg_right (roundTiesEven_error _) hpos.le
    _ = ulp q / 2 := by ring

theorem toDouble_nonneg (h : 0 ≤ q) : 0 ≤ toDouble q :=
  mul_nonneg (Int.cast_nonneg (roundTiesEven_nonneg (div_nonneg h (ulp_pos q).le)))
    (ulp_pos q).le

/-- A number below a power of two has a logarithm below its exponent. -/
theorem log_abs_lt {k : ℤ} (hk : 0 < k) (h : |q| < 2 ^ k) : Int.log 2 |q| < k := by
  rcases eq_or_ne q 0 with rfl | hq
  · simpa using hk
  · have h2 : |q| < ((2 : ℕ) : ℚ) ^ k := by exact_mod_cast h
    exact (Int.lt_zpow_iff_log_lt (by norm_num) (abs_pos.mpr hq)).mp h2

/-- Numbers of a few thousand are off by less than a millionth. -/
theorem toDouble_error (h : |q| < 4096) : |toDouble q - q| ≤ 1 / 1000000 := by
  have hlog : Int.log 2 |q| < 12 := log_abs_lt (by norm_num) (by norm_num; exact h)
  have hulp : ulp q ≤ 2 ^ (-41 : ℤ) :=
    zpow_le_zpow_right₀ (by norm_num) (by omega)
  calc |toDouble q - q| ≤ ulp q / 2 := toDouble_error_ulp q
    _ ≤ 2 ^ (-41 : ℤ) / 2 := div_le_div_of_nonneg_right hulp (by norm_num)
    _ ≤ 1 / 1000000 := by norm_num

/-- Whole numbers below `2 ^ 53` are doubles. -/
theorem toDouble_intCast {n : ℤ} (h : |(n : ℚ)| < 2 ^ 53) : toDouble n = n := by
  have hlog : Int.log 2 |(n : ℚ)| < 53 := log_abs_lt (by norm_num) (by exact_mod_cast h)
  obtain ⟨k, hk⟩ : ∃ k : ℕ, max (Int.log 2 |(n : ℚ)| - 52) (-1074) = -(k : ℤ) :=
    ⟨(-max (Int.log 2 |(n : ℚ)| - 52) (-1074)).toNat, by omega⟩
  have hulp : ulp n = ((2 : ℚ) ^ k)⁻¹ := by rw [ulp, hk, zpow_neg, zpow_natCast]
  have hwhole : (n : ℚ) / ((2 : ℚ) ^ k)⁻¹ = ((n * 2 ^ k : ℤ) : ℚ) := by
    rw [div_inv_eq_mul]
    push_cast
    rfl
  rw [toDouble, hulp, hwhole, roundTiesEven_intCast]
  push_cast
  rw [mul_assoc, mul_inv_cancel₀ (by positivity), mul_one]

/-! ### Decimal literals -/

/-- What a decimal digit stands for. -/
def digitValue (c : Char) : ℕ := c.toNat - 48

/-- What decimal digits stand for. -/
def digitsValue (ds : List Char) : ℕ := ds.foldl (fun n c => 10 * n + digitValue c) 0

/-- The value of the digits before and after a point. -/
def decimal (whole frac : List Char) : ℚ := digitsValue whole + digitsValue frac / 10 ^ frac.length

/-- Digits with a point between them, if any come after it. -/
def decimalText (whole frac : List Char) : List Char :=
  whole ++ if frac = [] then [] else '.' :: frac

/-- A sign, and what comes after it. -/
def readSign : List Char → Bool × List Char
  | '-' :: s => (true, s)
  | '+' :: s => (false, s)
  | s => (false, s)

/-- The exponent at the front of a text, 0 when there is none. -/
def readExponent : List Char → ℤ
  | [] => 0
  | c :: s =>
    if c = 'e' ∨ c = 'E' then
      let (negative, s) := readSign s
      let exponent : ℤ := digitsValue (s.takeWhile isDigit)
      if negative then -exponent else exponent
    else 0

/-- The value of the decimal literal at the front of a text, when there is one. -/
def readDecimal (s : List Char) : Option ℚ :=
  let whole := s.takeWhile isDigit
  let rest := s.dropWhile isDigit
  let fraction := if rest.head? = some '.' then rest.tail else []
  let frac := fraction.takeWhile isDigit
  let rest := if rest.head? = some '.' then fraction.dropWhile isDigit else rest
  if whole = [] ∧ frac = [] then none else some (decimal whole frac * 10 ^ readExponent rest)

/-- `Number.parseFloat(s)`. -/
def parseFloat (s : List Char) : Number :=
  let (negative, s) := readSign (s.dropWhile isSpace)
  if "Infinity".toList.isPrefixOf s then .infinite negative
  else
    match readDecimal s with
    | none => .nan
    | some q => .ofRat (if negative then -q else q)

section Decimal

variable {whole frac : List Char}

theorem digitsValue_append (a b : List Char) :
    digitsValue (a ++ b) = digitsValue a * 10 ^ b.length + digitsValue b := by
  induction b using List.reverseRecOn with
  | nil => simp [digitsValue]
  | append_singleton b c ih =>
    have hconcat : ∀ ds : List Char, digitsValue (ds ++ [c]) = 10 * digitsValue ds + digitValue c :=
      fun ds => by simp [digitsValue]
    rw [← List.append_assoc, hconcat, hconcat, ih, List.length_append, List.length_singleton,
      pow_succ]
    ring

theorem digitsValue_singleton_digitChar : ∀ d < 10, digitsValue [Nat.digitChar d] = d := by
  decide

theorem isDigit_digitChar : ∀ d < 10, isDigit (Nat.digitChar d) = true := by
  decide

theorem digitsValue_toDigits (n : ℕ) : digitsValue (Nat.toDigits 10 n) = n := by
  induction n using Nat.strong_induction_on with
  | _ n ih =>
    by_cases h : n < 10
    · rw [Nat.toDigits_of_lt_base h, digitsValue_singleton_digitChar n h]
    · rw [Nat.toDigits_of_base_le (by omega) (by omega), digitsValue_append,
        ih (n / 10) (by omega), digitsValue_singleton_digitChar _ (by omega), List.length_singleton]
      omega

theorem isDigit_toDigits (n : ℕ) : ∀ c ∈ Nat.toDigits 10 n, isDigit c = true := by
  induction n using Nat.strong_induction_on with
  | _ n ih =>
    by_cases h : n < 10
    · rw [Nat.toDigits_of_lt_base h]
      intro c hc
      rw [List.mem_singleton.mp hc]
      exact isDigit_digitChar n h
    · rw [Nat.toDigits_of_base_le (by omega) (by omega)]
      intro c hc
      rcases List.mem_append.mp hc with hc | hc
      · exact ih (n / 10) (by omega) c hc
      · rw [List.mem_singleton.mp hc]
        exact isDigit_digitChar _ (by omega)

theorem digitsValue_padDigits {k n : ℕ} (h : n < 10 ^ k) : digitsValue (padDigits k n) = n := by
  induction k generalizing n with
  | zero =>
    obtain rfl : n = 0 := by omega
    rfl
  | succ k ih =>
    rw [padDigits, digitsValue_append, ih (by rw [pow_succ] at h; omega),
      digitsValue_singleton_digitChar _ (by omega), List.length_singleton]
    omega

theorem isDigit_padDigits (k n : ℕ) : ∀ c ∈ padDigits k n, isDigit c = true := by
  induction k generalizing n with
  | zero => simp [padDigits]
  | succ k ih =>
    intro c hc
    rcases List.mem_append.mp hc with hc | hc
    · exact ih (n / 10) c hc
    · rw [List.mem_singleton.mp hc]
      exact isDigit_digitChar _ (by omega)

/-- Zeros at the end of the digits after the point do not count. -/
theorem decimal_rdropWhile (whole frac : List Char) :
    decimal whole (frac.rdropWhile (· = '0')) = decimal whole frac := by
  induction frac using List.reverseRecOn with
  | nil => rfl
  | append_singleton frac c ih =>
    by_cases hc : c = '0'
    · subst hc
      rw [List.rdropWhile_concat_pos _ _ _ (by simp), ih, decimal, decimal, digitsValue_append,
        List.length_append, List.length_singleton, pow_succ]
      have hzero : digitsValue ['0'] = 0 := rfl
      rw [hzero]
      push_cast
      field_simp
      ring
    · rw [List.rdropWhile_concat_neg _ _ _ (by simpa using hc)]

theorem readSign_of_isDigit {c : Char} (hc : isDigit c = true) (s : List Char) :
    readSign (c :: s) = (false, c :: s) := by
  rw [readSign.eq_def]
  split
  · next heq =>
    rw [(List.cons.inj heq).1] at hc
    exact absurd hc (by decide)
  · next heq =>
    rw [(List.cons.inj heq).1] at hc
    exact absurd hc (by decide)
  · rfl

theorem isSpace_of_isDigit {c : Char} (hc : isDigit c = true) : isSpace c = false := by
  have hrange := isDigit_iff.mp hc
  exact isSpace_eq_false (by omega)

theorem readDecimal_decimalText (hne : whole ≠ []) (hwhole : ∀ c ∈ whole, isDigit c = true)
    (hfrac : ∀ c ∈ frac, isDigit c = true) :
    readDecimal (decimalText whole frac) = some (decimal whole frac) := by
  by_cases h : frac = []
  · subst h
    have hall : decimalText whole [] = whole := List.append_nil _
    have htake : whole.takeWhile isDigit = whole := List.takeWhile_eq_self_iff.mpr hwhole
    have hdrop : whole.dropWhile isDigit = [] := List.dropWhile_eq_nil_iff.mpr hwhole
    simp [readDecimal, hall, htake, hdrop, hne, readExponent]
  · have hall : decimalText whole frac = whole ++ '.' :: frac := by rw [decimalText, if_neg h]
    have hpoint : isDigit '.' = false := rfl
    have htake : (whole ++ '.' :: frac).takeWhile isDigit = whole := by
      rw [List.takeWhile_append_of_pos hwhole]
      simp [hpoint]
    have hdrop : (whole ++ '.' :: frac).dropWhile isDigit = '.' :: frac := by
      rw [List.dropWhile_append_of_pos hwhole]
      simp [hpoint]
    have htake' : frac.takeWhile isDigit = frac := List.takeWhile_eq_self_iff.mpr hfrac
    have hdrop' : frac.dropWhile isDigit = [] := List.dropWhile_eq_nil_iff.mpr hfrac
    simp [readDecimal, hall, htake, hdrop, htake', hdrop', hne, readExponent]

/-- A decimal text is read whole. -/
theorem parseFloat_decimalText (hne : whole ≠ []) (hwhole : ∀ c ∈ whole, isDigit c = true)
    (hfrac : ∀ c ∈ frac, isDigit c = true) :
    parseFloat (decimalText whole frac) = .ofRat (decimal whole frac) := by
  have hread := readDecimal_decimalText hne hwhole hfrac
  obtain ⟨c, w, rfl⟩ := List.exists_cons_of_ne_nil hne
  have hc : isDigit c = true := hwhole c (List.mem_cons_self ..)
  obtain ⟨rest, htext⟩ : ∃ rest, decimalText (c :: w) frac = c :: rest := ⟨_, rfl⟩
  rw [htext] at hread ⊢
  have htrim : (c :: rest).dropWhile isSpace = c :: rest :=
    List.dropWhile_cons_of_neg (by simp [isSpace_of_isDigit hc])
  have hinfinity : "Infinity".toList.isPrefixOf (c :: rest) = false := by
    refine Bool.eq_false_iff.mpr fun hprefix => ?_
    obtain ⟨t, ht⟩ := List.isPrefixOf_iff_prefix.mp hprefix
    rw [← (List.cons.inj ht).1] at hc
    exact absurd hc (by decide)
  rw [parseFloat, htrim, readSign_of_isDigit hc]
  simp only [hinfinity, hread, Bool.false_eq_true, if_false]

end Decimal

/-! ### Thousandths -/

/-- The text of the double nearest to `n / 1000`: the shortest decimal that is read as that double
has no more than three digits after the point, as long as there are few before it. -/
def thousandthsText (n : ℕ) : List Char :=
  decimalText (Nat.toDigits 10 (n / 1000)) ((padDigits 3 (n % 1000)).rdropWhile (· = '0'))

theorem decimal_thousandths (n : ℕ) :
    decimal (Nat.toDigits 10 (n / 1000)) ((padDigits 3 (n % 1000)).rdropWhile (· = '0'))
      = (n : ℚ) / 1000 := by
  have hn : ((n / 1000 : ℕ) : ℚ) * 1000 + ((n % 1000 : ℕ) : ℚ) = n := by
    exact_mod_cast Nat.div_add_mod' n 1000
  rw [decimal_rdropWhile, decimal, digitsValue_toDigits, digitsValue_padDigits (by omega),
    padDigits_length, ← hn]
  field_simp
  ring

theorem isDigit_rdropWhile_padDigits (k n : ℕ) :
    ∀ c ∈ (padDigits k n).rdropWhile (· = '0'), isDigit c = true :=
  fun c hc => isDigit_padDigits k n c ((List.rdropWhile_prefix _ _).subset hc)

/-- Thousandths are read as they are printed. -/
theorem parseFloat_thousandthsText (n : ℕ) :
    parseFloat (thousandthsText n) = .ofRat (n / 1000) := by
  rw [thousandthsText, parseFloat_decimalText Nat.toDigits_ne_nil (isDigit_toDigits _)
    (isDigit_rdropWhile_padDigits 3 _), decimal_thousandths]

/-! ### Hexadecimal -/

/-- `[0-9a-fA-F]`. -/
def isHexDigit (c : Char) : Bool :=
  isDigit c || ('a' ≤ c && c ≤ 'f') || ('A' ≤ c && c ≤ 'F')

/-- `[0-9a-f]`. -/
def isLowerHex (c : Char) : Bool := isDigit c || ('a' ≤ c && c ≤ 'f')

/-- What a hexadecimal digit stands for. -/
def hexValue (c : Char) : ℕ :=
  if isDigit c then c.toNat - 48 else if 'a' ≤ c then c.toNat - 87 else c.toNat - 55

/-- `Number.parseInt(s, 16)` of hexadecimal digits. -/
def parseHex (ds : List Char) : ℕ := ds.foldl (fun n c => 16 * n + hexValue c) 0

theorem hexValue_digitChar : ∀ d < 16, hexValue (Nat.digitChar d) = d := by
  decide

theorem isLowerHex_digitChar : ∀ d < 16, isLowerHex (Nat.digitChar d) = true := by
  decide

theorem isHexDigit_of_isLowerHex {c : Char} (h : isLowerHex c = true) : isHexDigit c = true := by
  rw [isHexDigit]
  rw [show (isDigit c || ('a' ≤ c && c ≤ 'f')) = true from h, Bool.true_or]

theorem toNat_of_isHexDigit {c : Char} (h : isHexDigit c = true) :
    (48 ≤ c.toNat ∧ c.toNat ≤ 57) ∨ (97 ≤ c.toNat ∧ c.toNat ≤ 102) ∨
      (65 ≤ c.toNat ∧ c.toNat ≤ 70) := by
  simp only [isHexDigit, Bool.or_eq_true, Bool.and_eq_true, decide_eq_true_eq] at h
  rcases h with (h | h) | h
  · exact Or.inl (isDigit_iff.mp h)
  · exact Or.inr (Or.inl h)
  · exact Or.inr (Or.inr h)

theorem hexValue_lt {c : Char} (h : isHexDigit c = true) : hexValue c < 16 := by
  have hrange := toNat_of_isHexDigit h
  have hlower : 'a' ≤ c ↔ 97 ≤ c.toNat := Iff.rfl
  simp only [hexValue, isDigit_iff, hlower]
  split_ifs <;> omega

/-- Two hexadecimal digits are read as a number below 256. -/
theorem parseHex_lt {a b : Char} (ha : isHexDigit a = true) (hb : isHexDigit b = true) :
    parseHex [a, b] < 256 := by
  have hlow := hexValue_lt ha
  have hhigh := hexValue_lt hb
  simp only [parseHex, List.foldl_cons, List.foldl_nil]
  omega

/-- `n.toString(16).padStart(2, '0')`. -/
theorem padStart_toDigits {n : ℕ} (h : n < 256) :
    (Nat.toDigits 16 n).leftpad 2 '0' = [Nat.digitChar (n / 16), Nat.digitChar (n % 16)] := by
  by_cases hn : n < 16
  · rw [Nat.toDigits_of_lt_base hn, Nat.div_eq_of_lt hn, Nat.mod_eq_of_lt hn]
    rfl
  · rw [Nat.toDigits_of_base_le (by omega) (by omega),
      Nat.toDigits_of_lt_base (show n / 16 < 16 by omega)]
    rfl

end Js
