import LampLight.Theme.Tokens

/-!
# The stylesheet of any stored theme

Whatever is stored, every token has a value that was printed by this program: a colour by `toHex`,
which rounds into two digits a channel, or a radius in thousandths. So the check on the generated
text never fails, and the text reads as one block with a declaration for each token.

## Main definitions

* `IsHexColor`, `IsRem` — what the values look like
* `TokenSheet` — the text declares these values

## Main results

* `wellPrinted_resolveTokens` — the values of any theme
* `themeCss_parseTheme` — the stylesheet of whatever is stored
-/

namespace LampLight

open Js

/-! ### Values -/

/-- `#` and six lower-case hexadecimal digits. -/
def IsHexColor (s : List Char) : Prop :=
  ∃ digits, s = '#' :: digits ∧ digits.length = 6 ∧ ∀ c ∈ digits, isLowerHex c = true

/-- A decimal number: digits, and a point with digits after it or neither. -/
def IsDecimal (s : List Char) (q : ℚ) : Prop :=
  ∃ whole frac, whole ≠ [] ∧ (∀ c ∈ whole ++ frac, isDigit c = true) ∧
    s = decimalText whole frac ∧ q = decimal whole frac

/-- A decimal number between 0 and 2, and `rem`. -/
def IsRem (s : List Char) : Prop :=
  ∃ text q, s = text ++ "rem".toList ∧ IsDecimal text q ∧ 0 ≤ q ∧ q ≤ 2

/-! ### Colours -/

theorem length_eq_of_lt {s : List Char} (h : ∀ c ∈ s, c.toNat < 65536) :
    Js.length s = s.length := by
  have hones : s.map (fun c => if c.toNat < 65536 then 1 else 2) = s.map fun _ => 1 :=
    List.map_congr_left fun c hc => if_pos (h c hc)
  rw [Js.length, hones]
  simp

theorem length_hash {digits : List Char} (h : ∀ c ∈ digits, isHexDigit c = true) :
    Js.length ('#' :: digits) = digits.length + 1 := by
  refine length_eq_of_lt fun c hc => ?_
  rcases List.mem_cons.mp hc with rfl | hc
  · decide
  · have := toNat_of_isHexDigit (h c hc)
    omega

/-- The digits of a colour, with three of them doubled. -/
theorem HEX_digits {s : List Char} (h : HEX s = true) :
    ∃ a b c d e f, (∀ x ∈ [a, b, c, d, e, f], isHexDigit x = true) ∧
      (if Js.length s = 4 then s.tail.flatMap fun digit => [digit, digit] else s.tail)
        = [a, b, c, d, e, f] := by
  rw [HEX.eq_def] at h
  split at h
  · next digits =>
    simp only [Bool.and_eq_true, Bool.or_eq_true, decide_eq_true_eq, List.all_eq_true] at h
    obtain ⟨hcount, hdigits⟩ := h
    rw [length_hash hdigits, List.tail_cons]
    rcases hcount with h3 | h6
    · match digits, h3 with
      | [a, b, c], _ => exact ⟨a, a, b, b, c, c, by simpa using hdigits, rfl⟩
    · match digits, h6 with
      | [a, b, c, d, e, f], _ => exact ⟨a, b, c, d, e, f, hdigits, rfl⟩
  · cases h

/-- What is read as a colour has whole channels below 256. -/
theorem parseColor_eq_some {value : Option Json} {color : Rgb} (h : parseColor value = some color) :
    ∃ r g b : ℕ, r < 256 ∧ g < 256 ∧ b < 256 ∧ color = ⟨r, g, b⟩ := by
  rw [parseColor.eq_def] at h
  split at h
  · next text =>
    dsimp only at h
    by_cases hhex : HEX (trim text.toList) = true
    · obtain ⟨a, b, c, d, e, f, hdigits, hsix⟩ := HEX_digits hhex
      simp only [List.forall_mem_cons] at hdigits
      obtain ⟨ha, hb, hc, hd, he, hf, -⟩ := hdigits
      rw [if_pos hhex, hsix] at h
      exact ⟨_, _, _, parseHex_lt ha hb, parseHex_lt hc hd, parseHex_lt he hf,
        (Option.some.inj h).symm⟩
    · rw [if_neg hhex] at h
      cases h
  · cases h

/-- Every channel rounds to one below 256. -/
def Rgb.InRange (color : Rgb) : Prop :=
  ∀ value ∈ [color.r, color.g, color.b], 0 ≤ Js.round value ∧ Js.round value ≤ 255

theorem round_mem_Icc {value : ℚ} (h : 0 ≤ value) (h' : value ≤ 255) :
    0 ≤ Js.round value ∧ Js.round value ≤ 255 := by
  have hlow : 0 ≤ ⌊value + 1 / 2⌋ := Int.floor_nonneg.mpr (by linarith)
  have hhigh : ⌊value + 1 / 2⌋ < 256 := Int.floor_lt.mpr (by push_cast; linarith)
  show 0 ≤ ⌊value + 1 / 2⌋ ∧ ⌊value + 1 / 2⌋ ≤ 255
  omega

/-- A mixture of two colours needs no cutting off. -/
theorem inRange_mix {v w : Option Json} {first second : Rgb} {amount : ℚ}
    (hfirst : parseColor v = some first) (hsecond : parseColor w = some second)
    (h : 0 ≤ amount) (h' : amount ≤ 1) : (mix first second amount).InRange := by
  have hchannel : ∀ m n : ℕ, m < 256 → n < 256 → 0 ≤ (m : ℚ) + (n - m) * amount ∧
      (m : ℚ) + (n - m) * amount ≤ 255 := by
    intro m n hm hn
    have hm' : (m : ℚ) ≤ 255 := by exact_mod_cast Nat.le_of_lt_succ hm
    have hn' : (n : ℚ) ≤ 255 := by exact_mod_cast Nat.le_of_lt_succ hn
    have hconvex : (m : ℚ) + (n - m) * amount = m * (1 - amount) + n * amount := by ring
    rw [hconvex]
    constructor
    · exact add_nonneg (mul_nonneg (Nat.cast_nonneg m) (by linarith))
        (mul_nonneg (Nat.cast_nonneg n) h)
    · calc (m : ℚ) * (1 - amount) + n * amount
          ≤ 255 * (1 - amount) + 255 * amount :=
            add_le_add (mul_le_mul_of_nonneg_right hm' (by linarith))
              (mul_le_mul_of_nonneg_right hn' h)
        _ = 255 := by ring
  obtain ⟨r, g, b, hr, hg, hb, rfl⟩ := parseColor_eq_some hfirst
  obtain ⟨r', g', b', hr', hg', hb', rfl⟩ := parseColor_eq_some hsecond
  intro value hvalue
  simp only [mix, List.mem_cons, List.not_mem_nil, or_false] at hvalue
  rcases hvalue with rfl | rfl | rfl
  · exact round_mem_Icc (hchannel r r' hr hr').1 (hchannel r r' hr hr').2
  · exact round_mem_Icc (hchannel g g' hg hg').1 (hchannel g g' hg hg').2
  · exact round_mem_Icc (hchannel b b' hb hb').1 (hchannel b b' hb hb').2

/-! ### What is printed -/

theorem channelText_eq (value : ℚ) : ∃ n : ℕ, n < 256 ∧
    (n : ℤ) = max 0 (min 255 (Js.round value)) ∧
    channelText value = [Nat.digitChar (n / 16), Nat.digitChar (n % 16)] :=
  ⟨(max 0 (min 255 (Js.round value))).toNat, by omega, by omega, padStart_toDigits (by omega)⟩

theorem isHexColor_toHex (color : Rgb) : IsHexColor (toHex color).toList := by
  have hchannel : ∀ value, (channelText value).length = 2 ∧
      ∀ c ∈ channelText value, isLowerHex c = true := by
    intro value
    obtain ⟨n, hn, -, htext⟩ := channelText_eq value
    have hhigh := isLowerHex_digitChar (n / 16) (by omega)
    have hlow := isLowerHex_digitChar (n % 16) (by omega)
    rw [htext]
    simp [hhigh, hlow]
  refine ⟨_, String.toList_ofList, ?_, ?_⟩
  · simp [(hchannel _).1]
  · intro c hc
    rcases List.mem_append.mp hc with hc | hc
    · rcases List.mem_append.mp hc with hc | hc
      · exact (hchannel _).2 c hc
      · exact (hchannel _).2 c hc
    · exact (hchannel _).2 c hc

theorem isHexColor_of_all {s : List Char} (hhash : s.head? = some '#') (hlength : s.length = 7)
    (hdigits : s.tail.all isLowerHex = true) : IsHexColor s := by
  obtain ⟨digits, rfl⟩ : ∃ digits, s = '#' :: digits := by
    cases s with
    | nil => cases hhash
    | cons c digits => exact ⟨digits, by rw [Option.some.inj hhash]⟩
  exact ⟨digits, rfl, by simpa using hlength, List.all_eq_true.mp hdigits⟩

theorem isRem_thousandths {n : ℕ} (h : n ≤ 2000) :
    IsRem (thousandthsText n ++ "rem".toList) := by
  refine ⟨thousandthsText n, n / 1000, rfl, ⟨_, _, Nat.toDigits_ne_nil, ?_, rfl,
    (decimal_thousandths n).symm⟩, by positivity, ?_⟩
  · intro c hc
    rcases List.mem_append.mp hc with hc | hc
    · exact isDigit_toDigits _ c hc
    · exact isDigit_rdropWhile_padDigits _ _ c hc
  · have hn : (n : ℚ) ≤ 2000 := by exact_mod_cast h
    rw [div_le_iff₀ (by norm_num)]
    linarith

/-- A radius in thousandths, at most 2000 of them. -/
theorem normalizeRadius_eq_some {value : Option Json} {s : String}
    (h : normalizeRadius value = some s) :
    ∃ n ≤ 2000, s = String.ofList (thousandthsText n ++ "rem".toList) := by
  rw [normalizeRadius] at h
  split at h
  · next raw hraw =>
    split_ifs at h with hrange
    refine ⟨_, ?_, (Option.some.inj h).symm⟩
    push Not at hrange
    have herror : |toDouble (raw * 1000) - raw * 1000| ≤ 1 / 1000000 :=
      toDouble_error (by rw [abs_of_nonneg (by linarith)]; linarith)
    have hround : Js.round (toDouble (raw * 1000)) ≤ 2000 := by
      have hlt : toDouble (raw * 1000) + 1 / 2 < (2001 : ℤ) := by
        have := (abs_le.mp herror).2
        push_cast
        linarith
      have : ⌊toDouble (raw * 1000) + 1 / 2⌋ < 2001 := Int.floor_lt.mpr hlt
      show ⌊toDouble (raw * 1000) + 1 / 2⌋ ≤ 2000
      omega
    omega
  · cases h

/-! ### Tokens -/

/-- Every token has a value of its kind. -/
structure WellPrinted (tokens : TokenMap) : Prop where
  color : ∀ token, token ≠ .radius → IsHexColor (tokens token).toList
  radius : IsRem (tokens .radius).toList

section Resolve

variable {pow : ℚ → ℚ → ℚ} {tokens : TokenMap}

theorem isHexColor_readableOn (color : Rgb) : IsHexColor (readableOn pow color).toList := by
  rw [readableOn]
  split_ifs
  · exact isHexColor_of_all rfl rfl rfl
  · exact isHexColor_of_all rfl rfl rfl

theorem wellPrinted_presets (preset : PresetName) : WellPrinted (PRESETS preset) where
  color := by
    intro token htoken
    cases preset <;> cases token <;>
      first
      | exact isHexColor_of_all rfl rfl rfl
      | exact absurd rfl htoken
  radius := by
    cases preset with
    | classic => exact isRem_thousandths (n := 500) (by omega)
    | evening => exact isRem_thousandths (n := 750) (by omega)
    | plain => exact isRem_thousandths (n := 375) (by omega)

/-- A colour that was printed here. -/
def Printed (pow : ℚ → ℚ → ℚ) (s : String) : Prop :=
  (∃ color, s = toHex color) ∨ ∃ color, s = readableOn pow color

@[simp] theorem printed_toHex (color : Rgb) : Printed pow (toHex color) := Or.inl ⟨color, rfl⟩

@[simp] theorem printed_readableOn (color : Rgb) : Printed pow (readableOn pow color) :=
  Or.inr ⟨color, rfl⟩

/-- Overrides print the colours they change. -/
theorem wellPrinted_of_printed (pow : ℚ → ℚ → ℚ) {changed : TokenMap}
    (hcolor : ∀ token, Printed pow (changed token) ∨ changed token = tokens token)
    (hradius : changed .radius = tokens .radius) (h : WellPrinted tokens) :
    WellPrinted changed where
  color := by
    intro token htoken
    rcases hcolor token with (⟨color, hprint⟩ | ⟨color, hprint⟩) | hsame
    · rw [hprint]
      exact isHexColor_toHex color
    · rw [hprint]
      exact isHexColor_readableOn color
    · rw [hsame]
      exact h.color token htoken
  radius := by
    rw [hradius]
    exact h.radius

theorem wellPrinted_withBackground (background : Rgb) (h : WellPrinted tokens) :
    WellPrinted (withBackground pow background tokens) := by
  refine wellPrinted_of_printed pow (fun token => ?_) ?_ h
  · cases token <;> simp [withBackground]
  · rfl

theorem wellPrinted_withBrand (brand : Rgb) (h : WellPrinted tokens) :
    WellPrinted (withBrand pow brand tokens) := by
  refine wellPrinted_of_printed pow (fun token => ?_) ?_ h
  · cases token <;> simp [withBrand]
  · rfl

theorem wellPrinted_withAccent (accent : Rgb) (h : WellPrinted tokens) :
    WellPrinted (withAccent pow accent tokens) := by
  refine wellPrinted_of_printed pow (fun token => ?_) ?_ h
  · cases token <;> simp [withAccent]
  · rfl

theorem wellPrinted_withRadius {radius : String} (hradius : IsRem radius.toList)
    (h : WellPrinted tokens) : WellPrinted (withRadius radius tokens) where
  color := by
    intro token htoken
    have hsame : withRadius radius tokens token = tokens token := by
      cases token <;>
        first
        | exact absurd rfl htoken
        | rfl
    rw [hsame]
    exact h.color token htoken
  radius := hradius

theorem wellPrinted_overridden {α : Type} {value : Option α} {apply : α → TokenMap → TokenMap}
    (happly : ∀ a, value = some a → WellPrinted (apply a tokens)) (h : WellPrinted tokens) :
    WellPrinted (overridden value apply tokens) := by
  cases value with
  | none => exact h
  | some a => exact happly a rfl

/-- A theme whose radius was printed here resolves to well-printed tokens. -/
theorem wellPrinted_resolveTokens {settings : ThemeSettings}
    (hradius : ∀ radius, settings.radius = some radius → IsRem radius.toList) :
    WellPrinted (resolveTokens pow settings) := by
  have hbackground : WellPrinted (overridden (parseColor (settings.background.map .str))
      (withBackground pow) (PRESETS settings.preset)) :=
    wellPrinted_overridden (fun c _ => wellPrinted_withBackground c (wellPrinted_presets _))
      (wellPrinted_presets _)
  have hbrand : WellPrinted (overridden (parseColor (settings.brand.map .str)) (withBrand pow) _) :=
    wellPrinted_overridden (fun c _ => wellPrinted_withBrand c hbackground) hbackground
  have haccent : WellPrinted (overridden (parseColor (settings.accent.map .str))
      (withAccent pow) _) :=
    wellPrinted_overridden (fun c _ => wellPrinted_withAccent c hbrand) hbrand
  refine wellPrinted_overridden (fun radius hsome => ?_) haccent
  exact wellPrinted_withRadius (hradius radius (Option.filter_eq_some_iff.mp hsome).1) haccent

theorem radius_parseTheme (x : Json) {radius : String}
    (h : (parseTheme x).radius = some radius) : IsRem radius.toList := by
  rw [parseTheme.eq_def] at h
  split at h
  · obtain ⟨n, hn, rfl⟩ := normalizeRadius_eq_some h
    rw [String.toList_ofList]
    exact isRem_thousandths hn
  · cases h

end Resolve

/-! ### The sheet -/

/-- The characters of one declaration. -/
def inDeclaration (c : Char) : Bool := isLowerAlnum c || c ∈ ['#', '.', '-', ':']

/-- The text is one `:root` block, and between its braces stand declarations of these values, one
for each token and in the order of the tokens. -/
structure TokenSheet (css : String) (value : TokenMap) : Prop where
  block : ∃ body, css.toList = ":root\x7b".toList ++ body ++ "\x7d".toList ∧
    '\x7b' ∉ body ∧ '\x7d' ∉ body ∧
    body.splitOn ';' = THEME_TOKENS.map fun token =>
      ("--" ++ token.name ++ ":" ++ value token).toList
  printed : WellPrinted value

theorem inDeclaration_of_isHexColor {s : List Char} (h : IsHexColor s) :
    ∀ c ∈ s, inDeclaration c = true := by
  obtain ⟨digits, rfl, -, hdigits⟩ := h
  intro c hc
  rcases List.mem_cons.mp hc with rfl | hc
  · rfl
  · have hhex := hdigits c hc
    simp only [isLowerHex, Bool.or_eq_true, Bool.and_eq_true, decide_eq_true_eq] at hhex
    rw [inDeclaration, isLowerAlnum, isLowerAscii]
    rcases hhex with hdigit | ⟨hlow, hhigh⟩
    · simp [hdigit]
    · have hz : c ≤ 'z' := Char.le_trans hhigh (show 'f' ≤ 'z' by decide)
      simp [hlow, hz]

theorem inDeclaration_of_isRem {s : List Char} (h : IsRem s) : ∀ c ∈ s, inDeclaration c = true := by
  obtain ⟨text, q, rfl, ⟨whole, frac, -, hdigits, rfl, -⟩, -⟩ := h
  have hdigit : ∀ c, isDigit c = true → inDeclaration c = true := by
    intro c hc
    simp [inDeclaration, isLowerAlnum, hc]
  have hrem : ∀ c ∈ "rem".toList, inDeclaration c = true := List.all_eq_true.mp rfl
  intro c hc
  rcases List.mem_append.mp hc with hc | hc
  · rw [decimalText] at hc
    rcases List.mem_append.mp hc with hc | hc
    · exact hdigit c (hdigits c (List.mem_append_left _ hc))
    · split_ifs at hc with hfrac
      · cases hc
      · rcases List.mem_cons.mp hc with rfl | hc
        · rfl
        · exact hdigit c (hdigits c (List.mem_append_right _ hc))
  · exact hrem c hc

theorem inDeclaration_name (token : ThemeToken) :
    ∀ c ∈ token.name.toList, inDeclaration c = true := by
  cases token <;> exact List.all_eq_true.mp rfl

/-- A declaration has neither a semicolon nor a brace in it. -/
theorem inDeclaration_declaration {value : TokenMap} (h : WellPrinted value) (token : ThemeToken) :
    ∀ c ∈ ("--" ++ token.name ++ ":" ++ value token).toList, inDeclaration c = true := by
  have hvalue : ∀ c ∈ (value token).toList, inDeclaration c = true := by
    by_cases htoken : token = .radius
    · rw [htoken]
      exact inDeclaration_of_isRem h.radius
    · exact inDeclaration_of_isHexColor (h.color token htoken)
  have hdashes : ∀ c ∈ "--".toList, inDeclaration c = true := List.all_eq_true.mp rfl
  have hcolon : ∀ c ∈ ":".toList, inDeclaration c = true := List.all_eq_true.mp rfl
  intro c hc
  simp only [String.toList_append, List.mem_append] at hc
  rcases hc with ((hc | hc) | hc) | hc
  · exact hdashes c hc
  · exact inDeclaration_name token c hc
  · exact hcolon c hc
  · exact hvalue c hc

theorem forall_mem_intercalate {α : Type} {p : α → Prop} {sep : List α} {ls : List (List α)}
    (hsep : ∀ c ∈ sep, p c) (hls : ∀ l ∈ ls, ∀ c ∈ l, p c) : ∀ c ∈ sep.intercalate ls, p c := by
  induction ls with
  | nil => simp
  | cons l ls ih =>
    have hrest := ih fun l hl => hls l (List.mem_cons_of_mem _ hl)
    have hl := hls l (List.mem_cons_self ..)
    cases ls with
    | nil => simpa using hl
    | cons l' ls =>
      rw [List.intercalate_cons_cons]
      intro c hc
      rcases List.mem_append.mp hc with hc | hc
      · rcases List.mem_append.mp hc with hc | hc
        · exact hl c hc
        · exact hsep c hc
      · exact hrest c hc

section Sheet

variable {value : TokenMap}

/-- The text between the braces. -/
theorem exists_body (h : WellPrinted value) : ∃ body,
    (declarations value).toList = ":root\x7b".toList ++ body ++ "\x7d".toList ∧
      (∀ c ∈ body, inDeclaration c = true ∨ c = ';') ∧
      body.splitOn ';' = THEME_TOKENS.map fun token =>
        ("--" ++ token.name ++ ":" ++ value token).toList := by
  let declared := THEME_TOKENS.map fun token =>
    ("--" ++ token.name ++ ":" ++ value token).toList
  have hchars : ∀ l ∈ declared, ∀ c ∈ l, inDeclaration c = true := by
    intro l hl
    obtain ⟨token, -, rfl⟩ := List.mem_map.mp hl
    exact inDeclaration_declaration h token
  refine ⟨[';'].intercalate declared, ?_, ?_, ?_⟩
  · simp only [declarations, String.toList_append, String.toList_intercalate, List.map_map]
    rfl
  · refine forall_mem_intercalate (fun c hc => Or.inr (List.mem_singleton.mp hc)) ?_
    exact fun l hl c hc => Or.inl (hchars l hl c hc)
  · refine List.splitOn_intercalate ';' (fun l hl hmem => ?_) (by simp [declared, THEME_TOKENS])
    exact absurd (hchars l hl ';' hmem) (by decide)

theorem tokenSheet_declarations (h : WellPrinted value) :
    TokenSheet (declarations value) value := by
  obtain ⟨body, htext, hchars, hsplit⟩ := exists_body h
  have hbrace : ∀ c, inDeclaration c = false → c ≠ ';' → c ∉ body := by
    intro c hc hsemicolon hmem
    rcases hchars c hmem with hin | heq
    · rw [hin] at hc
      cases hc
    · exact hsemicolon heq
  have hopen := hbrace '\x7b' (by decide) (by decide)
  have hclose := hbrace '\x7d' (by decide) (by decide)
  exact ⟨⟨body, htext, hopen, hclose, hsplit⟩, h⟩

theorem safeCss_declarations (h : WellPrinted value) : SAFE_CSS (declarations value) = true := by
  obtain ⟨body, htext, hchars, -⟩ := exists_body h
  have hopen : ∀ c ∈ ":root\x7b".toList, isSafeCss c = true := List.all_eq_true.mp rfl
  have hclose : ∀ c ∈ "\x7d".toList, isSafeCss c = true := List.all_eq_true.mp rfl
  have hbody : ∀ c ∈ body, isSafeCss c = true := by
    intro c hc
    rcases hchars c hc with hin | rfl
    · simp only [inDeclaration, Bool.or_eq_true, decide_eq_true_eq, List.mem_cons,
        List.not_mem_nil, or_false] at hin
      rw [isSafeCss]
      rcases hin with halnum | rfl | rfl | rfl | rfl
      · rw [halnum, Bool.true_or, Bool.true_or]
      all_goals rfl
    · rfl
  rw [SAFE_CSS, htext, List.all_eq_true]
  intro c hc
  rcases List.mem_append.mp hc with hc | hc
  · rcases List.mem_append.mp hc with hc | hc
    · exact hopen c hc
    · exact hbody c hc
  · exact hclose c hc

/-- **The stylesheet of whatever is stored.** It is one block that declares every token once, in
order, each with a value of its kind; the fallback is never reached, and a mixed colour rounds into
range without being cut off. -/
theorem themeCss_parseTheme (pow : ℚ → ℚ → ℚ) (x : Json) :
    TokenSheet (themeCss pow (parseTheme x)) (resolveTokens pow (parseTheme x)) ∧
      SAFE_CSS (declarations (resolveTokens pow (parseTheme x))) = true ∧
      (THEME_TOKENS.map ThemeToken.name).Nodup ∧ (∀ token, token ∈ THEME_TOKENS) ∧
      ∀ v w first second amount, parseColor v = some first → parseColor w = some second →
        0 ≤ amount → amount ≤ 1 → (mix first second amount).InRange := by
  have hprinted : WellPrinted (resolveTokens pow (parseTheme x)) :=
    wellPrinted_resolveTokens fun _ hradius => radius_parseTheme x hradius
  have hsafe := safeCss_declarations hprinted
  refine ⟨?_, hsafe, by decide, fun token => ?_, fun _ _ _ _ _ => inRange_mix⟩
  · rw [themeCss]
    rw [if_pos hsafe]
    exact tokenSheet_declarations hprinted
  · cases token <;> decide

end Sheet

end LampLight
