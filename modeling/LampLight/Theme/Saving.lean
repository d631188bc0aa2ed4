import LampLight.Teach.Editing
import LampLight.Theme.Rendering

/-!
# Saving a theme

What was read is printed in one way only, and that way is read as the same: a colour has six
lower-case digits, and a radius is a number of thousandths that survives the two roundings of being
read again. So a theme that was read can be stored and read any number of times, and the form that
shows it can be submitted as it is.

## Main definitions

* `BrandingForm`, `saveBrandingAction` — the fields of the form, and what the action makes of them
* `Canonical`, `Normal` — a text that is read as itself, and a theme of such texts

## Main results

* `normalizeColor_normalized`, `normalizeRadius_normalized` — reading what was printed
* `parseTheme_saved` — saving loses nothing
-/

namespace LampLight

open Js

/-! ### The form -/

/-- The fields of the form, less the words of the front page. -/
structure BrandingForm where
  preset : String
  brand : String
  accent : String
  background : String
  radius : String
  logoUrl : String

/-- What the form submits for a theme that nobody touched. -/
def brandingForm (theme : ThemeSettings) (logoUrl : Option String) : BrandingForm where
  preset := theme.preset.name
  brand := theme.brand.getD ""
  accent := theme.accent.getD ""
  background := theme.background.getD ""
  radius := theme.radius.getD ""
  logoUrl := logoUrl.getD ""

/-- `/^[\w\-./~%]+$/`. -/
def isAssetPath (path : List Char) : Bool :=
  path ≠ [] && path.all fun c => isFilenameSafe c || c ∈ ['/', '~', '%']

/-- A path on the same origin, or an https URL. -/
def safeAssetUrl (parseUrl : String → Option ParsedUrl) (value : String) : Option String :=
  let trimmed := trimmedField value
  match trimmed.toList with
  | [] => none
  | c :: path =>
    -- Two slashes start a host.
    if c = '/' ∧ path.head? ≠ some '/' then if isAssetPath path then some trimmed else none
    else
      match parseUrl trimmed with
      | none => none
      | some url => if url.protocol = "https:" then some url.href else none

/-- A field that is empty, reads as a value, or is refused with a message. -/
def readField (read : String → Option String) (message raw : String) :
    Except String (Option String) :=
  let raw := trimmedField raw
  if raw = "" then .ok none
  else
    match (read raw).filter (· ≠ "") with
    | none => .error message
    | some value => .ok (some value)

/-- A colour that a form submits. -/
def readColor (field raw : String) : Except String (Option String) :=
  readField (normalizeColor ∘ some ∘ .str)
    (field ++ " is not a colour. Use a hex value like #1f3a5f.") raw

/-- A corner radius that a form submits. -/
def readRadius (raw : String) : Except String (Option String) :=
  readField (normalizeRadius ∘ some ∘ .str) "Corner radius must be between 0 and 2." raw

/-- The address of a logo that a form submits. -/
def readLogo (parseUrl : String → Option ParsedUrl) (raw : String) :
    Except String (Option String) :=
  readField (safeAssetUrl parseUrl) "The logo address must be an https URL." raw

/-- A text that may be missing, as JSON. -/
def nullable (value : Option String) : Json :=
  match value with
  | none => .null
  | some text => .str text

/-- The theme and the logo that `saveBrandingAction` stores, or what it answers. -/
def saveBrandingAction (parseUrl : String → Option ParsedUrl) (form : BrandingForm) :
    Except String (Json × Option String) :=
  match THEME_PRESETS.find? fun preset => preset.name = form.preset with
  | none => .error "Unknown preset."
  | some preset => do
    let brand ← readColor "brand" form.brand
    let accent ← readColor "accent" form.accent
    let background ← readColor "background" form.background
    let radius ← readRadius form.radius
    let logoUrl ← readLogo parseUrl form.logoUrl
    let theme := serializeTheme (parseTheme (.obj
      [("preset", .str preset.name), ("brand", nullable brand), ("accent", nullable accent),
        ("background", nullable background), ("radius", nullable radius)]))
    pure (theme, logoUrl)

/-- What is stored once the action has answered. -/
def storedTheme (before : Json) : Except String (Json × Option String) → Json
  | .error _ => before
  | .ok (theme, _) => theme

/-! ### Reading what was printed -/

theorem round_natCast (n : ℕ) : Js.round n = n := by
  show ⌊(n : ℚ) + 1 / 2⌋ = n
  rw [Int.floor_eq_iff]
  push_cast
  constructor <;> linarith

theorem channelText_natCast {n : ℕ} (h : n < 256) :
    channelText n = [Nat.digitChar (n / 16), Nat.digitChar (n % 16)] := by
  have hn : (max 0 (min 255 (Js.round (n : ℚ)))).toNat = n := by
    rw [round_natCast]
    omega
  rw [channelText, hn, padStart_toDigits h]

theorem parseHex_digits {n : ℕ} (h : n < 256) :
    parseHex [Nat.digitChar (n / 16), Nat.digitChar (n % 16)] = n := by
  have hhigh := hexValue_digitChar (n / 16) (by omega)
  have hlow := hexValue_digitChar (n % 16) (by omega)
  simp only [parseHex, List.foldl_cons, List.foldl_nil, hhigh, hlow]
  omega

/-- White space has no place in a declaration. -/
theorem isSpace_of_inDeclaration {c : Char} (h : inDeclaration c = true) : isSpace c = false := by
  simp only [inDeclaration, isLowerAlnum, Bool.or_eq_true, decide_eq_true_eq, isLowerAscii_iff,
    isDigit_iff, List.mem_cons, List.not_mem_nil, or_false] at h
  rcases h with h | rfl | rfl | rfl | rfl
  · exact isSpace_eq_false (by omega)
  all_goals rfl

theorem trim_eq_self_of_inDeclaration {s : List Char} (h : ∀ c ∈ s, inDeclaration c = true) :
    trim s = s :=
  trim_eq_self fun c hc => isSpace_of_inDeclaration (h c hc)

/-- Six digits are read in pairs. -/
theorem parseColor_six {s : String} {a b c d e f : Char} (hs : s.toList = ['#', a, b, c, d, e, f])
    (htrim : trim s.toList = s.toList) (hdigits : ∀ x ∈ [a, b, c, d, e, f], isHexDigit x = true) :
    parseColor (some (.str s))
      = some ⟨(parseHex [a, b] : ℕ), (parseHex [c, d] : ℕ), (parseHex [e, f] : ℕ)⟩ := by
  have hhex : HEX ['#', a, b, c, d, e, f] = true := by
    simp only [HEX, List.all_eq_true.mpr hdigits]
    rfl
  have hlength : Js.length ['#', a, b, c, d, e, f] ≠ 4 := by
    rw [length_hash hdigits]
    simp
  rw [hs] at htrim
  simp only [parseColor, hs, htrim, hhex, if_true, if_neg hlength]
  rfl

/-- Whole channels are read as they were printed. -/
theorem parseColor_toHex {r g b : ℕ} (hr : r < 256) (hg : g < 256) (hb : b < 256) :
    parseColor (some (.str (toHex ⟨r, g, b⟩))) = some ⟨r, g, b⟩ := by
  have htext : (toHex ⟨r, g, b⟩).toList = ['#', Nat.digitChar (r / 16), Nat.digitChar (r % 16),
      Nat.digitChar (g / 16), Nat.digitChar (g % 16), Nat.digitChar (b / 16),
      Nat.digitChar (b % 16)] := by
    rw [toHex, String.toList_ofList, channelText_natCast hr, channelText_natCast hg,
      channelText_natCast hb]
    rfl
  have htrim := trim_eq_self_of_inDeclaration
    (inDeclaration_of_isHexColor (isHexColor_toHex ⟨r, g, b⟩))
  have hdigit : ∀ n : ℕ, n < 16 → isHexDigit (Nat.digitChar n) = true := fun n hn =>
    isHexDigit_of_isLowerHex (isLowerHex_digitChar n hn)
  have hpair : ∀ n : ℕ, n < 256 → isHexDigit (Nat.digitChar (n / 16)) = true ∧
      isHexDigit (Nat.digitChar (n % 16)) = true := fun n hn =>
    ⟨hdigit _ (by omega), hdigit _ (by omega)⟩
  rw [parseColor_six htext htrim, parseHex_digits hr, parseHex_digits hg, parseHex_digits hb]
  simp only [List.forall_mem_cons, hpair r hr, hpair g hg, hpair b hb, true_and]
  simp

/-- A colour that was read and printed is read and printed as the same. -/
theorem normalizeColor_normalized {value : Option Json} {s : String}
    (h : normalizeColor value = some s) : normalizeColor (some (.str s)) = some s := by
  obtain ⟨color, hcolor, rfl⟩ := Option.map_eq_some_iff.mp h
  obtain ⟨r, g, b, hr, hg, hb, rfl⟩ := parseColor_eq_some hcolor
  rw [normalizeColor, parseColor_toHex hr hg hb, Option.map_some]

theorem dropRem_append (s : List Char) : dropRem (s ++ "rem".toList) = s := by
  have hreverse : (s ++ "rem".toList).reverse = 'm' :: 'e' :: 'r' :: s.reverse := by
    rw [List.reverse_append]
    rfl
  rw [dropRem, hreverse]
  simp

/-- A number of thousandths survives being read as a double and scaled again. -/
theorem round_toDouble_thousandths {n : ℕ} (h : n ≤ 2000) :
    0 ≤ toDouble (n / 1000) ∧ toDouble (n / 1000) ≤ 2 ∧
      Js.round (toDouble (toDouble (n / 1000) * 1000)) = n := by
  have hn : (n : ℚ) ≤ 2000 := by exact_mod_cast h
  have hpos : (0 : ℚ) ≤ n / 1000 := by positivity
  have hle : (n : ℚ) / 1000 ≤ 2 := by
    rw [div_le_iff₀ (by norm_num)]
    linarith
  have hread := abs_le.mp (toDouble_error (q := (n : ℚ) / 1000)
    (by rw [abs_of_nonneg hpos]; linarith))
  have hnonneg := toDouble_nonneg hpos
  have hscaled := abs_le.mp (toDouble_error (q := toDouble ((n : ℚ) / 1000) * 1000)
    (by rw [abs_of_nonneg (by positivity)]; linarith [hread.2]))
  have hback : (n : ℚ) / 1000 * 1000 = n := div_mul_cancel₀ _ (by norm_num)
  refine ⟨hnonneg, ?_, ?_⟩
  · rcases Nat.lt_or_ge n 2000 with hlt | hge
    · have hlt' : (n : ℚ) + 1 ≤ 2000 := by exact_mod_cast hlt
      have hread2 := hread.2
      linarith
    · obtain rfl : n = 2000 := le_antisymm h hge
      have htwo : ((2000 : ℕ) : ℚ) / 1000 = ((2 : ℤ) : ℚ) := by norm_num
      rw [htwo, toDouble_intCast (by norm_num)]
      norm_num
  · show ⌊toDouble (toDouble ((n : ℚ) / 1000) * 1000) + 1 / 2⌋ = n
    rw [Int.floor_eq_iff]
    push_cast
    constructor
    · linarith [hread.1, hscaled.1]
    · linarith [hread.2, hscaled.2]

/-- A radius that was read and printed is read and printed as the same. -/
theorem normalizeRadius_normalized {value : Option Json} {s : String}
    (h : normalizeRadius value = some s) : normalizeRadius (some (.str s)) = some s := by
  obtain ⟨n, hn, rfl⟩ := normalizeRadius_eq_some h
  obtain ⟨hnonneg, hle, hround⟩ := round_toDouble_thousandths hn
  have htrim := trim_eq_self_of_inDeclaration (inDeclaration_of_isRem (isRem_thousandths hn))
  have hnumber : radiusNumber (some (.str (String.ofList (thousandthsText n ++ "rem".toList))))
      = .finite (toDouble (n / 1000)) := by
    rw [radiusNumber, String.toList_ofList, htrim, dropRem_append, parseFloat_thousandthsText,
      Number.ofRat, if_neg]
    rw [abs_of_nonneg hnonneg, not_le]
    have hbig : (2 : ℚ) < 2 ^ 1024 := lt_self_pow₀ (by norm_num) (by norm_num)
    exact lt_of_le_of_lt hle hbig
  rw [normalizeRadius, hnumber]
  dsimp only
  rw [if_neg (by rw [not_or, not_lt, not_lt]; exact ⟨hnonneg, hle⟩), hround, Int.toNat_natCast]

/-! ### Canonical texts -/

/-- A text that is read as itself, and that a form keeps as it is. -/
structure Canonical (read : Option Json → Option String) (text : String) : Prop where
  read_self : read (some (.str text)) = some text
  ne_empty : text ≠ ""
  trimmed : trimmedField text = text

theorem canonical_of_inDeclaration {read : Option Json → Option String} {text : String}
    (hread : read (some (.str text)) = some text) (hne : text.toList ≠ [])
    (hchars : ∀ c ∈ text.toList, inDeclaration c = true) : Canonical read text where
  read_self := hread
  ne_empty := by
    rintro rfl
    exact hne rfl
  trimmed := by
    rw [trimmedField, trim_eq_self_of_inDeclaration hchars, String.ofList_toList]

theorem canonical_color {value : Option Json} {s : String} (h : normalizeColor value = some s) :
    Canonical normalizeColor s := by
  have hread := normalizeColor_normalized h
  obtain ⟨color, -, rfl⟩ := Option.map_eq_some_iff.mp h
  have hcolor := isHexColor_toHex color
  refine canonical_of_inDeclaration hread ?_ (inDeclaration_of_isHexColor hcolor)
  obtain ⟨digits, htext, -⟩ := hcolor
  rw [htext]
  exact List.cons_ne_nil _ _

theorem canonical_radius {value : Option Json} {s : String} (h : normalizeRadius value = some s) :
    Canonical normalizeRadius s := by
  have hread := normalizeRadius_normalized h
  obtain ⟨n, hn, rfl⟩ := normalizeRadius_eq_some h
  refine canonical_of_inDeclaration hread ?_ ?_
  · rw [String.toList_ofList]
    exact List.append_ne_nil_of_right_ne_nil _ (by decide)
  · rw [String.toList_ofList]
    exact inDeclaration_of_isRem (isRem_thousandths hn)

/-- Every value of the theme is canonical. -/
structure Normal (theme : ThemeSettings) : Prop where
  brand : ∀ s, theme.brand = some s → Canonical normalizeColor s
  accent : ∀ s, theme.accent = some s → Canonical normalizeColor s
  background : ∀ s, theme.background = some s → Canonical normalizeColor s
  radius : ∀ s, theme.radius = some s → Canonical normalizeRadius s

theorem normal_parseTheme (x : Json) : Normal (parseTheme x) := by
  rw [parseTheme.eq_def]
  split
  · exact ⟨fun _ => canonical_color, fun _ => canonical_color, fun _ => canonical_color,
      fun _ => canonical_radius⟩
  · constructor <;> intro s hs <;> cases hs

/-! ### Storing and reading again -/

theorem parseTheme_obj {fields : List (String × Json)} {theme : ThemeSettings}
    (hpreset : fields.lookup "preset" = some (.str theme.preset.name))
    (hbrand : normalizeColor (fields.lookup "brand") = theme.brand)
    (haccent : normalizeColor (fields.lookup "accent") = theme.accent)
    (hbackground : normalizeColor (fields.lookup "background") = theme.background)
    (hradius : normalizeRadius (fields.lookup "radius") = theme.radius) :
    parseTheme (.obj fields) = theme := by
  have hfind : (THEME_PRESETS.find? fun preset =>
      isText (some (.str theme.preset.name)) preset.name) = some theme.preset := by
    cases theme.preset <;> decide
  obtain ⟨preset, brand, accent, background, radius⟩ := theme
  simp only [parseTheme, Json.get?, hpreset, hbrand, haccent, hbackground, hradius] at hfind ⊢
  rw [hfind, Option.getD_some]

theorem lookup_optionalField (key key' : String) (value : Option String) :
    (optionalField key value).lookup key'
      = if key' = key then (value.filter (· ≠ "")).map .str else none := by
  cases value with
  | none => simp [optionalField]
  | some text =>
    by_cases htext : text = ""
    · simp [optionalField, htext]
    · by_cases hkey : key' = key
      · simp [optionalField, htext, hkey]
      · simp [optionalField, htext, hkey, List.lookup_cons, beq_false_of_ne hkey]

/-- A value that is left out when it is empty, or stored as `null`, is read as it was. -/
theorem read_stored {read : Option Json → Option String} {value : Option String}
    (h : ∀ s, value = some s → Canonical read s) (hnone : read none = none)
    (hnull : read (some .null) = none) :
    read ((value.filter (· ≠ "")).map .str) = value ∧ read (some (nullable value)) = value := by
  cases value with
  | none => exact ⟨hnone, hnull⟩
  | some text =>
    have hcanonical := h text rfl
    have hkept : (some text).filter (· ≠ "") = some text := by
      simpa using hcanonical.ne_empty
    rw [hkept]
    exact ⟨hcanonical.read_self, hcanonical.read_self⟩

theorem parseTheme_serializeTheme {theme : ThemeSettings} (h : Normal theme) :
    parseTheme (serializeTheme theme) = theme := by
  apply parseTheme_obj
  · exact List.lookup_cons_self
  · simpa [List.lookup_cons, List.lookup_append, lookup_optionalField]
      using (read_stored h.brand rfl rfl).1
  · simpa [List.lookup_cons, List.lookup_append, lookup_optionalField]
      using (read_stored h.accent rfl rfl).1
  · simpa [List.lookup_cons, List.lookup_append, lookup_optionalField]
      using (read_stored h.background rfl rfl).1
  · simpa [List.lookup_cons, List.lookup_append, lookup_optionalField]
      using (read_stored h.radius rfl rfl).1

/-! ### Saving the form -/

/-- A canonical value goes through its field. -/
theorem readField_canonical {read : Option Json → Option String} {value : Option String}
    (h : ∀ s, value = some s → Canonical read s) (message : String) :
    readField (read ∘ some ∘ .str) message (value.getD "") = .ok value := by
  cases value with
  | none =>
    have hempty : trimmedField "" = "" := by decide
    rw [readField, Option.getD_none, hempty]
    exact if_pos rfl
  | some text =>
    have hcanonical := h text rfl
    have hkept : ((read ∘ some ∘ Json.str) text).filter (· ≠ "") = some text := by
      simpa [hcanonical.read_self] using hcanonical.ne_empty
    simp only [readField, Option.getD_some, hcanonical.trimmed, if_neg hcanonical.ne_empty, hkept]

theorem find_name (preset : PresetName) :
    (THEME_PRESETS.find? fun candidate => candidate.name = preset.name) = some preset := by
  cases preset <;> decide

/-- What the action does with the form as it was opened: the theme is stored again, unless the
logo is refused. -/
theorem saveBrandingAction_brandingForm {theme : ThemeSettings} (h : Normal theme)
    (parseUrl : String → Option ParsedUrl) (logoUrl : Option String) :
    saveBrandingAction parseUrl (brandingForm theme logoUrl)
      = (readLogo parseUrl (logoUrl.getD "")).map fun logo => (serializeTheme theme, logo) := by
  have hpreset : (THEME_PRESETS.find? fun preset =>
      preset.name = (brandingForm theme logoUrl).preset) = some theme.preset :=
    find_name theme.preset
  have htheme : parseTheme (.obj [("preset", .str theme.preset.name),
      ("brand", nullable theme.brand), ("accent", nullable theme.accent),
      ("background", nullable theme.background), ("radius", nullable theme.radius)]) = theme := by
    apply parseTheme_obj
    · rfl
    · exact (read_stored h.brand rfl rfl).2
    · exact (read_stored h.accent rfl rfl).2
    · exact (read_stored h.background rfl rfl).2
    · exact (read_stored h.radius rfl rfl).2
  have hbrand : readColor "brand" (theme.brand.getD "") = .ok theme.brand :=
    readField_canonical h.brand _
  have haccent : readColor "accent" (theme.accent.getD "") = .ok theme.accent :=
    readField_canonical h.accent _
  have hbackground : readColor "background" (theme.background.getD "") = .ok theme.background :=
    readField_canonical h.background _
  have hradius : readRadius (theme.radius.getD "") = .ok theme.radius :=
    readField_canonical h.radius _
  rw [saveBrandingAction, hpreset]
  simp only [brandingForm, hbrand, haccent, hbackground, hradius]
  cases readLogo parseUrl (logoUrl.getD "") with
  | error message => rfl
  | ok logo => exact congrArg (fun t => Except.ok (serializeTheme t, logo)) htheme

/-- **Saving loses nothing.** What was read can be stored and read again, and the form that shows
it can be saved as it is: the action refuses nothing but a logo, and whatever it answers, the theme
in the store resolves to the same tokens. -/
theorem parseTheme_saved (x : Json) :
    parseTheme (serializeTheme (parseTheme x)) = parseTheme x ∧
      ∀ (parseUrl : String → Option ParsedUrl) (logoUrl : Option String),
        saveBrandingAction parseUrl (brandingForm (parseTheme x) logoUrl)
            = (readLogo parseUrl (logoUrl.getD "")).map
                (fun logo => (serializeTheme (parseTheme x), logo)) ∧
          parseTheme (storedTheme x
            (saveBrandingAction parseUrl (brandingForm (parseTheme x) logoUrl))) = parseTheme x ∧
          ∀ pow, resolveTokens pow (parseTheme (storedTheme x
            (saveBrandingAction parseUrl (brandingForm (parseTheme x) logoUrl))))
              = resolveTokens pow (parseTheme x) := by
  have hnormal := normal_parseTheme x
  have hagain := parseTheme_serializeTheme hnormal
  refine ⟨hagain, fun parseUrl logoUrl => ?_⟩
  have hsave := saveBrandingAction_brandingForm hnormal parseUrl logoUrl
  have hstored : parseTheme (storedTheme x
      (saveBrandingAction parseUrl (brandingForm (parseTheme x) logoUrl))) = parseTheme x := by
    rw [hsave]
    cases readLogo parseUrl (logoUrl.getD "") with
    | error message => rfl
    | ok logo => exact hagain
  refine ⟨hsave, hstored, fun pow => ?_⟩
  rw [hstored]

end LampLight
