import LampLight.Foundation.JsNumber

/-!
# The theme of an institute

A theme is a preset with a few values in place of the preset's. Everything that is stored is read
into numbers, and what reaches the stylesheet is printed from those numbers. A value that cannot be
read counts as absent.

Colours are mixed and rounded in exact arithmetic. The power that brightness is computed with is
approximated by the runtime, so it is a parameter: it decides only which of two text colours goes on
a surface.

## Main definitions

* `parseColor`, `normalizeRadius`, `parseTheme` — reading what is stored
* `resolveTokens`, `themeCss` — the tokens of a theme, and the stylesheet that declares them
* `serializeTheme` — what is stored
-/

namespace LampLight

open Js

/-! ### Tokens and presets -/

/-- The themes to start from. -/
inductive PresetName | classic | evening | plain
deriving DecidableEq

/-- A preset as it is stored. -/
def PresetName.name : PresetName → String
  | classic => "classic"
  | evening => "evening"
  | plain => "plain"

/-- Every preset. -/
def THEME_PRESETS : List PresetName := [.classic, .evening, .plain]

/-- The preset of an institute that chose none. -/
def DEFAULT_PRESET : PresetName := .classic

/-- Every custom property the application sets. -/
inductive ThemeToken
  | background
  | foreground
  | card
  | cardForeground
  | primary
  | primaryForeground
  | secondary
  | secondaryForeground
  | muted
  | mutedForeground
  | accent
  | accentForeground
  | border
  | ring
  | radius
deriving DecidableEq

namespace ThemeToken

/-- A token as it stands in a style sheet. -/
def name : ThemeToken → String
  | background => "background"
  | foreground => "foreground"
  | card => "card"
  | cardForeground => "card-foreground"
  | primary => "primary"
  | primaryForeground => "primary-foreground"
  | secondary => "secondary"
  | secondaryForeground => "secondary-foreground"
  | muted => "muted"
  | mutedForeground => "muted-foreground"
  | accent => "accent"
  | accentForeground => "accent-foreground"
  | border => "border"
  | ring => "ring"
  | radius => "radius"

end ThemeToken

/-- Every token, in the order they are declared in. -/
def THEME_TOKENS : List ThemeToken :=
  [.background, .foreground, .card, .cardForeground, .primary, .primaryForeground, .secondary,
    .secondaryForeground, .muted, .mutedForeground, .accent, .accentForeground, .border, .ring,
    .radius]

/-- A value for every token. -/
abbrev TokenMap := ThemeToken → String

/-- The values of a preset. -/
def PRESETS : PresetName → TokenMap
  | .classic => fun
    | .background => "#fbfaf7"
    | .foreground => "#1b1a17"
    | .card => "#ffffff"
    | .cardForeground => "#1b1a17"
    | .primary => "#1f3a5f"
    | .primaryForeground => "#ffffff"
    | .secondary => "#eae6dd"
    | .secondaryForeground => "#1f3a5f"
    | .muted => "#f1eee8"
    | .mutedForeground => "#6b6559"
    | .accent => "#e8eef6"
    | .accentForeground => "#1f3a5f"
    | .border => "#e2ddd2"
    | .ring => "#1f3a5f"
    | .radius => "0.5rem"
  | .evening => fun
    | .background => "#14161a"
    | .foreground => "#eef1f5"
    | .card => "#1b1e24"
    | .cardForeground => "#eef1f5"
    | .primary => "#8ab4f8"
    | .primaryForeground => "#10131a"
    | .secondary => "#232830"
    | .secondaryForeground => "#eef1f5"
    | .muted => "#232830"
    | .mutedForeground => "#a4adba"
    | .accent => "#2b323d"
    | .accentForeground => "#eef1f5"
    | .border => "#2a2f38"
    | .ring => "#8ab4f8"
    | .radius => "0.75rem"
  | .plain => fun
    | .background => "#ffffff"
    | .foreground => "#111827"
    | .card => "#ffffff"
    | .cardForeground => "#111827"
    | .primary => "#111827"
    | .primaryForeground => "#ffffff"
    | .secondary => "#f3f4f6"
    | .secondaryForeground => "#111827"
    | .muted => "#f3f4f6"
    | .mutedForeground => "#6b7280"
    | .accent => "#f3f4f6"
    | .accentForeground => "#111827"
    | .border => "#e5e7eb"
    | .ring => "#9ca3af"
    | .radius => "0.375rem"

/-- The editable shape. An absent value means the preset's. -/
structure ThemeSettings where
  preset : PresetName
  brand : Option String
  accent : Option String
  background : Option String
  radius : Option String
deriving DecidableEq

/-- The theme of an institute that chose nothing. -/
def DEFAULT_THEME : ThemeSettings where
  preset := DEFAULT_PRESET
  brand := none
  accent := none
  background := none
  radius := none

/-! ### Colours -/

/-- Three channels, whole numbers below 256 until colours are mixed. -/
structure Rgb where
  r : ℚ
  g : ℚ
  b : ℚ
deriving DecidableEq

/-- `/^#(?:[0-9a-f]{3}|[0-9a-f]{6})$/i`. -/
def HEX : List Char → Bool
  | '#' :: digits => (digits.length = 3 || digits.length = 6) && digits.all isHexDigit
  | _ => false

/-- A hex colour of three or of six digits. -/
def parseColor : Option Json → Option Rgb
  | some (.str value) =>
    let trimmed := trim value.toList
    if HEX trimmed then
      let digits :=
        if Js.length trimmed = 4 then trimmed.tail.flatMap fun digit => [digit, digit]
        else trimmed.tail
      some
        { r := parseHex (digits.take 2)
          g := parseHex ((digits.drop 2).take 2)
          b := parseHex ((digits.drop 4).take 2) }
    else none
  | _ => none

/-- A channel, rounded into 0..255, as two digits. -/
def channelText (value : ℚ) : List Char :=
  (Nat.toDigits 16 (max 0 (min 255 (Js.round value))).toNat).leftpad 2 '0'

/-- A colour as a hex text of six digits. -/
def toHex (color : Rgb) : String :=
  String.ofList ('#' :: (channelText color.r ++ channelText color.g ++ channelText color.b))

/-- A hex colour in its one spelling. -/
def normalizeColor (value : Option Json) : Option String := (parseColor value).map toHex

/-! ### The radius -/

/-- `s.replace(/rem$/i, '')`. -/
def dropRem (s : List Char) : List Char :=
  match s.reverse with
  | m :: e :: r :: rest =>
    if (r = 'r' ∨ r = 'R') ∧ (e = 'e' ∨ e = 'E') ∧ (m = 'm' ∨ m = 'M') then rest.reverse else s
  | _ => s

/-- The number a stored radius stands for. -/
def radiusNumber : Option Json → Number
  | some (.num raw) => raw
  | some (.str value) => parseFloat (dropRem (trim value.toList))
  | _ => .nan

/-- A radius between 0 and 2, in thousandths. -/
def normalizeRadius (value : Option Json) : Option String :=
  match radiusNumber value with
  | .finite raw =>
    if raw < 0 ∨ 2 < raw then none
    else
      some (String.ofList (thousandthsText (Js.round (toDouble (raw * 1000))).toNat ++
        "rem".toList))
  | _ => none

/-! ### Derived colours -/

section Tokens

variable (pow : ℚ → ℚ → ℚ)

/-- Perceived brightness. -/
def luminance (color : Rgb) : ℚ :=
  let channel (value : ℚ) : ℚ :=
    let scaled := value / 255
    if scaled ≤ 0.03928 then scaled / 12.92 else pow ((scaled + 0.055) / 1.055) 2.4
  0.2126 * channel color.r + 0.7152 * channel color.g + 0.0722 * channel color.b

/-- Text that stays readable on a colour. -/
def readableOn (color : Rgb) : String :=
  if 0.45 < luminance pow color then "#14161a" else "#ffffff"

/-- A colour between two, `amount` of the way. -/
def mix (a b : Rgb) (amount : ℚ) : Rgb where
  r := a.r + (b.r - a.r) * amount
  g := a.g + (b.g - a.g) * amount
  b := a.b + (b.b - a.b) * amount

/-! ### Reading and resolving -/

/-- `value === name`. -/
def isText (value : Option Json) (name : String) : Bool := value.bind Json.string? = some name

/-- Reads `theme_json` into the editable shape. -/
def parseTheme : Json → ThemeSettings
  | .obj fields =>
    let record (key : String) : Option Json := (Json.obj fields).get? key
    let preset := THEME_PRESETS.find? fun preset => isText (record "preset") preset.name
    { preset := preset.getD DEFAULT_PRESET
      brand := normalizeColor (record "brand")
      accent := normalizeColor (record "accent")
      background := normalizeColor (record "background")
      radius := normalizeRadius (record "radius") }
  | _ => DEFAULT_THEME

/-- A page background moves the text and everything between them. -/
def withBackground (background : Rgb) (tokens : TokenMap) : TokenMap :=
  let text := (parseColor (some (.str (readableOn pow background)))).getD ⟨0, 0, 0⟩
  fun
    | .background => toHex background
    | .card => toHex (mix background text 0.04)
    | .foreground => toHex text
    | .cardForeground => toHex text
    | .muted => toHex (mix background text 0.07)
    | .mutedForeground => toHex (mix background text 0.55)
    | .border => toHex (mix background text 0.14)
    | token => tokens token

/-- The tokens that follow the brand colour. -/
def withBrand (brand : Rgb) (tokens : TokenMap) : TokenMap
  | .primary => toHex brand
  | .primaryForeground => readableOn pow brand
  | .ring => toHex brand
  | .secondaryForeground => toHex brand
  | token => tokens token

/-- The tokens that follow the accent colour. -/
def withAccent (accent : Rgb) (tokens : TokenMap) : TokenMap
  | .accent => toHex accent
  | .accentForeground => readableOn pow accent
  | token => tokens token

/-- The token of the corner radius. -/
def withRadius (radius : String) (tokens : TokenMap) : TokenMap
  | .radius => radius
  | token => tokens token

/-- `apply` when the value is there. -/
def overridden {α : Type} (value : Option α) (apply : α → TokenMap → TokenMap)
    (tokens : TokenMap) : TokenMap :=
  match value with
  | none => tokens
  | some value => apply value tokens

/-- The full token set: the preset, with the overrides applied and what depends on them derived. -/
def resolveTokens (settings : ThemeSettings) : TokenMap :=
  let colour (value : Option String) : Option Rgb := parseColor (value.map .str)
  let tokens := PRESETS settings.preset
  let tokens := overridden (colour settings.background) (withBackground pow) tokens
  let tokens := overridden (colour settings.brand) (withBrand pow) tokens
  let tokens := overridden (colour settings.accent) (withAccent pow) tokens
  overridden (settings.radius.filter (· ≠ "")) withRadius tokens

/-- `[a-z0-9:;{}#.\-, \n]`, in either case. -/
def isSafeCss (c : Char) : Bool :=
  isLowerAlnum c || ('A' ≤ c && c ≤ 'Z') ||
    c ∈ [':', ';', '\x7b', '\x7d', '#', '.', '-', ',', ' ', '\n']

/-- `SAFE_CSS.test(css)`. -/
def SAFE_CSS (css : String) : Bool := css.toList.all isSafeCss

/-- The style sheet that declares every token. -/
def declarations (tokens : TokenMap) : String :=
  let declared := THEME_TOKENS.map fun token => "--" ++ token.name ++ ":" ++ tokens token
  ":root\x7b" ++ ";".intercalate declared ++ "\x7d"

/-- The stylesheet of an institute. -/
def themeCss (settings : ThemeSettings) : String :=
  let css := declarations (resolveTokens pow settings)
  if SAFE_CSS css then css else declarations (PRESETS DEFAULT_PRESET)

end Tokens

/-- A field that is left out when there is no text for it. -/
def optionalField (key : String) (value : Option String) : List (String × Json) :=
  match value with
  | none => []
  | some text => if text = "" then [] else [(key, .str text)]

/-- What is stored. -/
def serializeTheme (settings : ThemeSettings) : Json :=
  .obj (("preset", .str settings.preset.name) :: (optionalField "brand" settings.brand ++
    optionalField "accent" settings.accent ++ optionalField "background" settings.background ++
    optionalField "radius" settings.radius))

end LampLight
