import LampLight.Foundation.JsText
import LampLight.Foundation.Pattern

/-!
# A small markdown subset

A course description is rendered to elements and never to markup. A source is split into blocks at
its blank lines, a block is a heading, a list or a paragraph, and the text of each of these is
searched for spans.

## Main definitions

* `ReactNode` — what is rendered
* `renderInline` — the spans of a text
* `renderMarkdown` — the blocks of a source
-/

namespace LampLight

open Js
open Pattern (Regex Hit)
open Pattern.Regex (alt group one opt plus rep seqs star word)

/-! ### Elements -/

/-- The properties that elements are given. -/
structure Props where
  className : Option String := none
  href : Option (List Char) := none
  rel : Option String := none
  target : Option String := none

/-- What rendering makes. -/
inductive ReactNode where
  | null
  | text (s : List Char)
  | element (type : String) (key : ℕ) (props : Props) (children : List ReactNode)

/-! ### Spans -/

/-- `/^https?:\/\//i`, but for the anchor. -/
def SAFE_LINK : Regex Char :=
  seqs [one fun c => c = 'h' || c = 'H', one fun c => c = 't' || c = 'T',
    one fun c => c = 't' || c = 'T', one fun c => c = 'p' || c = 'P',
    opt fun c => c = 's' || c = 'S', word [':', '/', '/']]

/-- `[^)\s]`. -/
def isLinkChar (c : Char) : Bool := !(c = ')' || isSpace c)

/-- `/(\*\*[^*]+\*\*)|(\*[^*]+\*)|(`[^`]+`)|(\[[^\]]+\]\([^)\s]+\))/`. -/
def inlinePattern : Regex Char :=
  -- `'\x60'` is the backtick
  alt (group (seqs [word ['*', '*'], plus fun c => c ≠ '*', word ['*', '*']]))
    (alt (group (seqs [word ['*'], plus fun c => c ≠ '*', word ['*']]))
      (alt (group (seqs [word ['\x60'], plus fun c => c ≠ '\x60', word ['\x60']]))
        (group (seqs [word ['['], plus fun c => c ≠ ']', word [']', '('], plus isLinkChar,
          word [')']]))))

/-- `/^\[([^\]]+)\]\(([^)\s]+)\)$/`, but for the anchors. -/
def linkPattern : Regex Char :=
  seqs [word ['['], group (plus fun c => c ≠ ']'), word [']', '('], group (plus isLinkChar),
    word [')']]

theorem inlinePattern_least : 0 < inlinePattern.least := by decide

/-- `s.slice(n, -n)`. -/
def inner (n : ℕ) (s : List Char) : List Char := (s.drop n).take (s.length - 2 * n)

/-- What is pushed for a token, and the next key. -/
def renderToken (key : ℕ) (token : List Char) : ReactNode × ℕ :=
  if ['*', '*'].isPrefixOf token then
    (.element "strong" key {} [.text (inner 2 token)], key + 1)
  else if ['\x60'].isPrefixOf token then
    (.element "code" key { className := some "rounded bg-black/5 px-1 py-0.5 text-sm" }
      [.text (inner 1 token)], key + 1)
  else if ['['].isPrefixOf token then
    let link := linkPattern.whole token
    let label := (link.bind fun found => found.groups[0]?).getD token
    let href := (link.bind fun found => found.groups[1]?).getD []
    if (SAFE_LINK.atStart href).isSome then
      (.element "a" key
        { href := some href
          rel := some "noopener noreferrer nofollow"
          target := some "_blank"
          className := some "underline underline-offset-4" }
        [.text label], key + 1)
    else
      -- what is no link is shown as it was typed
      (.text token, key)
  else (.element "em" key {} [.text (inner 1 token)], key + 1)

/-- One turn of the loop: what was pushed so far and the next key. -/
def renderMatch (pushed : List ReactNode × ℕ) (found : Hit Char) : List ReactNode × ℕ :=
  let out := if found.before ≠ [] then pushed.1 ++ [.text found.before] else pushed.1
  let node := renderToken pushed.2 found.text
  (out ++ [node.1], node.2)

/-- A text with its emphasis, code and links. -/
def renderInline (text : List Char) : List ReactNode :=
  let found := inlinePattern.scan inlinePattern_least text
  let out := (found.1.foldl renderMatch ([], 0)).1
  if found.2 ≠ [] then out ++ [.text found.2] else out

/-! ### Blocks -/

/-- `/\r\n/g`. -/
def crlfPattern : Regex Char := word ['\r', '\n']

/-- `/\n{2,}/`. -/
def blankLines : Regex Char := rep 2 none fun c => c = '\n'

/-- Line terminators, which `.` does not match. -/
def isLineEnd (c : Char) : Bool := c.toNat ∈ [10, 13, 8232, 8233]

/-- `/^(#{1,4})\s+(.*)$/`, but for the anchors. -/
def headingPattern : Regex Char :=
  seqs [group (rep 1 (some 4) fun c => c = '#'), plus isSpace, group (star fun c => !isLineEnd c)]

/-- `/^\s*[-*]\s+/`, but for the anchor. -/
def bulletPattern : Regex Char :=
  seqs [star isSpace, one fun c => c = '-' || c = '*', plus isSpace]

/-- `/^\s*\d+[.)]\s+/`, but for the anchor. -/
def numberPattern : Regex Char :=
  seqs [star isSpace, plus isDigit, one fun c => c = '.' || c = ')', plus isSpace]

theorem crlfPattern_least : 0 < crlfPattern.least := by decide

theorem blankLines_least : 0 < blankLines.least := by decide

/-- The style of a heading. -/
def headingClass (level : ℕ) : String :=
  if level = 1 then "text-2xl font-semibold tracking-tight"
  else if level = 2 then "text-xl font-semibold tracking-tight"
  else "text-base font-semibold"

/-- From a fixed set, whatever the level. -/
def headingTag (level : ℕ) : String := (["h2", "h3", "h4", "h5"][level - 1]?).getD "h5"

/-- A line of a list without its marker. -/
def listItem (marker : Regex Char) (item : ℕ) (line : List Char) : ReactNode :=
  .element "li" item {} (renderInline (marker.removeStart line))

/-- A heading, a list or a paragraph. -/
def renderBlock (index : ℕ) (block : List Char) : ReactNode :=
  let trimmed := trim block
  if trimmed = [] then .null
  else
    match headingPattern.whole trimmed with
    | some heading =>
      let level := (heading.groups[0]?.map List.length).getD 1
      let text := heading.groups[1]?.getD []
      .element (headingTag level) index { className := some (headingClass level) }
        (renderInline text)
    | none =>
      let lines := trimmed.splitOn '\n'
      if lines.all fun line => (bulletPattern.atStart line).isSome then
        .element "ul" index { className := some "list-disc pl-6" }
          (lines.mapIdx (listItem bulletPattern))
      else if lines.all fun line => (numberPattern.atStart line).isSome then
        .element "ol" index { className := some "list-decimal pl-6" }
          (lines.mapIdx (listItem numberPattern))
      else .element "p" index {} (renderInline trimmed)

/-- The blocks of a source. -/
def renderMarkdown (source : Option String) : Option (List ReactNode) :=
  match source with
  | none => none
  | some source =>
    if trim source.toList = [] then none
    else
      let unix := crlfPattern.replaceAll crlfPattern_least ['\n'] source.toList
      some ((blankLines.split blankLines_least unix).mapIdx renderBlock)

end LampLight
