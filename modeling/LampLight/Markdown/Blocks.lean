import LampLight.Markdown.Spans

/-!
# A source is rendered whole

What is rendered of a source are the spans of some texts, and these texts are the source without
white space and without the markers in front of headings and list lines.

## Main definitions

* `ReactNode.handed` — the spans in a block, text by text
* `BlockTexts` — what is left of a block
* `LeftOf` — what is left of a source

## Main results

* `handed_renderBlock` — a block is rendered to the spans of what is left of it
* `renderBlock_allowed` — and to nothing else
* `markdown_safe` — a source is rendered whole, to allowed elements
-/

namespace LampLight

open Js
open Pattern (Erases Joined Regex)
open Pattern.Regex (atStart_eq_some erases_replaceAll joined_split reads_one reads_plus
  reads_seqs_cons reads_seqs_cons_of_bare reads_star reads_word whole_eq_some)

/-! ### What is left of a source -/

/-- Nothing but white space. -/
def WhiteSpace (s : List Char) : Prop := ∀ c ∈ s, isSpace c = true

/-- `#`, `##`, `###` or `####`. -/
def HeadingMarker (m : List Char) : Prop := (∀ c ∈ m, c = '#') ∧ 1 ≤ m.length ∧ m.length ≤ 4

/-- `-` or `*`. -/
def BulletMarker (m : List Char) : Prop := ∃ c, (c = '-' ∨ c = '*') ∧ m = [c]

/-- Digits, and `.` or `)`. -/
def NumberMarker (m : List Char) : Prop :=
  ∃ digits c, (∀ d ∈ digits, isDigit d = true) ∧ digits ≠ [] ∧ (c = '.' ∨ c = ')') ∧
    m = digits ++ [c]

/-- The line is an item: a marker with white space around it, and the text. -/
def ItemText (Marker : List Char → Prop) (line text : List Char) : Prop :=
  ∃ indent marker gap, WhiteSpace indent ∧ Marker marker ∧ WhiteSpace gap ∧ gap ≠ [] ∧
    line = indent ++ marker ++ gap ++ text

/-- The lines of a list, one item each. -/
def ListTexts (Marker : List Char → Prop) (block : List Char) (texts : List (List Char)) : Prop :=
  ∃ lines, Joined (· = ['\n']) lines block ∧ List.Forall₂ (ItemText Marker) lines texts

/-- What is left of a block that starts and ends with no white space. -/
inductive TrimmedTexts (block : List Char) : List (List Char) → Prop
  | blank : block = [] → TrimmedTexts block []
  | paragraph : TrimmedTexts block [block]
  | heading {marker gap text : List Char} : HeadingMarker marker → WhiteSpace gap → gap ≠ [] →
      block = marker ++ gap ++ text → TrimmedTexts block [text]
  | bullets {texts : List (List Char)} : ListTexts BulletMarker block texts →
      TrimmedTexts block texts
  | numbers {texts : List (List Char)} : ListTexts NumberMarker block texts →
      TrimmedTexts block texts

/-- What is left of a block. -/
def BlockTexts (block : List Char) (texts : List (List Char)) : Prop :=
  ∃ left trimmed right, WhiteSpace left ∧ WhiteSpace right ∧ block = left ++ trimmed ++ right ∧
    TrimmedTexts trimmed texts

/-- What is left of a source: white space may be gone everywhere, blank lines separate the blocks,
and each block leaves its texts. -/
def LeftOf (source : List Char) (texts : List (List Char)) : Prop :=
  ∃ unix blocks kept, Erases (isSpace · = true) source unix ∧
    Joined (fun m => 2 ≤ m.length ∧ ∀ c ∈ m, c = '\n') blocks unix ∧
    List.Forall₂ BlockTexts blocks kept ∧ texts = kept.flatten

/-! ### What the expressions of the blocks read -/

theorem exists_trim (s : List Char) :
    ∃ left right, WhiteSpace left ∧ WhiteSpace right ∧ s = left ++ trim s ++ right := by
  refine ⟨s.takeWhile isSpace, (s.dropWhile isSpace).rtakeWhile isSpace, ?_, ?_, ?_⟩
  · exact fun c hc => List.mem_takeWhile_imp hc
  · exact fun c hc => List.mem_rtakeWhile_imp hc
  · rw [List.append_assoc, trim, List.rdropWhile_append_rtakeWhile, List.takeWhile_append_dropWhile]

theorem headingPattern_reads {m : List Char} {g : List (List Char)}
    (h : headingPattern.Reads m g) :
    ∃ marker gap text, HeadingMarker marker ∧ WhiteSpace gap ∧ gap ≠ [] ∧
      m = marker ++ gap ++ text ∧ g = [marker, text] := by
  rw [headingPattern, reads_seqs_cons] at h
  obtain ⟨marker, _, _, _, ⟨_, ⟨hmarker, hfew, hmost, rfl⟩, rfl⟩, h, rfl, rfl⟩ := h
  rw [reads_seqs_cons_of_bare fun _ _ => reads_plus] at h
  obtain ⟨gap, _, ⟨hgap, hne⟩, h, rfl⟩ := h
  obtain ⟨text, _, _, _, ⟨_, htext, rfl⟩, ⟨rfl, rfl⟩, rfl, rfl⟩ := h
  obtain ⟨-, rfl⟩ := reads_star.mp htext
  refine ⟨marker, gap, text, ⟨by simpa using hmarker, hfew, hmost 4 rfl⟩, hgap, hne, ?_, rfl⟩
  simp

theorem bulletPattern_reads {m : List Char} {g : List (List Char)} (h : bulletPattern.Reads m g) :
    ∃ indent marker gap, WhiteSpace indent ∧ BulletMarker marker ∧ WhiteSpace gap ∧ gap ≠ [] ∧
      m = indent ++ marker ++ gap := by
  rw [bulletPattern, reads_seqs_cons_of_bare fun _ _ => reads_star] at h
  obtain ⟨indent, _, hindent, h, rfl⟩ := h
  rw [reads_seqs_cons_of_bare fun _ _ => reads_one] at h
  obtain ⟨_, _, ⟨c, hc, rfl⟩, h, rfl⟩ := h
  rw [reads_seqs_cons_of_bare fun _ _ => reads_plus] at h
  obtain ⟨gap, _, ⟨hgap, hne⟩, ⟨rfl, -⟩, rfl⟩ := h
  refine ⟨indent, [c], gap, hindent, ⟨c, by simpa using hc, rfl⟩, hgap, hne, ?_⟩
  simp

theorem numberPattern_reads {m : List Char} {g : List (List Char)} (h : numberPattern.Reads m g) :
    ∃ indent marker gap, WhiteSpace indent ∧ NumberMarker marker ∧ WhiteSpace gap ∧ gap ≠ [] ∧
      m = indent ++ marker ++ gap := by
  rw [numberPattern, reads_seqs_cons_of_bare fun _ _ => reads_star] at h
  obtain ⟨indent, _, hindent, h, rfl⟩ := h
  rw [reads_seqs_cons_of_bare fun _ _ => reads_plus] at h
  obtain ⟨digits, _, ⟨hdigits, hne⟩, h, rfl⟩ := h
  rw [reads_seqs_cons_of_bare fun _ _ => reads_one] at h
  obtain ⟨_, _, ⟨c, hc, rfl⟩, h, rfl⟩ := h
  rw [reads_seqs_cons_of_bare fun _ _ => reads_plus] at h
  obtain ⟨gap, _, ⟨hgap, hne'⟩, ⟨rfl, -⟩, rfl⟩ := h
  refine ⟨indent, digits ++ [c], gap, hindent, ⟨digits, c, hdigits, hne, by simpa using hc, rfl⟩,
    hgap, hne', ?_⟩
  simp

/-- A list whose lines all pass the test leaves the lines without what the test read. -/
theorem listTexts_of_all {Marker : List Char → Prop} {marker : Regex Char} {block : List Char}
    (hmarker : ∀ m g, marker.Reads m g → ∃ indent mark gap, WhiteSpace indent ∧ Marker mark ∧
      WhiteSpace gap ∧ gap ≠ [] ∧ m = indent ++ mark ++ gap)
    (h : ((block.splitOn '\n').all fun line => (marker.atStart line).isSome) = true) :
    ListTexts Marker block ((block.splitOn '\n').map marker.removeStart) := by
  refine ⟨block.splitOn '\n', ?_, ?_⟩
  · have hjoined : Joined (· = ['\n']) (block.splitOn '\n')
        (['\n'].intercalate (block.splitOn '\n')) := by
      refine Pattern.joined_intercalate ?_ (List.splitOn_ne_nil '\n' block)
      rfl
    rwa [List.intercalate_splitOn] at hjoined
  · rw [List.forall₂_map_right_iff, List.forall₂_same]
    intro line hline
    obtain ⟨found, hfound⟩ := Option.isSome_iff_exists.mp (List.all_eq_true.mp h line hline)
    obtain ⟨hline, hreads⟩ := atStart_eq_some hfound
    obtain ⟨indent, mark, gap, hindent, hmark, hgap, hne, htext⟩ := hmarker _ _ hreads
    refine ⟨indent, mark, gap, hindent, hmark, hgap, hne, ?_⟩
    rw [Regex.removeStart, hfound, ← htext]
    exact hline

/-! ### What is handed to the search for spans -/

namespace ReactNode

/-- What an element contains. -/
def children : ReactNode → List ReactNode
  | element _ _ _ children => children
  | _ => []

/-- The spans in a block, text by text: those of each item of a list, and those of any other
element. -/
def handed : ReactNode → List (List ReactNode)
  | element type _ _ children =>
    if type = "ul" ∨ type = "ol" then children.map ReactNode.children else [children]
  | _ => []

end ReactNode

theorem map_mapIdx_of_forall {α β γ : Type*} {f : ℕ → α → β} {g : β → γ} {h : α → γ}
    (hf : ∀ i a, g (f i a) = h a) (l : List α) : (l.mapIdx f).map g = l.map h := by
  induction l generalizing f with
  | nil => rfl
  | cons a l ih => rw [List.mapIdx_cons, List.map_cons, List.map_cons, hf, ih fun i => hf (i + 1)]

theorem headingTag_mem (level : ℕ) : headingTag level ∈ ["h2", "h3", "h4", "h5"] := by
  rw [headingTag]
  cases h : ["h2", "h3", "h4", "h5"][level - 1]? with
  | none => simp
  | some tag => exact List.mem_of_getElem? h

/-- The tag of a heading is not that of a list. -/
theorem handed_heading (level index : ℕ) (props : Props) (children : List ReactNode) :
    (ReactNode.element (headingTag level) index props children).handed = [children] := by
  have htag : ∀ tag ∈ ["h2", "h3", "h4", "h5"], ¬ (tag = "ul" ∨ tag = "ol") := by decide
  rw [ReactNode.handed, if_neg (htag _ (headingTag_mem level))]

/-- **A block is rendered to the spans of what is left of it.** -/
theorem handed_renderBlock (index : ℕ) (block : List Char) :
    ∃ texts, BlockTexts block texts ∧
      (renderBlock index block).handed = texts.map renderInline := by
  obtain ⟨left, right, hleft, hright, hblock⟩ := exists_trim block
  suffices h : ∃ texts, TrimmedTexts (trim block) texts ∧
      (renderBlock index block).handed = texts.map renderInline by
    obtain ⟨texts, htexts, hhanded⟩ := h
    exact ⟨texts, ⟨left, trim block, right, hleft, hright, hblock, htexts⟩, hhanded⟩
  have hitems : ∀ (marker : Regex Char) (lines : List (List Char)),
      (lines.mapIdx (listItem marker)).map ReactNode.children
        = (lines.map marker.removeStart).map renderInline := by
    intro marker lines
    rw [List.map_map]
    exact map_mapIdx_of_forall (f := listItem marker) (fun _ _ => rfl) lines
  rw [renderBlock]
  by_cases hempty : trim block = []
  · rw [if_pos hempty]
    exact ⟨[], TrimmedTexts.blank hempty, rfl⟩
  rw [if_neg hempty]
  cases hheading : headingPattern.whole (trim block) with
  | some heading =>
    obtain ⟨marker, gap, text, hmarker, hgap, hne, htrim, hgroups⟩ :=
      headingPattern_reads (whole_eq_some hheading)
    refine ⟨[text], TrimmedTexts.heading hmarker hgap hne htrim, ?_⟩
    dsimp only
    rw [handed_heading, hgroups]
    rfl
  | none =>
    dsimp only
    split_ifs with hbullets hnumbers
    · exact ⟨_, TrimmedTexts.bullets (listTexts_of_all (fun _ _ => bulletPattern_reads) hbullets),
        hitems _ _⟩
    · exact ⟨_, TrimmedTexts.numbers (listTexts_of_all (fun _ _ => numberPattern_reads) hnumbers),
        hitems _ _⟩
    · exact ⟨[trim block], TrimmedTexts.paragraph, rfl⟩

/-- The blocks one after the other. -/
theorem handed_mapIdx {f : ℕ → List Char → ReactNode}
    (hf : ∀ i block, ∃ texts, BlockTexts block texts ∧ (f i block).handed = texts.map renderInline)
    (blocks : List (List Char)) :
    ∃ kept, List.Forall₂ BlockTexts blocks kept ∧
      (blocks.mapIdx f).flatMap ReactNode.handed = kept.flatten.map renderInline := by
  induction blocks generalizing f with
  | nil => exact ⟨[], List.Forall₂.nil, rfl⟩
  | cons block blocks ih =>
    obtain ⟨texts, htexts, hhanded⟩ := hf 0 block
    obtain ⟨kept, hkept, hrest⟩ := ih fun i => hf (i + 1)
    refine ⟨texts :: kept, List.Forall₂.cons htexts hkept, ?_⟩
    rw [List.mapIdx_cons, List.flatMap_cons, hhanded, hrest, List.flatten_cons, List.map_append]

theorem leftOf_of_blocks {source unix : List Char} {kept : List (List (List Char))}
    (hunix : unix = crlfPattern.replaceAll crlfPattern_least ['\n'] source)
    (hkept : List.Forall₂ BlockTexts (blankLines.split blankLines_least unix) kept) :
    LeftOf source kept.flatten := by
  refine ⟨unix, _, kept, ?_, joined_split ?_ unix, hkept, rfl⟩
  · rw [hunix]
    refine erases_replaceAll ?_ source
    intro m g h
    obtain ⟨rfl, -⟩ := reads_word.mp h
    exact Erases.drop (by decide) (Erases.refl _)
  · rintro m g ⟨hnewline, hfew, -, -⟩
    exact ⟨hfew, by simpa using hnewline⟩

/-! ### The elements of a block -/

theorem mapIdx_allowed {f : ℕ → List Char → ReactNode} (hf : ∀ i s, (f i s).Allowed)
    (l : List (List Char)) : ∀ node ∈ l.mapIdx f, node.Allowed := by
  intro node hnode
  obtain ⟨i, hi, rfl⟩ := List.mem_mapIdx.mp hnode
  exact hf i _

theorem listItem_allowed (marker : Regex Char) (item : ℕ) (line : List Char) :
    (listItem marker item line).Allowed :=
  allowed_element ⟨by simp, by simp⟩ (renderInline_allowed _)

theorem headingTag_allowed (level : ℕ) (props : Props) :
    AllowedElement (headingTag level, props) := by
  have htag : ∀ tag ∈ ["h2", "h3", "h4", "h5"],
      tag ∈ ["p", "h2", "h3", "h4", "h5", "ul", "ol", "li", "strong", "em", "code", "a"] ∧
        tag ≠ "a" := by
    decide
  obtain ⟨hmem, hne⟩ := htag _ (headingTag_mem level)
  exact ⟨hmem, fun h => absurd h hne⟩

/-- A block is rendered to one element around spans, or around items, or to none. -/
theorem renderBlock_allowed (index : ℕ) (block : List Char) :
    (renderBlock index block).Allowed := by
  rw [renderBlock]
  by_cases hempty : trim block = []
  · rw [if_pos hempty]
    rintro e ⟨⟩
  rw [if_neg hempty]
  cases headingPattern.whole (trim block) with
  | some heading => exact allowed_element (headingTag_allowed _ _) (renderInline_allowed _)
  | none =>
    dsimp only
    split_ifs
    · exact allowed_element ⟨by simp, by simp⟩ (mapIdx_allowed (listItem_allowed _) _)
    · exact allowed_element ⟨by simp, by simp⟩ (mapIdx_allowed (listItem_allowed _) _)
    · exact allowed_element ⟨by simp, by simp⟩ (renderInline_allowed _)

/-! ### A whole source -/

theorem leftOf_blank {source : List Char} (h : trim source = []) : LeftOf source [] := by
  obtain ⟨left, right, hleft, hright, hsource⟩ := exists_trim source
  refine ⟨source, [source], [[]], Erases.refl source, Joined.last source, ?_, rfl⟩
  exact List.forall₂_cons.mpr ⟨⟨left, [], right, hleft, hright, h ▸ hsource,
    TrimmedTexts.blank rfl⟩, List.Forall₂.nil⟩

/-- **A source is rendered whole**, and to nothing but the subset. Putting back the delimiters of
the spans of a text gives the text, after a search that goes round at most once for three
characters. What is handed to that search is the source without white space and without the markers
of headings and items. -/
theorem markdown_safe :
    (∀ text, (renderInline text).flatMap ReactNode.typed = text ∧
      3 * (inlinePattern.scan inlinePattern_least text).1.length ≤ text.length ∧
      ∀ node ∈ renderInline text, node.Allowed) ∧
    ∀ source : Option String,
      (∃ texts, LeftOf (source.getD "").toList texts ∧
        ((renderMarkdown source).getD []).flatMap ReactNode.handed = texts.map renderInline) ∧
      ∀ node ∈ (renderMarkdown source).getD [], node.Allowed := by
  refine ⟨fun text => ⟨renderInline_typed text, ?_, renderInline_allowed text⟩, fun source => ?_⟩
  · exact Regex.least_mul_scan_le inlinePattern_least text
  · cases source with
    | none => exact ⟨⟨[], leftOf_blank rfl, rfl⟩, fun node hnode => absurd hnode List.not_mem_nil⟩
    | some source =>
      rw [renderMarkdown]
      split_ifs with hblank
      · exact ⟨⟨[], leftOf_blank hblank, rfl⟩, fun node hnode => absurd hnode List.not_mem_nil⟩
      · obtain ⟨kept, hkept, hhanded⟩ := handed_mapIdx handed_renderBlock (blankLines.split
          blankLines_least (crlfPattern.replaceAll crlfPattern_least ['\n'] source.toList))
        exact ⟨⟨kept.flatten, leftOf_of_blocks rfl hkept, hhanded⟩,
          mapIdx_allowed renderBlock_allowed _⟩

end LampLight
