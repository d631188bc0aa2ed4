import LampLight.Markdown.Render

/-!
# Spans keep their text and link to the web

A token is found by one expression, told apart by its first characters, and taken apart by slices or
by a second expression. Putting its delimiters back gives the token, whichever way it went. What is
rendered is from a fixed set of elements, and an anchor points where its scheme says `http` or
`https`.

## Main definitions

* `ReactNode.typed` — a node as it was typed
* `ReactNode.elements`, `AllowedElement` — the elements of a node, and those that may occur

## Main results

* `renderToken_typed`, `renderInline_typed` — what is typed is rendered
* `renderInline_allowed` — nothing else is
-/

namespace LampLight

open Js
open Pattern (Regex Hit)
open Pattern.Regex (atStart_eq_some exists_whole reads_between reads_between_two reads_one reads_opt
  reads_plus reads_seqs_cons_of_bare reads_word scan_reads scan_text whole_eq_some)

/-! ### Putting the delimiters back -/

namespace ReactNode

/-- The text of a node that is only text. -/
def plain : ReactNode → List Char
  | text s => s
  | _ => []

/-- A text as it is, and a span with its delimiters. -/
def typed : ReactNode → List Char
  | null => []
  | text s => s
  | element type _ props children =>
    let inside := children.flatMap plain
    if type = "strong" then ['*', '*'] ++ inside ++ ['*', '*']
    else if type = "em" then ['*'] ++ inside ++ ['*']
    else if type = "code" then ['\x60'] ++ inside ++ ['\x60']
    else if type = "a" then
      ['['] ++ inside ++ [']', '('] ++ props.href.getD [] ++ [')']
    else inside

end ReactNode

theorem typed_text (s : List Char) : (ReactNode.text s).typed = s := rfl

theorem inner_append (n : ℕ) (left s right : List Char) (hl : left.length = n)
    (hr : right.length = n) : inner n (left ++ s ++ right) = s := by
  have hdrop : (left ++ (s ++ right)).drop n = s ++ right := List.drop_left' hl
  have hlength : (left ++ (s ++ right)).length - 2 * n = s.length := by
    simp only [List.length_append]
    omega
  rw [inner, List.append_assoc, hdrop, hlength, List.take_left]

/-- What the expression finds. -/
inductive Token : List Char → Prop
  | strong (s : List Char) : Token (['*', '*'] ++ s ++ ['*', '*'])
  | em {s : List Char} : (∀ c ∈ s, c ≠ '*') → s ≠ [] → Token (['*'] ++ s ++ ['*'])
  | code (s : List Char) : Token (['\x60'] ++ s ++ ['\x60'])
  | link {label href token : List Char} : linkPattern.Reads token [label, href] → Token token

theorem linkPattern_reads {m : List Char} {g : List (List Char)} :
    linkPattern.Reads m g ↔ ∃ label href, ((∀ c ∈ label, c ≠ ']') ∧ label ≠ []) ∧
      ((∀ c ∈ href, isLinkChar c = true) ∧ href ≠ []) ∧
      m = ['['] ++ label ++ [']', '('] ++ href ++ [')'] ∧ g = [label, href] := by
  rw [linkPattern, reads_between_two]
  simp only [Regex.Reads, reads_plus]
  constructor
  · rintro ⟨label, href, _, _, ⟨_, ⟨⟨hlabel, hne⟩, rfl⟩, rfl⟩,
      ⟨_, ⟨⟨hhref, hne'⟩, rfl⟩, rfl⟩, rfl, rfl⟩
    exact ⟨label, href, ⟨by simpa using hlabel, hne⟩, ⟨hhref, hne'⟩, rfl, rfl⟩
  · rintro ⟨label, href, ⟨hlabel, hne⟩, ⟨hhref, hne'⟩, rfl, rfl⟩
    exact ⟨label, href, [label], [href], ⟨[], ⟨⟨by simpa using hlabel, hne⟩, rfl⟩, rfl⟩,
      ⟨[], ⟨⟨hhref, hne'⟩, rfl⟩, rfl⟩, rfl, rfl⟩

theorem token_of_reads {m : List Char} {g : List (List Char)} (h : inlinePattern.Reads m g) :
    Token m := by
  rcases h with ⟨g, h, rfl⟩ | ⟨g, h, rfl⟩ | ⟨g, h, rfl⟩ | ⟨g, h, rfl⟩
  · obtain ⟨s, -, rfl⟩ := reads_between.mp h
    exact Token.strong s
  · obtain ⟨s, hs, rfl⟩ := reads_between.mp h
    obtain ⟨⟨hs, hne⟩, -⟩ := reads_plus.mp hs
    exact Token.em (by simpa using hs) hne
  · obtain ⟨s, -, rfl⟩ := reads_between.mp h
    exact Token.code s
  · obtain ⟨label, href, _, _, hlabel, hhref, rfl, -⟩ := reads_between_two.mp h
    obtain ⟨⟨hlabel, hne⟩, -⟩ := reads_plus.mp hlabel
    obtain ⟨⟨hhref, hne'⟩, -⟩ := reads_plus.mp hhref
    exact Token.link (linkPattern_reads.mpr
      ⟨label, href, ⟨by simpa using hlabel, hne⟩, ⟨hhref, hne'⟩, rfl, rfl⟩)

/-- The second expression takes a link apart as the first one put it together. -/
theorem whole_linkPattern {token label href : List Char}
    (h : linkPattern.Reads token [label, href]) :
    ∃ found, linkPattern.whole token = some found ∧
      ∃ label href, found.groups = [label, href] ∧
        token = ['['] ++ label ++ [']', '('] ++ href ++ [')'] := by
  obtain ⟨found, hfound⟩ := exists_whole h
  obtain ⟨label, href, -, -, htoken, hgroups⟩ := linkPattern_reads.mp (whole_eq_some hfound)
  exact ⟨found, hfound, label, href, hgroups, htoken⟩

/-- **A token is rendered to what was typed.** -/
theorem renderToken_typed (key : ℕ) {token : List Char} (h : Token token) :
    (renderToken key token).1.typed = token := by
  cases h with
  | strong s =>
    rw [renderToken, if_pos (by simp), inner_append 2 ['*', '*'] s ['*', '*'] rfl rfl]
    simp [ReactNode.typed, ReactNode.plain]
  | @em s hs hne =>
    obtain ⟨c, s, rfl⟩ := List.exists_cons_of_ne_nil hne
    have hc : ¬ '*' = c := (hs c (List.mem_cons_self ..)).symm
    rw [renderToken, if_neg (by simp [hc]), if_neg (by simp), if_neg (by simp),
      inner_append 1 ['*'] (c :: s) ['*'] rfl rfl]
    simp [ReactNode.typed, ReactNode.plain]
  | code s =>
    rw [renderToken, if_neg (by simp), if_pos (by simp),
      inner_append 1 ['\x60'] s ['\x60'] rfl rfl]
    simp [ReactNode.typed, ReactNode.plain]
  | link hlink =>
    obtain ⟨found, hfound, label, href, hgroups, rfl⟩ := whole_linkPattern hlink
    rw [renderToken, if_neg (by simp), if_neg (by simp), if_pos (by simp), hfound]
    simp only [Option.bind_some, hgroups]
    split_ifs
    · simp [ReactNode.typed, ReactNode.plain]
    · rfl

theorem renderMatch_foldl_typed {hits : List (Hit Char)} (h : ∀ hit ∈ hits, Token hit.text)
    (pushed : List ReactNode × ℕ) :
    (hits.foldl renderMatch pushed).1.flatMap ReactNode.typed
      = pushed.1.flatMap ReactNode.typed ++ hits.flatMap fun hit => hit.before ++ hit.text := by
  induction hits generalizing pushed with
  | nil => simp
  | cons hit hits ih =>
    have hfirst : (renderMatch pushed hit).1.flatMap ReactNode.typed
        = pushed.1.flatMap ReactNode.typed ++ (hit.before ++ hit.text) := by
      have htoken := renderToken_typed pushed.2 (h hit (List.mem_cons_self ..))
      rw [renderMatch]
      split_ifs with hbefore
      · simp [htoken, typed_text]
      · simp [htoken, not_not.mp hbefore]
    rw [List.foldl_cons, ih fun later hlater => h later (List.mem_cons_of_mem _ hlater), hfirst,
      List.flatMap_cons, List.append_assoc]

/-- **The spans of a text are the text.** -/
theorem renderInline_typed (text : List Char) :
    (renderInline text).flatMap ReactNode.typed = text := by
  have htokens : ∀ hit ∈ (inlinePattern.scan inlinePattern_least text).1, Token hit.text :=
    fun hit hmem => token_of_reads (scan_reads inlinePattern_least text hit hmem)
  have hfold := renderMatch_foldl_typed htokens ([], 0)
  have htext := scan_text inlinePattern_least text
  rw [renderInline]
  split_ifs with hlast
  · rw [List.flatMap_append, hfold]
    simpa [typed_text] using htext
  · rw [not_not.mp hlast] at htext
    rw [hfold]
    simpa using htext

/-! ### The elements -/

namespace ReactNode

/-- The elements of a node, from the outside in. -/
def elements : ReactNode → List (String × Props)
  | null => []
  | text _ => []
  | element type _ props children => (type, props) :: elementsOf children
where
  elementsOf : List ReactNode → List (String × Props)
    | [] => []
    | node :: nodes => node.elements ++ elementsOf nodes

theorem mem_elementsOf {nodes : List ReactNode} {e : String × Props} :
    e ∈ elements.elementsOf nodes ↔ ∃ node ∈ nodes, e ∈ node.elements := by
  induction nodes with
  | nil => simp [elements.elementsOf]
  | cons node nodes ih => simp [elements.elementsOf, ih]

end ReactNode

/-- Only these elements, and an anchor only to where `http` or `https` is spoken. -/
structure AllowedElement (e : String × Props) : Prop where
  type : e.1 ∈ ["p", "h2", "h3", "h4", "h5", "ul", "ol", "li", "strong", "em", "code", "a"]
  link : e.1 = "a" → ∃ scheme rest, e.2.href = some (scheme ++ rest) ∧
    (toLowerCase scheme = "http://".toList ∨ toLowerCase scheme = "https://".toList)

/-- No other element in the node. -/
def ReactNode.Allowed (node : ReactNode) : Prop := ∀ e ∈ node.elements, AllowedElement e

theorem allowed_text (s : List Char) : (ReactNode.text s).Allowed := by
  rintro e ⟨⟩

theorem allowed_element {type : String} {key : ℕ} {props : Props} {children : List ReactNode}
    (h : AllowedElement (type, props)) (hchildren : ∀ child ∈ children, child.Allowed) :
    (ReactNode.element type key props children).Allowed := by
  intro e he
  rcases List.mem_cons.mp he with rfl | he
  · exact h
  · obtain ⟨child, hchild, hmem⟩ := ReactNode.mem_elementsOf.mp he
    exact hchildren child hchild e hmem

theorem toLowerCase_letter {lower upper c : Char} (hlower : toLowerCase [lower] = [lower])
    (hupper : toLowerCase [upper] = [lower]) (hc : (c = lower || c = upper) = true) :
    toLowerCase [c] = [lower] := by
  rcases (Bool.or_eq_true _ _).mp hc with hc | hc
  · rw [of_decide_eq_true hc, hlower]
  · rw [of_decide_eq_true hc, hupper]

/-- A letter in either case, in front of what else is read. -/
theorem reads_letter {lower upper : Char} {rs : List (Regex Char)} {m : List Char}
    {g : List (List Char)} (hlower : toLowerCase [lower] = [lower])
    (hupper : toLowerCase [upper] = [lower])
    (h : (Regex.seqs (Regex.one (fun c => c = lower || c = upper) :: rs)).Reads m g) :
    ∃ m', (Regex.seqs rs).Reads m' g ∧ toLowerCase m = lower :: toLowerCase m' := by
  rw [reads_seqs_cons_of_bare fun _ _ => reads_one] at h
  obtain ⟨_, m', ⟨c, hc, rfl⟩, hrest, rfl⟩ := h
  refine ⟨m', hrest, ?_⟩
  rw [toLowerCase_append, toLowerCase_letter hlower hupper hc]
  rfl

theorem safeLink_reads {m : List Char} {g : List (List Char)} (h : SAFE_LINK.Reads m g) :
    toLowerCase m = "http://".toList ∨ toLowerCase m = "https://".toList := by
  obtain ⟨_, h, hm⟩ := reads_letter (by decide) (by decide) h
  obtain ⟨_, h, hm₁⟩ := reads_letter (by decide) (by decide) h
  obtain ⟨_, h, hm₂⟩ := reads_letter (by decide) (by decide) h
  obtain ⟨_, h, hm₃⟩ := reads_letter (by decide) (by decide) h
  rw [reads_seqs_cons_of_bare fun _ _ => reads_opt] at h
  obtain ⟨_, _, hs, h, rfl⟩ := h
  rw [reads_seqs_cons_of_bare fun _ _ => reads_word] at h
  obtain ⟨_, _, rfl, ⟨rfl, -⟩, rfl⟩ := h
  rw [hm, hm₁, hm₂, hm₃, toLowerCase_append]
  rcases hs with rfl | ⟨c, hc, rfl⟩
  · exact Or.inl (by decide)
  · rw [toLowerCase_letter (by decide) (by decide) hc]
    exact Or.inr (by decide)

/-- Whatever a token is taken for, the element is one of five, and an anchor has passed the test. -/
theorem renderToken_allowed (key : ℕ) (token : List Char) : (renderToken key token).1.Allowed := by
  have hchild : ∀ s : List Char, ∀ child ∈ [ReactNode.text s], child.Allowed := by
    intro s child hmem
    rw [List.mem_singleton.mp hmem]
    exact allowed_text s
  rw [renderToken]
  split_ifs with hstrong hcode hlink
  · exact allowed_element ⟨by simp, by simp⟩ (hchild _)
  · exact allowed_element ⟨by simp, by simp⟩ (hchild _)
  · dsimp only
    split_ifs with hsafe
    · refine allowed_element ⟨by simp, fun _ => ?_⟩ (hchild _)
      obtain ⟨found, hfound⟩ := Option.isSome_iff_exists.mp hsafe
      obtain ⟨htext, hreads⟩ := atStart_eq_some hfound
      exact ⟨found.text, found.rest, congrArg some htext, safeLink_reads hreads⟩
    · exact allowed_text token
  · exact allowed_element ⟨by simp, by simp⟩ (hchild _)

theorem renderMatch_foldl_allowed (hits : List (Hit Char)) {pushed : List ReactNode × ℕ}
    (h : ∀ node ∈ pushed.1, node.Allowed) :
    ∀ node ∈ (hits.foldl renderMatch pushed).1, node.Allowed := by
  induction hits generalizing pushed with
  | nil => exact h
  | cons hit hits ih =>
    refine ih ?_
    rw [renderMatch]
    split_ifs
    · simpa [or_imp, forall_and, allowed_text, renderToken_allowed] using h
    · simpa [or_imp, forall_and, renderToken_allowed] using h

/-- **Only spans are rendered, and only links to the web.** -/
theorem renderInline_allowed (text : List Char) : ∀ node ∈ renderInline text, node.Allowed := by
  have hfold : ∀ node ∈ ((inlinePattern.scan inlinePattern_least text).1.foldl renderMatch
      ([], 0)).1, node.Allowed :=
    renderMatch_foldl_allowed _ fun node hmem => absurd hmem List.not_mem_nil
  rw [renderInline]
  split_ifs
  · simpa [or_imp, forall_and, allowed_text] using hfold
  · exact hfold

end LampLight
