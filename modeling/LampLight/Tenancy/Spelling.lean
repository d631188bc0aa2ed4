import LampLight.Tenancy.Host

/-!
# The spellings of a name

A header spells a name in any letter case, between spaces, with a trailing dot or without, and with
a port or without. Normalising takes every spelling to the name. It takes off one dot only, though,
and looks for two dots in a row only afterwards, so a text that ends in exactly two dots comes out
with one of them still on.

## Main definitions

* `CleanName`, `IsLiteral` — what a normalised host is meant to look like
* `Spells` — the headers that spell a name
* `EndsInTwoDots` — the headers that are normalised to something else

## Main results

* `normalizeChars_cases`, `normalizeChars_spells`, `normalizeChars_endsInTwoDots` — what normalising
  makes of a header, and of which
-/

namespace LampLight

open Js

/-! ### What a host looks like -/

/-- An address between brackets. -/
def IsLiteral (s : List Char) : Prop :=
  ∃ body, s = '[' :: (body ++ [']']) ∧ body ≠ [] ∧ ∀ c ∈ body, isLiteralChar c = true

/-- A name over `[a-z0-9.-]` without two dots in a row and without a dot at its end. -/
structure CleanName (s : List Char) : Prop where
  ne_nil : s ≠ []
  chars : ∀ c ∈ s, isHostChar c = true
  noDots : ¬ ['.', '.'] <:+: s
  noTrailing : s.getLast? ≠ some '.'

/-- The text of a header, trimmed and in lower case. -/
def hostText (raw : List Char) : List Char := toLowerCase (trim raw)

/-- Nothing, or a colon and whatever follows it. -/
def IsPort (tail : List Char) : Prop := tail = [] ∨ tail.head? = some ':'

/-- The header spells the name, with at most one trailing dot, with or without a port. -/
def Spells (raw name : List Char) : Prop :=
  CleanName name ∧ ∃ tail, IsPort tail ∧
    (hostText raw = name ++ tail ∨ hostText raw = name ++ '.' :: tail)

/-- The header has two dots after a name, or after nothing, with or without a port. -/
def EndsInTwoDots (raw : List Char) : Prop :=
  ∃ name tail, IsPort tail ∧ hostText raw = name ++ '.' :: '.' :: tail ∧
    (∀ c ∈ name, isHostChar c = true) ∧ ¬ ['.', '.'] <:+: name ∧ name.getLast? ≠ some '.'

/-! ### The check of a name -/

/-- The checks at the end of normalising. -/
def acceptName (host : List Char) : Option (List Char) :=
  if host = [] then none
  else if !host.all isHostChar then none
  else if includes host ['.', '.'] then none
  else some host

/-- What happens to a host that is not a literal, after its port is gone. -/
def checkName (host : List Char) : Option (List Char) :=
  acceptName (if host.getLast? = some '.' then host.dropLast else host)

variable {raw name host tail : List Char}

theorem normalizeChars_eq_checkName (h : (hostText raw).head? ≠ some '[') :
    normalizeChars raw = checkName (upTo ':' (hostText raw)) := by
  rw [hostText] at h
  simp only [normalizeChars, if_neg h]
  rfl

/-- A name that is accepted. -/
def AcceptableName (s : List Char) : Prop :=
  s ≠ [] ∧ (∀ c ∈ s, isHostChar c = true) ∧ ¬ ['.', '.'] <:+: s

theorem acceptName_eq_some : acceptName host = some name ↔ host = name ∧ AcceptableName host := by
  rw [acceptName, AcceptableName, ← includes_iff]
  split_ifs with hnil hchars hdots
  · simp [hnil]
  · simp only [Bool.not_eq_true', ← Bool.not_eq_true, List.all_eq_true] at hchars
    simp [hchars]
  · simp [hdots]
  · simp only [Bool.not_eq_true', Bool.not_eq_false, List.all_eq_true] at hchars
    constructor
    · intro h
      obtain rfl := Option.some.inj h
      exact ⟨rfl, hnil, hchars, hdots⟩
    · rintro ⟨rfl, -⟩
      rfl

theorem checkName_concat_dot (h : AcceptableName name) : checkName (name ++ ['.']) = some name := by
  rw [checkName, if_pos List.getLast?_concat, List.dropLast_concat]
  exact acceptName_eq_some.mpr ⟨rfl, h⟩

theorem checkName_self (h : AcceptableName name) (hlast : name.getLast? ≠ some '.') :
    checkName name = some name := by
  rw [checkName, if_neg hlast]
  exact acceptName_eq_some.mpr ⟨rfl, h⟩

/-- A name passes as it is, or after its trailing dot is taken off. -/
theorem checkName_cases (h : checkName host = some name) :
    AcceptableName name ∧ (host = name ++ ['.'] ∨ host = name ∧ name.getLast? ≠ some '.') := by
  rw [checkName] at h
  split_ifs at h with hlast
  · obtain ⟨init, rfl⟩ := List.getLast?_eq_some_iff.mp hlast
    rw [List.dropLast_concat] at h
    obtain ⟨rfl, haccept⟩ := acceptName_eq_some.mp h
    exact ⟨haccept, Or.inl rfl⟩
  · obtain ⟨rfl, haccept⟩ := acceptName_eq_some.mp h
    exact ⟨haccept, Or.inr ⟨rfl, hlast⟩⟩

theorem CleanName.acceptableName (h : CleanName name) : AcceptableName name :=
  ⟨h.ne_nil, h.chars, h.noDots⟩

/-- Two dots in a row that a trailing dot would make are there already. -/
theorem not_infix_concat_dot (hdots : ¬ ['.', '.'] <:+: name) (hlast : name.getLast? ≠ some '.') :
    ¬ ['.', '.'] <:+: name ++ ['.'] := by
  rintro ⟨u, v, huv⟩
  rcases List.eq_nil_or_concat v with rfl | ⟨w, c, rfl⟩
  · have hconcat : (u ++ ['.']) ++ ['.'] = name ++ ['.'] := by
      rw [← huv]
      simp
    exact hlast (by rw [← List.append_cancel_right hconcat, List.getLast?_concat])
  · refine hdots ⟨u, w, ?_⟩
    have hconcat := congrArg List.dropLast huv
    simpa [← List.append_assoc] using hconcat

/-! ### Text without case and surrounding blanks -/

/-- Normalising looks at nothing else. -/
theorem normalizeChars_congr {raw raw' : List Char} (h : hostText raw = hostText raw') :
    normalizeChars raw = normalizeChars raw' := by
  rw [hostText, hostText] at h
  simp only [normalizeChars, h]

/-- Nor does classification, of the root. -/
theorem classifyHost_congr {host root root' : String}
    (h : hostText root.toList = hostText root'.toList) :
    classifyHost host root = classifyHost host root' := by
  rw [hostText, hostText] at h
  simp only [classifyHost, h]

/-- A name in any letter case. -/
theorem hostText_of_lower (h : IsHostName (toLowerCase raw)) : hostText raw = toLowerCase raw := by
  rw [hostText, ← trim_toLowerCase, h.trim_eq]

theorem normalizeHost_of_lower {raw : String} (h : IsHostName (toLowerCase raw.toList)) :
    normalizeHost (some raw) = some (String.ofList (toLowerCase raw.toList)) := by
  have htext : hostText (toLowerCase raw.toList) = hostText raw.toList := by
    rw [hostText_of_lower h, hostText, h.trim_eq, toLowerCase_idem]
  rw [normalizeHost, Option.bind_some, ← normalizeChars_congr htext, h.normalizeChars_eq,
    Option.map_some]

/-! ### Ports -/

theorem isHostChar_ne_colon {s : List Char} (h : ∀ c ∈ s, isHostChar c = true) : ':' ∉ s :=
  fun hmem => absurd (h ':' hmem) (by decide)

/-- A port goes, and nothing else does. -/
theorem upTo_append (h : ':' ∉ host) (htail : IsPort tail) : upTo ':' (host ++ tail) = host := by
  rw [upTo, List.takeWhile_append_of_pos fun c hc => by
    simpa using fun heq : c = ':' => h (heq ▸ hc)]
  rcases htail with rfl | hhead
  · simp
  · obtain ⟨rest, rfl⟩ := List.head?_eq_some_iff.mp hhead
    simp

/-- A text is what comes before the colon, and a port. -/
theorem exists_port (s : List Char) : ∃ tail, IsPort tail ∧ s = upTo ':' s ++ tail := by
  refine ⟨s.dropWhile fun c => c ≠ ':', ?_, (List.takeWhile_append_dropWhile ..).symm⟩
  cases hrest : s.dropWhile fun c => c ≠ ':' with
  | nil => exact Or.inl rfl
  | cons c rest =>
    have hc := List.head?_dropWhile_not (fun c => decide (c ≠ ':')) s
    rw [hrest] at hc
    refine Or.inr ?_
    simpa using hc

/-! ### What normalising makes of a header -/

theorem normalizeChars_spells (h : Spells raw name) : normalizeChars raw = some name := by
  obtain ⟨hclean, tail, htail, htext⟩ := h
  have hcolon : ':' ∉ name := isHostChar_ne_colon hclean.chars
  have hhead : ∀ rest, (name ++ rest).head? ≠ some '[' := by
    intro rest hbracket
    obtain ⟨c, t, rfl⟩ := List.exists_cons_of_ne_nil hclean.ne_nil
    obtain rfl : c = '[' := by simpa using hbracket
    exact absurd (hclean.chars '[' (List.mem_cons_self ..)) (by decide)
  rcases htext with htext | htext
  · rw [normalizeChars_eq_checkName (by rw [htext]; exact hhead _), htext, upTo_append hcolon htail]
    exact checkName_self hclean.acceptableName hclean.noTrailing
  · have hdot : name ++ '.' :: tail = (name ++ ['.']) ++ tail := by simp
    rw [normalizeChars_eq_checkName (by rw [htext]; exact hhead _), htext, hdot,
      upTo_append (by simp [hcolon]) htail]
    exact checkName_concat_dot hclean.acceptableName

/-- One of the two dots stays. -/
theorem normalizeChars_endsInTwoDots (h : EndsInTwoDots raw) :
    ∃ name, normalizeChars raw = some (name ++ ['.']) := by
  obtain ⟨name, tail, htail, htext, hchars, hdots, hlast⟩ := h
  have haccept : AcceptableName (name ++ ['.']) := by
    refine ⟨by simp, fun c hc => ?_, not_infix_concat_dot hdots hlast⟩
    rcases List.mem_append.mp hc with hc | hc
    · exact hchars c hc
    · rw [List.mem_singleton.mp hc]
      decide
  have hhead : (hostText raw).head? ≠ some '[' := by
    rw [htext]
    intro hbracket
    cases name with
    | nil => simp at hbracket
    | cons c t =>
      obtain rfl : c = '[' := by simpa using hbracket
      exact absurd (hchars '[' (List.mem_cons_self ..)) (by decide)
  have htwo : name ++ '.' :: '.' :: tail = ((name ++ ['.']) ++ ['.']) ++ tail := by simp
  refine ⟨name, ?_⟩
  rw [normalizeChars_eq_checkName hhead, htext, htwo,
    upTo_append (by simp [isHostChar_ne_colon hchars]) htail]
  exact checkName_concat_dot haccept

/-- **What comes out is an address, a name that the header spells, or a name with a dot left
on.** -/
theorem normalizeChars_cases (h : normalizeChars raw = some host) :
    IsLiteral host ∨ Spells raw host ∨ EndsInTwoDots raw := by
  by_cases hhead : (hostText raw).head? = some '['
  · refine Or.inl ?_
    rw [hostText] at hhead
    simp only [normalizeChars, if_pos hhead] at h
    split_ifs at h with hclose hbody
    obtain rfl := Option.some.inj h
    obtain ⟨rest, htext⟩ := List.head?_eq_some_iff.mp hhead
    rw [htext] at hbody ⊢
    refine ⟨(upTo ']' ('[' :: rest)).tail, ?_, hbody.1, List.all_eq_true.mp hbody.2⟩
    simp [upTo]
  · rw [normalizeChars_eq_checkName hhead] at h
    obtain ⟨tail, htail, htext⟩ := exists_port (hostText raw)
    obtain ⟨⟨hne, hchars, hdots⟩, hname⟩ := checkName_cases h
    rcases hname with hname | ⟨hname, hlast⟩
    · rw [hname, List.append_assoc] at htext
      by_cases hlast : host.getLast? = some '.'
      · -- the dot that was taken off was the second one
        obtain ⟨name, rfl⟩ := List.getLast?_eq_some_iff.mp hlast
        refine Or.inr (Or.inr ⟨name, tail, htail, by simpa using htext, fun c hc => ?_, ?_, ?_⟩)
        · exact hchars c (List.mem_append_left _ hc)
        · exact fun htwo => hdots (htwo.trans ⟨[], ['.'], by simp⟩)
        · intro hname'
          obtain ⟨init, rfl⟩ := List.getLast?_eq_some_iff.mp hname'
          exact hdots ⟨init, [], by simp⟩
      · exact Or.inr (Or.inl ⟨⟨hne, hchars, hdots, hlast⟩, tail, htail, Or.inr htext⟩)
    · rw [hname] at htext
      exact Or.inr (Or.inl ⟨⟨hne, hchars, hdots, hlast⟩, tail, htail, Or.inl htext⟩)

/-! ### A second time -/

theorem hostText_eq_self (h : ∀ c ∈ name, isSpace c = false ∧ lowerChar c = [c]) :
    hostText name = name := by
  rw [hostText, trim_eq_self fun c hc => (h c hc).1, toLowerCase_eq_self fun c hc => (h c hc).2]

/-- A clean name spells itself. -/
theorem CleanName.spells (h : CleanName name) : Spells name name := by
  refine ⟨h, [], Or.inl rfl, Or.inl ?_⟩
  rw [List.append_nil]
  exact hostText_eq_self fun c hc =>
    ⟨isSpace_of_isHostChar (h.chars c hc), lowerChar_of_isHostChar (h.chars c hc)⟩

theorem toNat_of_isLiteralChar {c : Char} (h : isLiteralChar c = true) :
    (97 ≤ c.toNat ∧ c.toNat ≤ 102) ∨ (48 ≤ c.toNat ∧ c.toNat ≤ 58) := by
  simp only [isLiteralChar, Bool.or_eq_true, Bool.and_eq_true, decide_eq_true_eq] at h
  rcases h with (h | ⟨h₁, h₂⟩) | rfl
  · have hdigit := isDigit_iff.mp h
    omega
  · exact Or.inl ⟨h₁, h₂⟩
  · exact Or.inr (by decide)

/-- An address is already in its normalised form. -/
theorem IsLiteral.normalizeChars_eq (h : IsLiteral host) : normalizeChars host = some host := by
  obtain ⟨body, rfl, hne, hbody⟩ := h
  have htext : hostText ('[' :: (body ++ [']'])) = '[' :: (body ++ [']']) := by
    refine hostText_eq_self fun c hc => ?_
    have hc' : c = '[' ∨ c ∈ body ∨ c = ']' := by simpa using hc
    rcases hc' with rfl | hc | rfl
    · decide
    · have hnat := toNat_of_isLiteralChar (hbody c hc)
      exact ⟨isSpace_eq_false (by omega), lowerChar_eq_self (by omega) (by omega)⟩
    · decide
  have hup : upTo ']' ('[' :: (body ++ [']'])) = '[' :: body := by
    have hbefore : ∀ c ∈ '[' :: body, decide (c ≠ ']') = true := by
      intro c hc
      rw [decide_eq_true_eq]
      rintro rfl
      rcases List.mem_cons.mp hc with heq | hc
      · exact absurd heq (by decide)
      · exact absurd (hbody ']' hc) (by decide)
    rw [← List.cons_append, upTo, List.takeWhile_append_of_pos hbefore]
    simp
  rw [hostText] at htext
  simp only [normalizeChars, htext, List.head?_cons, if_true, hup, List.tail_cons]
  rw [if_pos (by simp), if_pos ⟨hne, List.all_eq_true.mpr hbody⟩]
  rfl

/-- **Normalising again changes nothing, unless a dot was left on.** -/
theorem normalizeChars_again (h : normalizeChars raw = some host) :
    normalizeChars host = some host ∧ (IsLiteral host ∨ CleanName host) ↔ ¬ EndsInTwoDots raw := by
  constructor
  · rintro ⟨-, hclean⟩ hdots
    obtain ⟨name, hname⟩ := normalizeChars_endsInTwoDots hdots
    obtain rfl := Option.some.inj (h.symm.trans hname)
    rcases hclean with ⟨body, hbody, -⟩ | hclean
    · have hlast := congrArg List.getLast? hbody
      rw [← List.cons_append, List.getLast?_concat, List.getLast?_concat] at hlast
      exact absurd (Option.some.inj hlast) (by decide)
    · exact hclean.noTrailing List.getLast?_concat
  · intro hdots
    rcases normalizeChars_cases h with hliteral | hspells | hends
    · exact ⟨hliteral.normalizeChars_eq, Or.inl hliteral⟩
    · exact ⟨normalizeChars_spells hspells.1.spells, Or.inr hspells.1⟩
    · exact absurd hends hdots

end LampLight
