import LampLight.Foundation.JsText

/-!
# The words of an institute

Four texts with a limit each. A text that is read has its runs of white space squeezed into one
blank, is trimmed, and is cut at its limit. The cut comes last, so it can leave a blank at the end,
which the next reading takes away.

Texts are code units here: a cut can leave half of a surrogate pair, and what is read can hold one.

## Main definitions

* `parseCopy`, `serializeCopy` — reading what is stored, and what is stored
* `BlankAtLimit` — the last character that fits is the blank after a word
* `SavesCopy` — what was read is read again after it was saved

## Main results

* `cleaned_cleaned` — what is lost when a text is read again
* `cleaned_cleaned_iff` — when a text is read as it was read before
* `savesCopy_iff` — exactly when saving loses nothing
-/

namespace LampLight

open Js

/-- The texts an institute may write. -/
inductive CopyKey | tagline | hero | about | footer
deriving DecidableEq

namespace CopyKey

/-- The name of a text in the stored object. -/
def name : CopyKey → List UInt16
  | tagline => units "tagline".toList
  | hero => units "hero".toList
  | about => units "about".toList
  | footer => units "footer".toList

end CopyKey

/-- Every text, in the order they are stored in. -/
def COPY_KEYS : List CopyKey := [.tagline, .hero, .about, .footer]

/-- How many code units of a text are kept. -/
def LIMITS : CopyKey → ℕ
  | .tagline => 120
  | .hero => 240
  | .about => 800
  | .footer => 200

/-- The editable shape: the texts an institute wrote. -/
abbrev CopySettings := CopyKey → Option (List UInt16)

/-- An institute that wrote nothing. -/
def EMPTY_COPY : CopySettings := fun _ => none

/-- The blank a run of white space becomes. -/
def blank : UInt16 := 32

/-- `s.replace(/\s+/g, ' ')`. -/
def squeeze (s : List UInt16) : List UInt16 := replaceRuns isSpaceUnit blank s

/-- A text as it is read: squeezed, trimmed and cut. -/
def cleaned (limit : ℕ) (value : List UInt16) : List UInt16 :=
  (trimUnits (squeeze value)).take limit

/-- Reads `copy_json` into the editable shape. -/
def parseCopy (input : UnitJson) : CopySettings :=
  match input with
  | .obj fields => fun key =>
    match (UnitJson.obj fields).get? key.name with
    | some (.str value) => some (cleaned (LIMITS key) value) |>.filter (· ≠ [])
    | _ => EMPTY_COPY key
  | _ => EMPTY_COPY

/-- What `copy_json` should hold: a text that is missing or empty is left out. -/
def serializeCopy (copy : CopySettings) : UnitJson :=
  .obj (COPY_KEYS.flatMap fun key =>
    match copy key with
    | none => []
    | some value => if value = [] then [] else [(key.name, .str value)])

/-! ### Reading a text again -/

section Cleaned

variable {limit : ℕ} {s t u : List UInt16}

theorem isSpaceUnit_blank : isSpaceUnit blank = true := rfl

theorem dropWhile_squeeze (s : List UInt16) :
    (squeeze s).dropWhile isSpaceUnit = squeeze (s.dropWhile isSpaceUnit) := by
  have hor : (fun a => isSpaceUnit a || isSpaceUnit a) = isSpaceUnit := by
    funext a
    exact Bool.or_self _
  have h := dropWhile_replaceRuns (p := isSpaceUnit) isSpaceUnit_blank s
  rwa [hor] at h

theorem squeeze_append_singleton {c : UInt16} (hc : isSpaceUnit c = false) (s : List UInt16) :
    squeeze (s ++ [c]) = squeeze s ++ [c] := replaceRuns_append_cons hc s []

theorem isSpaceUnit_head {c : UInt16} (h : (c :: s).dropWhile isSpaceUnit = c :: s) :
    isSpaceUnit c = false := by
  simpa using List.dropWhile_eq_self_iff.mp h (Nat.succ_pos _)

theorem isSpaceUnit_last {c : UInt16} (h : (s ++ [c]).rdropWhile isSpaceUnit = s ++ [c]) :
    isSpaceUnit c = false := by
  simpa using List.rdropWhile_eq_self_iff.mp h (List.append_ne_nil_of_right_ne_nil _ (by simp))

/-- What is squeezed and has no white space in front. -/
structure SingleSpaced (s : List UInt16) : Prop where
  squeezed : squeeze s = s
  front : s.dropWhile isSpaceUnit = s

theorem singleSpaced_trimUnits (s : List UInt16) : SingleSpaced (trimUnits (squeeze s)) where
  squeezed := by
    rw [trimUnits, dropWhile_squeeze]
    exact replaceRuns_of_isPrefix (replaceRuns_idem ..) (List.rdropWhile_prefix _ _)
  front := dropWhile_rdropWhile_dropWhile _ _

theorem rdropWhile_trimUnits (s : List UInt16) :
    (trimUnits s).rdropWhile isSpaceUnit = trimUnits s := List.rdropWhile_idempotent _ _

/-- Cutting keeps the blanks single; only its end may be a blank now. -/
theorem SingleSpaced.of_isPrefix (h : SingleSpaced t) (hs : s <+: t) : SingleSpaced s where
  squeezed := replaceRuns_of_isPrefix h.squeezed hs
  front := by
    cases s with
    | nil => rfl
    | cons a s =>
      obtain ⟨rest, rfl⟩ := hs
      rw [List.dropWhile_cons_of_neg (by simp [isSpaceUnit_head h.front])]

/-- A text that was read is read as it is, but for white space at its end. -/
theorem cleaned_cleaned (limit : ℕ) (value : List UInt16) :
    cleaned limit (cleaned limit value) = (cleaned limit value).rdropWhile isSpaceUnit := by
  have hsingle : SingleSpaced (cleaned limit value) :=
    (singleSpaced_trimUnits value).of_isPrefix (List.take_prefix _ _)
  have hlength : ((cleaned limit value).rdropWhile isSpaceUnit).length ≤ limit :=
    (List.rdropWhile_prefix _ _).length_le.trans (List.length_take_le _ _)
  rw [cleaned, hsingle.squeezed, trimUnits, hsingle.front]
  exact List.take_of_length_le hlength

end Cleaned

/-! ### Where the cut falls -/

section Cut

/-- A word ends one place before the limit, counting each run of white space as one place and
leaving out what is in front, and another word follows. -/
def BlankAtLimit (limit : ℕ) (value : List UInt16) : Prop :=
  ∃ front space back, value.dropWhile isSpaceUnit = front ++ space :: back ∧
    isSpaceUnit space = true ∧ (∀ c ∈ front.getLast?, isSpaceUnit c = false) ∧
    (∃ c ∈ back, isSpaceUnit c = false) ∧ (squeeze front).length + 1 = limit

variable {limit : ℕ} {value : List UInt16}

/-- What a blank at the limit is cut to. -/
theorem cleaned_of_blankAtLimit (h : BlankAtLimit limit value) :
    ∃ front, cleaned limit value = front ++ [blank] := by
  obtain ⟨front, space, back, hvalue, hspace, hlast, ⟨c, hc, hword⟩, hlength⟩ := h
  refine ⟨squeeze front, ?_⟩
  -- the word in front ends with a character that squeezing keeps
  obtain ⟨x, a, rfl, ha⟩ : ∃ x a, front = x ++ [a] ∧ isSpaceUnit a = false := by
    rcases List.eq_nil_or_concat' front with rfl | ⟨x, a, rfl⟩
    · have hfront : (space :: back).dropWhile isSpaceUnit = space :: back := by
        rw [← List.nil_append (space :: back), ← hvalue, List.dropWhile_idempotent]
      rw [isSpaceUnit_head hfront] at hspace
      cases hspace
    · exact ⟨x, a, rfl, hlast a (by simp)⟩
  obtain ⟨u, v, rfl⟩ := List.append_of_mem hc
  obtain ⟨rest, hrest⟩ := exists_replaceRuns_cons_of_pos (c := blank) hspace u
  have hsqueezed : squeeze (x ++ [a] ++ space :: (u ++ c :: v))
      = (squeeze (x ++ [a]) ++ blank :: rest) ++ c :: squeeze v := by
    rw [squeeze_append_singleton ha, List.append_assoc, List.singleton_append, squeeze,
      replaceRuns_append_cons ha, ← List.cons_append, replaceRuns_append_cons hword, hrest]
    simp [squeeze]
  have hlimit : (squeeze (x ++ [a]) ++ [blank]).length = limit := by
    rw [List.length_append, ← hlength]
    rfl
  rw [cleaned, trimUnits, dropWhile_squeeze, hvalue, hsqueezed, rdropWhile_append_cons hword,
    List.append_cons (squeeze (x ++ [a])), List.append_assoc, ← hlimit]
  exact List.take_left

/-- A cut that leaves white space at the end stands between two words. -/
theorem trimUnits_eq_of_cleaned {front : List UInt16} {b : UInt16}
    (h : cleaned limit value = front ++ [b]) (hb : isSpaceUnit b = true) :
    ∃ w a r n, trimUnits (squeeze value) = w ++ a :: b :: (r ++ [n]) ∧ isSpaceUnit a = false ∧
      isSpaceUnit n = false ∧ (w ++ [a]).length + 1 = limit := by
  have hsingle := singleSpaced_trimUnits value
  have hback := rdropWhile_trimUnits (squeeze value)
  have hcut := List.take_append_drop limit (trimUnits (squeeze value))
  rw [← cleaned, h] at hcut
  rw [← hcut] at hsingle hback
  -- something was cut off, as a trimmed text ends with no white space
  obtain ⟨r, n, hrest⟩ : ∃ r n, (trimUnits (squeeze value)).drop limit = r ++ [n] := by
    refine (List.eq_nil_or_concat' _).resolve_left fun hnil => ?_
    rw [hnil, List.append_nil] at hback
    rw [isSpaceUnit_last hback] at hb
    cases hb
  rw [hrest] at hcut hsingle hback
  have hlimit : (front ++ [b]).length = limit := by
    have hlong : 0 < ((trimUnits (squeeze value)).drop limit).length := by
      rw [hrest, List.length_append]
      exact Nat.succ_pos _
    rw [List.length_drop] at hlong
    rw [← h, cleaned, List.length_take, Nat.min_eq_left (by omega)]
  rcases List.eq_nil_or_concat' front with rfl | ⟨w, a, rfl⟩
  · rw [isSpaceUnit_head hsingle.front] at hb
    cases hb
  have ha : isSpaceUnit a = false := by
    have hchain := (replaceRuns_eq_self_iff.mp hsingle.squeezed).1
    simp only [List.append_assoc, List.singleton_append] at hchain
    refine (List.isChain_append_cons_cons.mp hchain).2.1.resolve_right ?_
    rw [hb]
    exact Bool.noConfusion
  refine ⟨w, a, r, n, ?_, ha, ?_, ?_⟩
  · rw [← hcut]
    simp
  · rw [← List.append_assoc] at hback
    exact isSpaceUnit_last hback
  · rw [← hlimit]
    simp

theorem blankAtLimit_of_cleaned {front : List UInt16} {b : UInt16}
    (h : cleaned limit value = front ++ [b]) (hb : isSpaceUnit b = true) :
    BlankAtLimit limit value := by
  obtain ⟨w, a, r, n, htrim, ha, hn, hlimit⟩ := trimUnits_eq_of_cleaned h hb
  obtain ⟨trail, htrail⟩ :=
    List.rdropWhile_prefix isSpaceUnit ((squeeze value).dropWhile isSpaceUnit)
  rw [← trimUnits, htrim, dropWhile_squeeze, List.append_assoc, List.cons_append] at htrail
  have hblanks : ∀ c, isSpaceUnit c = false → c ≠ blank := by
    rintro c hc rfl
    cases hc
  obtain ⟨x, y, hvalue, hx, hy⟩ := exists_of_replaceRuns_eq (hblanks a ha) htrail.symm
  have hmem : n ∈ y := by
    have hn' : n ∈ replaceRuns isSpaceUnit blank y := by
      rw [hy]
      simp
    exact ((mem_replaceRuns hn').resolve_left (hblanks n hn)).1
  cases y with
  | nil => cases hmem
  | cons space back =>
    have hspace : isSpaceUnit space = true := by
      by_contra hword
      rw [Bool.not_eq_true] at hword
      rw [replaceRuns_cons_of_neg hword] at hy
      rw [← (List.cons.inj hy).1, hword] at hb
      cases hb
    refine ⟨x ++ [a], space, back, by simpa using hvalue, hspace, by simpa using ha,
      ⟨n, ?_, hn⟩, ?_⟩
    · refine (List.mem_cons.mp hmem).resolve_left ?_
      rintro rfl
      rw [hn] at hspace
      cases hspace
    · rw [squeeze_append_singleton ha, squeeze, hx]
      exact hlimit

theorem cleaned_cleaned_iff (limit : ℕ) (value : List UInt16) :
    cleaned limit (cleaned limit value) = cleaned limit value ↔ ¬ BlankAtLimit limit value := by
  rw [cleaned_cleaned]
  constructor
  · intro h hblank
    obtain ⟨front, hfront⟩ := cleaned_of_blankAtLimit hblank
    rw [hfront] at h
    cases isSpaceUnit_last h
  · intro h
    rcases List.eq_nil_or_concat' (cleaned limit value) with hnil | ⟨front, b, hfront⟩
    · rw [hnil]
      rfl
    · rw [hfront]
      refine List.rdropWhile_concat_neg _ _ _ fun hb => ?_
      exact h (blankAtLimit_of_cleaned hfront hb)

end Cut

/-! ### Saving what was read -/

theorem filter_nil : (some ([] : List UInt16)).filter (· ≠ []) = none := rfl

theorem filter_of_ne_nil {text : List UInt16} (h : text ≠ []) :
    (some text).filter (· ≠ []) = some text := by
  simpa using h

theorem filter_eq_some_iff {again kept : List UInt16} (h : kept ≠ []) :
    (some again).filter (· ≠ []) = some kept ↔ again = kept := by
  constructor
  · intro hfilter
    exact Option.some.inj (Option.filter_eq_some_iff.mp hfilter).1
  · rintro rfl
    exact filter_of_ne_nil h

theorem parseCopy_apply (x : UnitJson) (key : CopyKey) :
    parseCopy x key
      = (((x.get? key.name).bind UnitJson.string?).map (cleaned (LIMITS key))).filter
          (· ≠ []) := by
  cases x with
  | obj fields =>
    simp only [parseCopy]
    cases (UnitJson.obj fields).get? key.name with
    | none => rfl
    | some value => cases value <;> rfl
  | _ => rfl

theorem CopyKey.name_injective : Function.Injective CopyKey.name := by
  intro k l
  cases k <;> cases l <;> decide

theorem lookup_serializeCopy (copy : CopySettings) (key : CopyKey) :
    (serializeCopy copy).get? key.name = ((copy key).filter (· ≠ [])).map .str := by
  have hfield : ∀ other : CopyKey, List.lookup key.name (match copy other with
      | none => []
      | some value => if value = [] then [] else [(other.name, UnitJson.str value)])
        = if key = other then ((copy other).filter (· ≠ [])).map UnitJson.str else none := by
    intro other
    by_cases hkey : key = other
    · subst hkey
      rw [if_pos rfl]
      cases copy key with
      | none => rfl
      | some value =>
        by_cases hvalue : value = []
        · subst hvalue
          rfl
        · simp only [if_neg hvalue, filter_of_ne_nil hvalue]
          simp
    · have hname : (key.name == other.name) = false :=
        beq_false_of_ne fun h => hkey (CopyKey.name_injective h)
      rw [if_neg hkey]
      cases copy other with
      | none => rfl
      | some value => by_cases hvalue : value = [] <;> simp [hvalue, List.lookup_cons, hname]
  rw [serializeCopy, UnitJson.get?]
  cases key <;> simp [COPY_KEYS, List.lookup_append, hfield]

theorem cleaned_nil (limit : ℕ) : cleaned limit [] = [] := List.take_nil

theorem parseCopy_serializeCopy_apply (x : UnitJson) (key : CopyKey) :
    parseCopy (serializeCopy (parseCopy x)) key = parseCopy x key ↔
      ∀ text, x.get? key.name = some (.str text) → ¬ BlankAtLimit (LIMITS key) text := by
  have hread : ∀ text, (x.get? key.name).bind UnitJson.string? = some text ↔
      x.get? key.name = some (.str text) := by
    intro text
    cases x.get? key.name with
    | none => simp
    | some value => cases value <;> simp [UnitJson.string?]
  simp only [← hread, ← cleaned_cleaned_iff]
  rw [parseCopy_apply (serializeCopy _), lookup_serializeCopy, parseCopy_apply]
  cases (x.get? key.name).bind UnitJson.string? with
  | none => simp
  | some text =>
    by_cases hempty : cleaned (LIMITS key) text = []
    · rw [Option.map_some, hempty, filter_nil]
      simp [cleaned_nil, hempty]
    · rw [Option.map_some, filter_of_ne_nil hempty, filter_of_ne_nil hempty]
      simp only [Option.some.injEq, forall_eq']
      exact filter_eq_some_iff hempty

/-- What is read is read again after it was saved. -/
def SavesCopy (x : UnitJson) : Prop := parseCopy (serializeCopy (parseCopy x)) = parseCopy x

theorem savesCopy_iff (x : UnitJson) :
    SavesCopy x ↔ ∀ key text, x.get? (CopyKey.name key) = some (.str text) →
      ¬ BlankAtLimit (LIMITS key) text := by
  constructor
  · intro h key
    exact (parseCopy_serializeCopy_apply x key).mp (congrFun h key)
  · intro h
    funext key
    exact (parseCopy_serializeCopy_apply x key).mpr (h key)

/-- Words of 119 and of one letter: the blank between them is the last that fits. -/
theorem not_savesCopy_tagline :
    ¬ SavesCopy (.obj [(units "tagline".toList, .str (List.replicate 119 97 ++ [32, 98]))]) := by
  intro h
  have hlast : ∀ c ∈ (List.replicate 119 (97 : UInt16)).getLast?, isSpaceUnit c = false := by
    rw [List.getLast?_replicate, if_neg (by decide)]
    rintro c ⟨⟩
    rfl
  refine (parseCopy_serializeCopy_apply _ .tagline).mp (congrFun h .tagline) _ rfl ?_
  exact ⟨List.replicate 119 97, 32, [98], rfl, rfl, hlast, ⟨98, by simp, rfl⟩, rfl⟩

end LampLight
