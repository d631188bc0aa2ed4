import LampLight.Foundation.JsText

/-!
# Links and what is read from them

A text goes into a query as its UTF-8 bytes, those of the unreserved characters as they are and
every other as `%` and two digits. What is read from a query are bytes again, and then a text. Bytes
that are no UTF-8 are read too; how is left open (`illFormed`), since nothing here writes any.

A link that starts with `/` stays on its host unless a second slash follows. For a browser the
backslash is one too, and it does not see tabs and line breaks.

## Main definitions

* `encodeURIComponent`, `formValue` — into a query, and out of it
* `pathOf`, `queryOf`, `searchParams` — a link, and the values of its query under a key
* `namesHost` — the link says on which host to look

## Main results

* `formValue_encodeURIComponent` — what is read is what was written
* `searchParams_oneValue` — a link with one value has that value
* `namesHost_slash` — what starts with a slash and names a host all the same
-/

namespace Url

/-! ### Bytes as digits -/

/-- One hexadecimal digit. -/
def hexDigit (n : ℕ) : Char := (Nat.digitChar n).toUpper

/-- What a hexadecimal digit stands for, of either case. -/
def hexValue (c : Char) : Option ℕ :=
  if '0' ≤ c ∧ c ≤ '9' then some (c.toNat - 48)
  else if 'A' ≤ c ∧ c ≤ 'F' then some (c.toNat - 55)
  else if 'a' ≤ c ∧ c ≤ 'f' then some (c.toNat - 87)
  else none

/-- A byte in percent encoding. -/
def escape (b : UInt8) : List Char := ['%', hexDigit (b.toNat / 16), hexDigit (b.toNat % 16)]

/-- The bytes of a text, with `%` and two digits for one. -/
def unescape : List Char → List UInt8
  | [] => []
  | '%' :: a :: b :: s =>
    match hexValue a, hexValue b with
    | some x, some y => UInt8.ofNat (16 * x + y) :: unescape s
    | _, _ => String.utf8EncodeChar '%' ++ unescape (a :: b :: s)
  | c :: s => String.utf8EncodeChar c ++ unescape s

theorem hexValue_hexDigit : ∀ n < 16, hexValue (hexDigit n) = some n := by decide

theorem unescape_escape (b : UInt8) (s : List Char) :
    unescape (escape b ++ s) = b :: unescape s := by
  have hb : b.toNat < 256 := b.toNat_lt
  have hbyte : UInt8.ofNat (16 * (b.toNat / 16) + b.toNat % 16) = b := by
    rw [Nat.div_add_mod]
    exact UInt8.ofNat_toNat
  show unescape ('%' :: hexDigit (b.toNat / 16) :: hexDigit (b.toNat % 16) :: s) = _
  rw [unescape, hexValue_hexDigit _ (by omega), hexValue_hexDigit _ (by omega)]
  dsimp only
  rw [hbyte]

theorem unescape_cons {c : Char} (hc : c ≠ '%') (s : List Char) :
    unescape (c :: s) = String.utf8EncodeChar c ++ unescape s := by
  rw [unescape]
  rintro a b s' rfl
  exact absurd rfl hc

/-! ### Into a query and out of it -/

/-- The characters that need no digits. -/
def isUnreserved (c : Char) : Bool :=
  ('A' ≤ c && c ≤ 'Z') || ('a' ≤ c && c ≤ 'z') || ('0' ≤ c && c ≤ '9') ||
    c ∈ ['-', '_', '.', '!', '~', '*', '\'', '(', ')']

/-- A character as it stands in a component of an address. -/
def encodeChar (c : Char) : List Char :=
  if isUnreserved c then [c] else (String.utf8EncodeChar c).flatMap escape

/-- `encodeURIComponent(s)`. -/
def encodeURIComponent (s : List Char) : List Char := s.flatMap encodeChar

/-- The text of bytes. -/
def readBytes (illFormed : List UInt8 → List Char) (bytes : List UInt8) : List Char :=
  match bytes.toByteArray.utf8Decode? with
  | some chars => chars.toList
  | none => illFormed bytes

/-- What a query's name or value says. -/
def formValue (illFormed : List UInt8 → List Char) (s : List Char) : List Char :=
  readBytes illFormed (unescape (s.map fun c => if c = '+' then ' ' else c))

/-- Neither white space nor a separator of queries. -/
def isPlain (c : Char) : Bool := 32 < c.toNat && c ≠ '+' && c ≠ '&' && c ≠ '#'

theorem isUnreserved_bounds {c : Char} (h : isUnreserved c = true) :
    32 < c.toNat ∧ c ≠ '%' ∧ c ≠ '+' ∧ c ≠ '&' ∧ c ≠ '#' := by
  have hne : ∀ d : Char, isUnreserved d = false → c ≠ d := by
    rintro d hd rfl
    exact Bool.false_ne_true (hd.symm.trans h)
  refine ⟨?_, hne _ rfl, hne _ rfl, hne _ rfl, hne _ rfl⟩
  by_contra hlow
  have hcases : ∀ n ≤ 32, isUnreserved (Char.ofNat n) = false := by decide
  exact hne (Char.ofNat c.toNat) (hcases _ (by omega)) (Char.ofNat_toNat c).symm

theorem isPlain_iff {c : Char} : isPlain c = true ↔ 32 < c.toNat ∧ c ≠ '+' ∧ c ≠ '&' ∧ c ≠ '#' := by
  simp [isPlain, and_assoc]

theorem isPlain_of_isUnreserved {c : Char} (h : isUnreserved c = true) : isPlain c = true := by
  obtain ⟨hlow, -, hplus, hand, hhash⟩ := isUnreserved_bounds h
  exact isPlain_iff.mpr ⟨hlow, hplus, hand, hhash⟩

theorem isPlain_hexDigit : ∀ n < 16, isPlain (hexDigit n) = true := by decide

theorem isPlain_encodeURIComponent {s : List Char} {c : Char} (h : c ∈ encodeURIComponent s) :
    isPlain c = true := by
  obtain ⟨d, -, hd⟩ := List.mem_flatMap.mp h
  rw [encodeChar] at hd
  split_ifs at hd with hkept
  · rw [List.mem_singleton.mp hd]
    exact isPlain_of_isUnreserved hkept
  · obtain ⟨b, -, hb⟩ := List.mem_flatMap.mp hd
    have hlt : b.toNat < 256 := b.toNat_lt
    simp only [escape, List.mem_cons, List.not_mem_nil, or_false] at hb
    rcases hb with rfl | rfl | rfl
    · rfl
    · exact isPlain_hexDigit _ (by omega)
    · exact isPlain_hexDigit _ (by omega)

theorem unescape_encodeURIComponent (s : List Char) :
    unescape (encodeURIComponent s) = s.flatMap String.utf8EncodeChar := by
  have hescapes : ∀ (bytes : List UInt8) (rest : List Char),
      unescape (bytes.flatMap escape ++ rest) = bytes ++ unescape rest := by
    intro bytes rest
    induction bytes with
    | nil => rfl
    | cons b bytes ih => rw [List.flatMap_cons, List.append_assoc, unescape_escape, ih]; rfl
  induction s with
  | nil => rfl
  | cons c s ih =>
    show unescape (encodeChar c ++ encodeURIComponent s) = _
    rw [List.flatMap_cons, encodeChar]
    split_ifs with hkept
    · rw [List.singleton_append, unescape_cons (isUnreserved_bounds hkept).2.1, ih]
    · rw [hescapes, ih]

theorem readBytes_utf8 (illFormed : List UInt8 → List Char) (s : List Char) :
    readBytes illFormed (s.flatMap String.utf8EncodeChar) = s := by
  have hdecode : (s.flatMap String.utf8EncodeChar).toByteArray.utf8Decode? = some s.toArray :=
    List.utf8Decode?_utf8Encode
  rw [readBytes, hdecode]

/-- **What is read is what was written.** -/
theorem formValue_encodeURIComponent (illFormed : List UInt8 → List Char) (s : List Char) :
    formValue illFormed (encodeURIComponent s) = s := by
  have hplus : ((encodeURIComponent s).map fun c => if c = '+' then ' ' else c)
      = encodeURIComponent s := by
    refine (List.map_congr_left fun c hc => if_neg ?_).trans (List.map_id _)
    rintro rfl
    exact absurd (isPlain_encodeURIComponent hc) (by decide)
  rw [formValue, hplus, unescape_encodeURIComponent, readBytes_utf8]

/-- A text that needs no digits stays as it is. -/
theorem encodeURIComponent_eq_self {s : List Char} (hs : ∀ c ∈ s, isUnreserved c = true) :
    encodeURIComponent s = s := by
  induction s with
  | nil => rfl
  | cons c s ih =>
    have hchar : encodeChar c = [c] := if_pos (hs c (List.mem_cons_self ..))
    show encodeChar c ++ encodeURIComponent s = c :: s
    rw [hchar, ih fun d hd => hs d (List.mem_cons_of_mem _ hd)]
    rfl

/-! ### Queries -/

/-- A browser drops these at both ends of a link. -/
def isC0OrSpace (c : Char) : Bool := c.toNat ≤ 32

/-- And these wherever they stand. -/
def isIgnored (c : Char) : Bool := c = '\t' || c = '\n' || c = '\r'

/-- A link as a browser reads it. -/
def cleaned (link : List Char) : List Char :=
  ((link.dropWhile isC0OrSpace).rdropWhile isC0OrSpace).filter fun c => !isIgnored c

/-- Up to the query or the fragment. -/
def pathOf (link : List Char) : List Char :=
  (cleaned link).takeWhile fun c => c ≠ '?' && c ≠ '#'

/-- From the first `?` to the fragment. -/
def queryOf (link : List Char) : List Char :=
  (((cleaned link).takeWhile fun c => c ≠ '#').dropWhile fun c => c ≠ '?').drop 1

/-- All values of a query under a key. -/
def searchParams (illFormed : List UInt8 → List Char) (query key : List Char) : List (List Char) :=
  ((query.splitOn '&').filter fun piece =>
    piece ≠ [] && formValue illFormed (piece.takeWhile fun c => c ≠ '=') = key).map fun piece =>
      formValue illFormed ((piece.dropWhile fun c => c ≠ '=').drop 1)

theorem cleaned_eq_self {link : List Char} (h : ∀ c ∈ link, 32 < c.toNat) :
    cleaned link = link := by
  have hkept : ∀ c ∈ link, isC0OrSpace c = false := fun c hc => by
    have := h c hc
    simp only [isC0OrSpace, decide_eq_false_iff_not]
    omega
  have hseen : ∀ c ∈ link, (!isIgnored c) = true := by
    intro c hc
    have := h c hc
    have hne : ∀ d : Char, d.toNat ≤ 32 → c ≠ d := by
      rintro d hd rfl
      omega
    simp [isIgnored, hne '\t' (by decide), hne '\n' (by decide), hne '\r' (by decide)]
  rw [cleaned, List.dropWhile_eq_self_iff.mpr, List.rdropWhile_eq_self_iff.mpr, List.filter_eq_self]
  · exact hseen
  · intro hne
    rw [hkept _ (List.getLast_mem hne)]
    exact Bool.false_ne_true
  · intro hpos
    rw [hkept _ (List.getElem_mem hpos)]
    exact Bool.false_ne_true

/-- What a path may consist of. -/
def isPathChar (c : Char) : Bool := isPlain c && c ≠ '?'

theorem isPathChar_iff {c : Char} : isPathChar c = true ↔ isPlain c = true ∧ c ≠ '?' := by
  simp [isPathChar]

/-- A link with one value. -/
def oneValue (path key value : List Char) : List Char := path ++ '?' :: (key ++ '=' :: value)

section OneValue

variable {path key value : List Char}

theorem isPlain_oneValue (hpath : path.all isPathChar = true)
    (hkey : key.all isUnreserved = true) (hvalue : ∀ c ∈ value, isPlain c = true) :
    ∀ c ∈ oneValue path key value, isPlain c = true := by
  intro c hc
  simp only [oneValue, List.mem_append, List.mem_cons] at hc
  rcases hc with hc | rfl | hc | rfl | hc
  · exact (isPathChar_iff.mp (List.all_eq_true.mp hpath c hc)).1
  · rfl
  · exact isPlain_of_isUnreserved (List.all_eq_true.mp hkey c hc)
  · rfl
  · exact hvalue c hc

theorem cleaned_oneValue (hpath : path.all isPathChar = true)
    (hkey : key.all isUnreserved = true) (hvalue : ∀ c ∈ value, isPlain c = true) :
    cleaned (oneValue path key value) = oneValue path key value :=
  cleaned_eq_self fun c hc => (isPlain_iff.mp (isPlain_oneValue hpath hkey hvalue c hc)).1

theorem pathOf_oneValue (hpath : path.all isPathChar = true)
    (hkey : key.all isUnreserved = true) (hvalue : ∀ c ∈ value, isPlain c = true) :
    pathOf (oneValue path key value) = path := by
  rw [pathOf, cleaned_oneValue hpath hkey hvalue, oneValue, List.takeWhile_append_of_pos,
    List.takeWhile_cons_of_neg (by decide), List.append_nil]
  intro c hc
  obtain ⟨hplain, hquestion⟩ := isPathChar_iff.mp (List.all_eq_true.mp hpath c hc)
  simp [hquestion, (isPlain_iff.mp hplain).2.2.2]

/-- **A link with one value has that value.** -/
theorem searchParams_oneValue (illFormed : List UInt8 → List Char)
    (hpath : path.all isPathChar = true) (hkey : key.all isUnreserved = true)
    (hvalue : ∀ c ∈ value, isPlain c = true) :
    searchParams illFormed (queryOf (oneValue path key value)) key
      = [formValue illFormed value] := by
  have hplain := isPlain_oneValue hpath hkey hvalue
  have hquery : queryOf (oneValue path key value) = key ++ '=' :: value := by
    rw [queryOf, cleaned_oneValue hpath hkey hvalue, List.takeWhile_eq_self_iff.mpr, oneValue,
      List.dropWhile_append_of_pos, List.dropWhile_cons_of_neg (by decide), List.drop_one,
      List.tail_cons]
    · exact fun c hc => decide_eq_true (isPathChar_iff.mp (List.all_eq_true.mp hpath c hc)).2
    · exact fun c hc => decide_eq_true (isPlain_iff.mp (hplain c hc)).2.2.2
  have hpiece : (key ++ '=' :: value).splitOn '&' = [key ++ '=' :: value] := by
    refine List.splitOn_eq_singleton fun hand => ?_
    exact (isPlain_iff.mp (hplain '&' (by simp [oneValue, hand]))).2.2.1 rfl
  have heq : ∀ c ∈ key, decide (c ≠ '=') = true := by
    intro c hc
    refine decide_eq_true ?_
    rintro rfl
    exact absurd (List.all_eq_true.mp hkey _ hc) (by decide)
  have hname : (key ++ '=' :: value).takeWhile (fun c => c ≠ '=') = key := by
    rw [List.takeWhile_append_of_pos heq, List.takeWhile_cons_of_neg (by decide), List.append_nil]
  have hrest : ((key ++ '=' :: value).dropWhile fun c => c ≠ '=').drop 1 = value := by
    rw [List.dropWhile_append_of_pos heq, List.dropWhile_cons_of_neg (by decide)]
    rfl
  have hkeyvalue : formValue illFormed key = key := by
    calc formValue illFormed key
        = formValue illFormed (encodeURIComponent key) := by
          rw [encodeURIComponent_eq_self (List.all_eq_true.mp hkey)]
      _ = key := formValue_encodeURIComponent illFormed key
  rw [searchParams, hquery, hpiece, List.filter_cons_of_pos, List.filter_nil, List.map_singleton,
    hrest]
  rw [Bool.and_eq_true, decide_eq_true_eq, decide_eq_true_eq, hname]
  exact ⟨by simp, hkeyvalue⟩

end OneValue

/-! ### Staying on the host -/

/-- A browser takes either for a slash. -/
def isSlash (c : Char) : Bool := c = '/' || c = '\\'

/-- A link with two slashes at its front names a host, any other that starts with one does not. -/
def namesHost (link : List Char) : Bool :=
  match cleaned link with
  | a :: b :: _ => isSlash a && isSlash b
  | _ => false

theorem not_isC0OrSpace_of_isSlash {c : Char} (h : isSlash c = true) : isC0OrSpace c = false := by
  simp only [isSlash, Bool.or_eq_true, decide_eq_true_eq] at h
  rcases h with rfl | rfl <;> rfl

theorem not_isIgnored_of_isSlash {c : Char} (h : isSlash c = true) : isIgnored c = false := by
  simp only [isSlash, Bool.or_eq_true, decide_eq_true_eq] at h
  rcases h with rfl | rfl <;> rfl

/-- **The second slash.** It may come after tabs and line breaks, and it may be a backslash. -/
theorem namesHost_slash {s : List Char} :
    namesHost ('/' :: s) = true ↔ ∃ ignored c rest, s = ignored ++ c :: rest ∧
      (∀ d ∈ ignored, isIgnored d = true) ∧ isSlash c = true := by
  have hclean : cleaned ('/' :: s)
      = '/' :: (s.rdropWhile isC0OrSpace).filter fun c => !isIgnored c := by
    have htail := Js.rdropWhile_append_cons (p := isC0OrSpace) (a := '/') rfl [] s
    rw [cleaned, List.dropWhile_cons_of_neg (by decide)]
    exact congrArg (List.filter _) htail
  rw [namesHost, hclean]
  constructor
  · intro h
    cases hrest : (s.rdropWhile isC0OrSpace).filter fun c => !isIgnored c with
    | nil => rw [hrest] at h; exact absurd h Bool.false_ne_true
    | cons c rest =>
      rw [hrest] at h
      obtain ⟨ignored, after, hsplit, hignored, -, -⟩ := List.filter_eq_cons_iff.mp hrest
      obtain ⟨dropped, hs⟩ := List.rdropWhile_prefix isC0OrSpace (l := s)
      refine ⟨ignored, c, after ++ dropped, ?_, fun d hd => by simpa using hignored d hd,
        (Bool.and_eq_true _ _ ▸ h).2⟩
      rw [← hs, hsplit, List.append_assoc, List.cons_append]
  · rintro ⟨ignored, c, rest, rfl, hignored, hc⟩
    rw [Js.rdropWhile_append_cons (not_isC0OrSpace_of_isSlash hc), List.filter_append,
      List.filter_eq_nil_iff.mpr (fun d hd => by simp [hignored d hd]),
      List.filter_cons_of_pos (by simp [not_isIgnored_of_isSlash hc])]
    exact Bool.and_eq_true _ _ ▸ ⟨rfl, hc⟩

end Url
