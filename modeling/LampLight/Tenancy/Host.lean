import LampLight.Foundation.JsText

/-!
# Host names

Pure functions over the text of a `Host` header: one spelling for each name, what kind of name it is
on this platform, which names are slugs, and which names a tenant may claim for itself.

## Main definitions

* `normalizeHost`, `classifyHost`, `isValidSlug`, `claimableHostname`, `absoluteUrl`
* `IsHostName` — dot-separated, non-empty labels over `[a-z0-9-]`
* `IsPlatformName` — a root, or one label in front of it

## Main results

* `normalizeHost_of_isHostName` — such a name is already in its normalised form
* `classifyHost_eq_foreign` — what classification takes for somebody else's name
* `isHostName_subdomain` — a label in front of such a name gives another
* `isHostName_of_claimable`, `not_platform_of_claimable` — what a claimable name looks like
-/

namespace LampLight

open Js

/-! ### Normalisation -/

/-- `[0-9a-f:]` -/
def isLiteralChar (c : Char) : Bool := isDigit c || ('a' ≤ c && c ≤ 'f') || c = ':'

/-- `[a-z0-9-]` -/
def isLabelChar (c : Char) : Bool := isLowerAlnum c || c = '-'

/-- `[a-z0-9.-]` -/
def isHostChar (c : Char) : Bool := isLabelChar c || c = '.'

/-- `normalizeHost`, on the characters of a header that is present. -/
def normalizeChars (raw : List Char) : Option (List Char) :=
  let host := toLowerCase (trim raw)
  if host.head? = some '[' then
    -- An address literal keeps its brackets and loses whatever follows them.
    if ']' ∈ host then
      let body := (upTo ']' host).tail
      if body ≠ [] ∧ body.all isLiteralChar = true then some (upTo ']' host ++ [']']) else none
    else none
  else
    let host := upTo ':' host
    let host := if host.getLast? = some '.' then host.dropLast else host
    if host = [] then none
    else if !host.all isHostChar then none
    else if includes host ['.', '.'] then none
    else some host

/-- One spelling of a raw `Host` header, or nothing when it is not plausibly a host. -/
def normalizeHost (raw : Option String) : Option String :=
  raw.bind fun s => (normalizeChars s.toList).map String.ofList

/-! ### Classification -/

/-- What a host is: the platform's own, a subdomain of it, or somebody's. -/
inductive HostClassification where
  | apex
  | subdomain (slug : String)
  | foreign (host : String)
deriving DecidableEq

/-- The platform apex (`www` counts as it), a single label in front of it, or anything else. -/
def classifyHost (host apexDomain : String) : HostClassification :=
  let apex := toLowerCase (trim apexDomain.toList)
  if host.toList = apex ∨ host.toList = "www.".toList ++ apex then .apex
  else
    let label := host.toList.take (host.toList.length - (apex.length + 1))
    if ('.' :: apex).isSuffixOf host.toList ∧ 0 < label.length ∧ '.' ∉ label then
      .subdomain (String.ofList label)
    else .foreign host

/-- `^[a-z0-9](?:[a-z0-9-]{0,61}[a-z0-9])?$` -/
def isSlugChars : List Char → Bool
  | [] => false
  | [c] => isLowerAlnum c
  | c :: rest => isLowerAlnum c && (rest.dropLast.all isLabelChar && rest.dropLast.length ≤ 61)
      && rest.getLast?.any isLowerAlnum

/-- `isValidSlug(slug)`. -/
def isValidSlug (slug : String) : Bool := isSlugChars slug.toList

/-! ### Claims -/

/-- Why a hostname cannot be claimed. -/
inductive ClaimRefusal | malformed | platform
deriving DecidableEq

/-- What claiming a hostname came to. -/
inductive HostnameClaim where
  | ok (hostname : String)
  | refused (reason : ClaimRefusal)
deriving DecidableEq

/-- Whether a tenant may claim a hostname as its own. -/
def claimableHostname (candidate apexDomain : String) : HostnameClaim :=
  if ':' ∈ candidate.toList then .refused .malformed
  else
    match normalizeHost (some candidate) with
    | none => .refused .malformed
    | some hostname =>
      let labels := hostname.toList.splitOn '.'
      if labels.length < 2 ∨ 253 < Js.length hostname.toList then .refused .malformed
      else if !labels.all isSlugChars then .refused .malformed
      -- A final label of digits only means somebody typed an address.
      else if (labels.getLast?.getD []).all isDigit then .refused .malformed
      else
        let apex := toLowerCase (trim apexDomain.toList)
        if hostname.toList = apex ∨ ('.' :: apex).isSuffixOf hostname.toList = true then
          .refused .platform
        else .ok hostname

/-! ### Absolute URLs -/

/-- An absolute URL on a host. Loopback and `.localhost` get `http`, everything else `https`. -/
def absoluteUrl (host path : String) : String :=
  let hostname := upTo ':' host.toList
  let loc := hostname = "localhost".toList ∨ ".localhost".toList.isSuffixOf hostname = true ∨
    hostname = "127.0.0.1".toList ∨ hostname = "[::1]".toList
  (if loc then "http" else "https") ++ "://" ++ host ++ path

/-! ### Names in normalised form -/

/-- Dot-separated, non-empty labels over `[a-z0-9-]`. -/
def IsHostName (s : List Char) : Prop :=
  ∀ label ∈ s.splitOn '.', label ≠ [] ∧ ∀ c ∈ label, isLabelChar c = true

instance (s : List Char) : Decidable (IsHostName s) :=
  decidable_of_iff
    ((s.splitOn '.').all (fun label => !label.isEmpty && label.all isLabelChar) = true)
    (by simp [IsHostName])

theorem toNat_of_isLabelChar {c : Char} (h : isLabelChar c = true) :
    (97 ≤ c.toNat ∧ c.toNat ≤ 122) ∨ (48 ≤ c.toNat ∧ c.toNat ≤ 57) ∨ c.toNat = 45 := by
  simp only [isLabelChar, isLowerAlnum, Bool.or_eq_true, decide_eq_true_eq] at h
  rcases h with (h | h) | rfl
  · exact Or.inl (isLowerAscii_iff.mp h)
  · exact Or.inr (Or.inl (isDigit_iff.mp h))
  · exact Or.inr (Or.inr rfl)

theorem toNat_of_isHostChar {c : Char} (h : isHostChar c = true) :
    (97 ≤ c.toNat ∧ c.toNat ≤ 122) ∨ (45 ≤ c.toNat ∧ c.toNat ≤ 57) := by
  rw [isHostChar, Bool.or_eq_true, decide_eq_true_eq] at h
  rcases h with h | rfl
  · have := toNat_of_isLabelChar h
    omega
  · exact Or.inr (by decide)

theorem isSpace_of_isHostChar {c : Char} (h : isHostChar c = true) : isSpace c = false := by
  have hc := toNat_of_isHostChar h
  exact isSpace_eq_false (by omega)

theorem lowerChar_of_isHostChar {c : Char} (h : isHostChar c = true) : lowerChar c = [c] := by
  have hc := toNat_of_isHostChar h
  exact lowerChar_eq_self (by omega) (by omega)

theorem isHostChar_ne {c d : Char} (h : isHostChar c = true) (hd : isHostChar d = false) :
    c ≠ d := by
  rintro rfl
  rw [h] at hd
  exact absurd hd (by decide)

variable {s : List Char}

namespace IsHostName

theorem ne_nil (h : IsHostName s) : s ≠ [] := by
  rintro rfl
  exact (h [] (by simp)).1 rfl

theorem isHostChar (h : IsHostName s) {c : Char} (hc : c ∈ s) : isHostChar c = true := by
  rw [LampLight.isHostChar, Bool.or_eq_true, decide_eq_true_eq]
  by_cases hdot : c = '.'
  · exact Or.inr hdot
  · obtain ⟨label, hl, hcl⟩ := exists_mem_splitOn hc hdot
    exact Or.inl ((h label hl).2 c hcl)

theorem head?_ne (h : IsHostName s) {d : Char} (hd : LampLight.isHostChar d = false) :
    s.head? ≠ some d := by
  intro hs
  exact isHostChar_ne (h.isHostChar (List.mem_of_head? hs)) hd rfl

theorem getLast?_ne (h : IsHostName s) : s.getLast? ≠ some '.' := by
  intro hs
  obtain ⟨t, rfl⟩ := List.getLast?_eq_some_iff.mp hs
  rw [IsHostName, List.splitOn_append_cons_self] at h
  exact (h [] (by simp)).1 rfl

theorem not_includes (h : IsHostName s) : includes s ['.', '.'] = false := by
  rw [Bool.eq_false_iff, Ne, includes_iff]
  rintro ⟨a, b, rfl⟩
  rw [IsHostName, List.append_assoc, List.cons_append, List.cons_append, List.nil_append,
    List.splitOn_append_cons_self] at h
  have hsplit : ('.' :: b).splitOn '.' = [] :: b.splitOn '.' :=
    List.splitOn_append_cons_self [] b
  exact (h [] (by simp [hsplit])).1 rfl

theorem upTo_eq (h : IsHostName s) {d : Char} (hd : LampLight.isHostChar d = false) :
    upTo d s = s := by
  rw [upTo, List.takeWhile_eq_self_iff]
  intro c hc
  simpa using isHostChar_ne (h.isHostChar hc) hd

theorem toLowerCase_eq (h : IsHostName s) : toLowerCase s = s :=
  toLowerCase_eq_self fun _ hc => lowerChar_of_isHostChar (h.isHostChar hc)

theorem trim_eq (h : IsHostName s) : trim s = s :=
  trim_eq_self fun _ hc => isSpace_of_isHostChar (h.isHostChar hc)

/-- A name in normalised form is what normalisation makes of it. -/
theorem normalizeChars_eq (h : IsHostName s) : normalizeChars s = some s := by
  have hall : s.all LampLight.isHostChar = true := List.all_eq_true.mpr fun _ hc => h.isHostChar hc
  have hbracket : s.head? ≠ some '[' := h.head?_ne (by decide)
  have hport : upTo ':' s = s := h.upTo_eq (by decide)
  simp only [normalizeChars, h.trim_eq, h.toLowerCase_eq, if_neg hbracket, hport,
    if_neg h.getLast?_ne, if_neg h.ne_nil, hall, h.not_includes]
  rfl

end IsHostName

theorem normalizeHost_of_isHostName {host : String} (h : IsHostName host.toList) :
    normalizeHost (some host) = some host := by
  simp [normalizeHost, h.normalizeChars_eq]

/-- A label in front of a name. -/
theorem isHostName_subdomain {label : List Char} (hdot : '.' ∉ label) :
    IsHostName (label ++ '.' :: s) ↔
      (label ≠ [] ∧ ∀ c ∈ label, isLabelChar c = true) ∧ IsHostName s := by
  rw [IsHostName, List.splitOn_append_cons_self, List.splitOn_eq_singleton hdot]
  simp [IsHostName]

/-! ### The platform's names -/

/-- The root itself, or a single label in front of it. -/
def IsPlatformName (root host : List Char) : Prop :=
  host = root ∨ ∃ label, label ≠ [] ∧ '.' ∉ label ∧ host = label ++ '.' :: root

/-- A name of the platform ends as its root does. -/
theorem IsPlatformName.getLast?_eq {root host : List Char} (h : IsPlatformName root host) :
    ('.' :: host).getLast? = ('.' :: root).getLast? := by
  rcases h with rfl | ⟨label, -, -, rfl⟩
  · rfl
  · rw [← List.cons_append, List.getLast?_append_of_ne_nil _ (List.cons_ne_nil _ _)]

/-- The label in front of a root can be read off the host. -/
theorem subdomain_injective {a b t : List Char} (h : a ++ '.' :: t = b ++ '.' :: t) : a = b :=
  List.append_cancel_right h

/-- Classification knows the platform's names, `www` among them, from everybody else's. -/
theorem classifyHost_eq_foreign {host root : String} : classifyHost host root = .foreign host ↔
    ¬ IsPlatformName (toLowerCase (trim root.toList)) host.toList := by
  simp only [classifyHost]
  generalize toLowerCase (trim root.toList) = apex
  split_ifs with hapex hsub
  · refine iff_of_false id (not_not.mpr ?_)
    rcases hapex with hapex | hwww
    · exact Or.inl hapex
    · exact Or.inr ⟨"www".toList, by decide, by decide, hwww⟩
  · refine iff_of_false id (not_not.mpr (Or.inr ?_))
    obtain ⟨hsuffix, hlength, hdot⟩ := hsub
    obtain ⟨label, hhost⟩ := List.isSuffixOf_iff_suffix.mp hsuffix
    rw [← hhost, List.length_append, List.length_cons, Nat.add_sub_cancel, List.take_left]
      at hlength hdot
    exact ⟨label, List.ne_nil_of_length_pos hlength, hdot, hhost.symm⟩
  · refine iff_of_true rfl ?_
    rintro (rfl | ⟨label, hne, hdot, hhost⟩)
    · exact hapex (Or.inl rfl)
    · rw [hhost, List.length_append, List.length_cons, Nat.add_sub_cancel, List.take_left] at hsub
      exact hsub ⟨List.isSuffixOf_iff_suffix.mpr (List.suffix_append _ _),
        List.length_pos_of_ne_nil hne, hdot⟩

/-! ### Slugs -/

theorem isLabelChar_of_isLowerAlnum {c : Char} (h : isLowerAlnum c = true) :
    isLabelChar c = true := by
  simp [isLabelChar, h]

theorem isSlugChars_spec (h : isSlugChars s = true) :
    s ≠ [] ∧ ∀ c ∈ s, isLabelChar c = true := by
  match s, h with
  | [c], h =>
    refine ⟨by simp, fun d hd => ?_⟩
    rw [List.mem_singleton.mp hd]
    exact isLabelChar_of_isLowerAlnum h
  | c :: d :: rest, h =>
    simp only [isSlugChars, Bool.and_eq_true, List.all_eq_true, decide_eq_true_eq] at h
    obtain ⟨⟨hc, hmid, -⟩, hlast⟩ := h
    refine ⟨by simp, fun e he => ?_⟩
    rcases List.mem_cons.mp he with rfl | he
    · exact isLabelChar_of_isLowerAlnum hc
    · obtain ⟨init, z, hz⟩ : ∃ init z, d :: rest = init ++ [z] :=
        ⟨_, _, (List.dropLast_append_getLast (List.cons_ne_nil d rest)).symm⟩
      rw [hz] at hmid hlast he
      simp only [List.dropLast_concat, List.getLast?_concat, Option.any_some] at hmid hlast
      rcases List.mem_append.mp he with he | he
      · exact hmid e he
      · rw [List.mem_singleton.mp he]
        exact isLabelChar_of_isLowerAlnum hlast

theorem dot_notMem_of_isSlugChars (h : isSlugChars s = true) : '.' ∉ s := fun hdot =>
  absurd ((isSlugChars_spec h).2 '.' hdot) (by decide)

/-- The host of a tenant: its slug in front of the subdomain root. -/
theorem isHostName_slug_append {slug root : String} (hslug : isValidSlug slug = true)
    (hroot : IsHostName root.toList) : IsHostName (slug ++ "." ++ root).toList := by
  rw [String.toList_append, String.toList_append, List.append_assoc]
  exact (isHostName_subdomain (dot_notMem_of_isSlugChars hslug)).mpr ⟨isSlugChars_spec hslug, hroot⟩

/-! ### Claimable names -/

variable {candidate apexDomain hostname : String}

theorem claimableHostname_ok (h : claimableHostname candidate apexDomain = .ok hostname) :
    (hostname.toList.splitOn '.').all isSlugChars = true ∧
      hostname.toList ≠ toLowerCase (trim apexDomain.toList) ∧
      ¬ ('.' :: toLowerCase (trim apexDomain.toList)) <:+ hostname.toList := by
  rw [claimableHostname] at h
  split_ifs at h
  split at h
  · cases h
  · dsimp only at h
    split_ifs at h with hlen hslugs hdigits hplatform
    obtain rfl := HostnameClaim.ok.inj h
    rw [not_or, List.isSuffixOf_iff_suffix] at hplatform
    exact ⟨by simpa using hslugs, hplatform.1, hplatform.2⟩

theorem isHostName_of_claimable (h : claimableHostname candidate apexDomain = .ok hostname) :
    IsHostName hostname.toList := fun label hl =>
  isSlugChars_spec (List.all_eq_true.mp (claimableHostname_ok h).1 label hl)

/-- A claimable name is neither the platform's own name nor anything under it. -/
theorem not_platform_of_claimable (happ : IsHostName apexDomain.toList)
    (h : claimableHostname candidate apexDomain = .ok hostname) :
    hostname.toList ≠ apexDomain.toList ∧ ¬ ('.' :: apexDomain.toList) <:+ hostname.toList := by
  have hok := claimableHostname_ok h
  rw [happ.trim_eq, happ.toLowerCase_eq] at hok
  exact hok.2

end LampLight
