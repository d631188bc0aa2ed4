import LampLight.Storage.Objects

/-!
# Filenames that make a key nobody owns

The builder of a key takes whatever filename a form sends and strips it down; the check before
signing refuses every key with two dots in a row. The two were written apart, and stripping removes
dots at the front of a filename only. A filename that keeps two dots in a row further in gives a key
that is refused for the tenant it was built for.

## Main definitions

* `keptPart` — what stripping makes of a text, up to its length
* `KeepsTwoDots` — two dots in a row stay in what is kept of a filename
* `AcceptedKey` — a built key is accepted for its tenant and no other, and never refused as foreign

## Main results

* `includes_sanitizeFilename` — which filenames keep two dots in a row
* `builtKey_accepted_iff` — a built key is accepted except for those filenames
-/

namespace LampLight

open Js

/-! ### What is kept of a filename -/

/-- `[a-zA-Z0-9_]`: neither replaced nor dropped from the front. -/
def isWordChar (c : Char) : Bool := isFilenameSafe c && c ≠ '.' && c ≠ '-'

/-- The part of a filename after its last slash or backslash. -/
def baseName (filename : String) : List Char :=
  filename.toList.rtakeWhile fun c => c ≠ '\\' && c ≠ '/'

/-- Word characters and dots are kept, and a run of anything else becomes one hyphen. -/
def keptPart (s : List Char) : List Char :=
  replaceRuns (fun c => c = '-' || !isFilenameSafe c) '-' s

/-- From its first word character on, the last part of a filename has two dots in a row, within the
first 120 characters of what is kept. -/
def KeepsTwoDots (filename : String) : Prop :=
  ∃ x y, (baseName filename).dropWhile (fun c => !isWordChar c) = x ++ '.' :: '.' :: y ∧
    (keptPart x).length + 2 ≤ 120

/-- Stripping, before the hyphens at the end and the length are seen to. -/
theorem dropWhile_squeezed (s : List Char) :
    (replaceRuns (· = '-') '-' (replaceRuns (fun c => !isFilenameSafe c) '-' s)).dropWhile
        (fun c => c = '.' || c = '-')
      = keptPart (s.dropWhile fun c => !isWordChar c) := by
  have hdropped : (fun c => (c = '-' || !isFilenameSafe c) || (c = '.' || c = '-'))
      = fun c => !isWordChar c := by
    funext c
    by_cases hdot : c = '.' <;> by_cases hhyphen : c = '-' <;> simp [isWordChar, hdot, hhyphen]
  rw [replaceRuns_replaceRuns, dropWhile_replaceRuns (by rfl), hdropped, keptPart]

/-- A sanitised filename, unless nothing is left of it. -/
def strippedName (filename : String) : List Char :=
  ((keptPart ((baseName filename).dropWhile fun c => !isWordChar c)).rdropWhile (· = '-')).take 120

theorem sanitizeFilename_eq (filename : String) :
    sanitizeFilename filename
      = if strippedName filename = [] then "file" else String.ofList (strippedName filename) := by
  simp only [sanitizeFilename, dropWhile_squeezed]
  rfl

/-- A kept text has two dots in a row where the text itself has them. -/
theorem keptPart_dots_iff {s : List Char} {n : ℕ} :
    (∃ u v, keptPart s = u ++ '.' :: '.' :: v ∧ u.length + 2 ≤ n) ↔
      ∃ x y, s = x ++ '.' :: '.' :: y ∧ (keptPart x).length + 2 ≤ n := by
  let p : Char → Bool := fun c => c = '-' || !isFilenameSafe c
  have hdot : p '.' = false := by decide
  constructor
  · rintro ⟨u, v, h, hn⟩
    obtain ⟨x, rest, rfl, rfl, hrest⟩ := exists_of_replaceRuns_eq (by decide) h
    obtain ⟨gap, y, rfl, hgap, -⟩ := exists_of_replaceRuns_eq (u := []) (by decide) hrest
    obtain rfl := replaceRuns_eq_nil hgap
    exact ⟨x, y, rfl, hn⟩
  · rintro ⟨x, y, rfl, hn⟩
    refine ⟨keptPart x, keptPart y, ?_, hn⟩
    show replaceRuns p '-' (x ++ '.' :: '.' :: y) = _
    rw [replaceRuns_append_cons hdot, replaceRuns_cons_of_neg hdot]
    rfl

/-- **The filenames that keep two dots in a row.** -/
theorem includes_sanitizeFilename (filename : String) :
    includes (sanitizeFilename filename).toList ['.', '.'] = true ↔ KeepsTwoDots filename := by
  have hhyphen : ∀ u v : List Char, (u ++ '.' :: '.' :: v).rdropWhile (· = '-')
      = u ++ '.' :: '.' :: v.rdropWhile (· = '-') := by
    intro u v
    rw [rdropWhile_append_cons (by decide), ← List.nil_append ('.' :: v),
      rdropWhile_append_cons (by decide), List.nil_append]
  have hstrip : includes (sanitizeFilename filename).toList ['.', '.'] = true ↔
      ['.', '.'] <:+: strippedName filename := by
    rw [sanitizeFilename_eq]
    split_ifs with hempty
    · rw [hempty]
      decide
    · rw [includes_iff, String.toList_ofList]
  rw [hstrip, strippedName, infix_take_iff, KeepsTwoDots, ← keptPart_dots_iff]
  constructor
  · rintro ⟨u, v, h, hn⟩
    obtain ⟨hyphens, hrest⟩ := List.rdropWhile_prefix (· = '-')
      (keptPart ((baseName filename).dropWhile fun c => !isWordChar c))
    refine ⟨u, v ++ hyphens, ?_, hn⟩
    rw [← hrest, h]
    simp
  · rintro ⟨u, v, h, hn⟩
    refine ⟨u, v.rdropWhile (· = '-'), ?_, hn⟩
    rw [h, hhyphen]
    simp

/-! ### Built keys -/

/-- A built key is accepted for its own tenant and no other, and never refused as foreign. -/
structure AcceptedKey (params : KeyParams) : Prop where
  belongs : ∀ tenantId, keyBelongsToTenant (buildObjectKey params) tenantId = true ↔
    tenantId = params.tenantId
  read : ∀ env signer now message,
    signObjectRead env signer params.tenantId (buildObjectKey params) now
      ≠ .error (.access message)
  write : ∀ env signer contentType now bucket message,
    signObjectWrite env signer params.tenantId (buildObjectKey params) contentType now bucket
      ≠ .error (.access message)

/-- A key that belongs is never refused as foreign. -/
theorem openStorage_ne_access {tenantId : Uuid} {key : String} (env : Env)
    (hkey : keyBelongsToTenant key tenantId = true) (message : String) :
    openStorage env tenantId key ≠ .error (.access message) := by
  rw [openStorage, assertKeyBelongs, if_pos hkey]
  simp only [createSigner]
  split <;> simp

/-- **A built key is accepted for its tenant, unless two dots in a row are kept of its
filename.** -/
theorem builtKey_accepted_iff (params : KeyParams) :
    AcceptedKey params ↔ ¬ KeepsTwoDots params.filename := by
  rw [← includes_sanitizeFilename, Bool.not_eq_true, ← keyBelongsToTenant_buildObjectKey]
  constructor
  · intro haccepted
    exact (haccepted.belongs params.tenantId).mpr rfl
  · intro hkey
    refine ⟨fun tenantId => ⟨fun h => (tenant_eq_of_keyBelongsToTenant h).symm, ?_⟩, ?_, ?_⟩
    · rintro rfl
      exact hkey
    · intro env signer now message h
      refine openStorage_ne_access env hkey message ?_
      simp only [signObjectRead] at h
      exact Machine.map_eq_error.mp h
    · intro env signer contentType now bucket message h
      refine openStorage_ne_access env hkey message ?_
      simp only [signObjectWrite] at h
      exact Machine.map_eq_error.mp h

/-- Notes for a lesson, uploaded as `notes..pdf`. -/
def dottedUpload : KeyParams where
  tenantId := 1
  purpose := .lesson
  objectId := 2
  filename := "notes..pdf"

/-- The key is refused for its own tenant, and nothing is signed for it. -/
theorem dotted_key_refused :
    keyBelongsToTenant (buildObjectKey dottedUpload) dottedUpload.tenantId = false ∧
      ¬ AcceptedKey dottedUpload := by
  have hkept : includes (sanitizeFilename dottedUpload.filename).toList ['.', '.'] = true := by
    decide
  have hrefused : ¬ keyBelongsToTenant (buildObjectKey dottedUpload) dottedUpload.tenantId
      = true := by
    rw [keyBelongsToTenant_buildObjectKey, hkept]
    simp
  refine ⟨Bool.eq_false_iff.mpr hrefused, fun haccepted => ?_⟩
  exact hrefused ((haccepted.belongs _).mpr rfl)

end LampLight
