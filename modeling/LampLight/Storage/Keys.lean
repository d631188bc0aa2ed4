import LampLight.Schema
import Mathlib.Data.Nat.ModEq

/-!
# Object keys

There is one bucket, and everything of a tenant lies under `t/<tenant id>/`. A key is built from ids
and a sanitised filename, and verified before anything is signed for it.

## Main results

* `buildObjectKey_injective` — a key tells the tenant, the purpose and the object it was built for
* `tenant_eq_of_keyBelongsToTenant` — a built key is refused for every tenant but its own
-/

namespace LampLight

open Js

/-! ### The text of a uuid -/

/-- `n` hexadecimal digits, most significant first. -/
def hexDigits : ℕ → ℕ → List Char
  | 0, _ => []
  | n + 1, v => hexDigits n (v / 16) ++ [Nat.digitChar (v % 16)]

/-- Digits in groups of 8, 4, 4, 4 and 12. -/
def hyphenate (digits : List Char) : List Char :=
  digits.take 8 ++ '-' :: ((digits.drop 8).take 4 ++ '-' :: ((digits.drop 12).take 4 ++
    '-' :: ((digits.drop 16).take 4 ++ '-' :: digits.drop 20)))

/-- The text of a uuid, as the database and the runtime print it. -/
def uuidText (id : Uuid) : String := String.ofList (hyphenate (hexDigits 32 id.toNat))

theorem exists_of_mem_hexDigits {n v : ℕ} {c : Char} (hc : c ∈ hexDigits n v) :
    ∃ a < 16, c = Nat.digitChar a := by
  induction n generalizing v with
  | zero => cases hc
  | succ n ih =>
    rcases List.mem_append.mp hc with hc | hc
    · exact ih hc
    · exact ⟨v % 16, Nat.mod_lt _ (by omega), List.mem_singleton.mp hc⟩

theorem length_hexDigits (n v : ℕ) : (hexDigits n v).length = n := by
  induction n generalizing v with
  | zero => rfl
  | succ n ih => rw [hexDigits, List.length_append, ih, List.length_singleton]

theorem hyphen_notMem_hexDigits (n v : ℕ) : '-' ∉ hexDigits n v := by
  intro h
  obtain ⟨a, ha, hdigit⟩ := exists_of_mem_hexDigits h
  have hne : ∀ a < 16, '-' ≠ Nat.digitChar a := by decide
  exact hne a ha hdigit

theorem hexDigits_inj {n v v' : ℕ} (h : hexDigits n v = hexDigits n v') (hv : v < 16 ^ n)
    (hv' : v' < 16 ^ n) : v = v' := by
  induction n generalizing v v' with
  | zero => omega
  | succ n ih =>
    obtain ⟨hinit, hlast⟩ := List.append_inj' h rfl
    have hquot : v / 16 = v' / 16 := by
      refine ih hinit ?_ ?_ <;> rw [Nat.div_lt_iff_lt_mul (by omega)] <;> rw [← pow_succ] <;>
        assumption
    have hrem : v % 16 = v' % 16 :=
      digitChar_inj (v % 16) (Nat.mod_lt _ (by omega)) (v' % 16) (Nat.mod_lt _ (by omega))
        (List.singleton_inj.mp hlast)
    omega

/-- Without its hyphens a hyphenated text is what it was. -/
theorem filter_hyphenate {digits : List Char} (h : '-' ∉ digits) :
    (hyphenate digits).filter (fun c => c ≠ '-') = digits := by
  have hkeep : ∀ {part : List Char}, part ⊆ digits → part.filter (fun c => c ≠ '-') = part := by
    intro part hpart
    exact List.filter_eq_self.mpr fun c hc => decide_eq_true fun hhyphen => h (hhyphen ▸ hpart hc)
  have htake : ∀ i, (digits.drop i).take 4 ⊆ digits :=
    fun i => List.Subset.trans (List.take_subset _ _) (List.drop_subset _ _)
  simp only [hyphenate, List.filter_append, List.filter_cons, ne_eq, not_true_eq_false,
    decide_false, Bool.false_eq_true, if_false]
  rw [hkeep (List.take_subset _ _), hkeep (htake 8), hkeep (htake 12), hkeep (htake 16),
    hkeep (List.drop_subset _ _)]
  conv_rhs => rw [← List.take_append_drop 8 digits, ← List.take_append_drop 4 (digits.drop 8),
    List.drop_drop, ← List.take_append_drop 4 (digits.drop 12), List.drop_drop,
    ← List.take_append_drop 4 (digits.drop 16), List.drop_drop]

theorem uuidText_injective : Function.Injective uuidText := by
  intro a b h
  have hlist : hyphenate (hexDigits 32 a.toNat) = hyphenate (hexDigits 32 b.toNat) :=
    String.ofList_injective h
  have hfilter := congrArg (List.filter fun c => c ≠ '-') hlist
  rw [filter_hyphenate (hyphen_notMem_hexDigits 32 _),
    filter_hyphenate (hyphen_notMem_hexDigits 32 _)] at hfilter
  exact BitVec.eq_of_toNat_eq
    (hexDigits_inj hfilter (by simpa using a.isLt) (by simpa using b.isLt))

theorem length_uuidText (id : Uuid) : (uuidText id).toList.length = 36 := by
  rw [uuidText, String.toList_ofList, hyphenate]
  simp [length_hexDigits]

/-- A uuid is made of hyphens and digits. -/
theorem notMem_uuidText (id : Uuid) {c : Char} (hc : c ≠ '-')
    (hdigit : ∀ a < 16, c ≠ Nat.digitChar a) : c ∉ (uuidText id).toList := by
  intro h
  rw [uuidText, String.toList_ofList] at h
  have hmem : c ∈ (hyphenate (hexDigits 32 id.toNat)).filter (fun c => c ≠ '-') :=
    List.mem_filter.mpr ⟨h, decide_eq_true hc⟩
  rw [filter_hyphenate (hyphen_notMem_hexDigits 32 _)] at hmem
  obtain ⟨a, ha, heq⟩ := exists_of_mem_hexDigits hmem
  exact hdigit a ha heq

theorem slash_notMem_uuidText (id : Uuid) : '/' ∉ (uuidText id).toList :=
  notMem_uuidText id (by decide) (by decide)

theorem dot_notMem_uuidText (id : Uuid) : '.' ∉ (uuidText id).toList :=
  notMem_uuidText id (by decide) (by decide)

/-! ### Filenames -/

/-- `[a-zA-Z0-9._-]`, what a stored filename may keep. -/
def isFilenameSafe (c : Char) : Bool :=
  isLowerAlnum c || ('A' ≤ c && c ≤ 'Z') || c = '.' || c = '_' || c = '-'

/-- A filename stripped down to something safe to put in a key. -/
def sanitizeFilename (filename : String) : String :=
  let base := filename.toList.rtakeWhile fun c => c ≠ '\\' && c ≠ '/'
  let cleaned := ((replaceRuns (· = '-') '-' (replaceRuns (fun c => !isFilenameSafe c) '-' base)
    ).dropWhile fun c => c = '.' || c = '-').rdropWhile (· = '-')
  let trimmed := cleaned.take 120
  if trimmed = [] then "file" else String.ofList trimmed

example : sanitizeFilename "C:\\media\\Lecture 01 - Genesis.mp3" = "Lecture-01-Genesis.mp3" := by
  decide

/-! ### Keys -/

/-- What an object is stored for. -/
inductive MediaPurpose | lesson | branding
deriving DecidableEq

/-- The purpose as it stands in a key. -/
def MediaPurpose.text : MediaPurpose → String
  | .lesson => "lesson"
  | .branding => "branding"

/-- The prefix every object of a tenant sits under, with its trailing slash. -/
def tenantPrefix (tenantId : Uuid) : String := "t/" ++ uuidText tenantId ++ "/"

/-- What a key is built from. -/
structure KeyParams where
  tenantId : Uuid
  purpose : MediaPurpose
  objectId : Uuid
  filename : String
deriving DecidableEq

/-- The key of an object: tenant, purpose, id and filename. -/
def buildObjectKey (params : KeyParams) : String :=
  tenantPrefix params.tenantId ++ params.purpose.text ++ "/" ++ uuidText params.objectId ++ "/" ++
    sanitizeFilename params.filename

/-- Whether a key belongs to this tenant. A key with `..` belongs to nobody. -/
def keyBelongsToTenant (key : String) (tenantId : Uuid) : Bool :=
  if key = "" ∨ includes key.toList ['.', '.'] = true then false
  else if key.toList.head? = some '/' then false
  else (tenantPrefix tenantId).toList.isPrefixOf key.toList

/-! ### A key tells what it was built for -/

/-- The first piece of a text with slashes. -/
theorem append_slash_inj {a b s t : List Char} (ha : '/' ∉ a) (hb : '/' ∉ b)
    (h : a ++ '/' :: s = b ++ '/' :: t) : a = b ∧ s = t := by
  induction a generalizing b with
  | nil =>
    cases b with
    | nil => exact ⟨rfl, (List.cons.inj h).2⟩
    | cons d b =>
      have hd : '/' = d := (List.cons.inj h).1
      exact absurd (hd ▸ List.mem_cons_self ..) hb
  | cons c a ih =>
    cases b with
    | nil =>
      have hc : c = '/' := (List.cons.inj h).1
      exact absurd (hc ▸ List.mem_cons_self ..) ha
    | cons d b =>
      obtain ⟨hcd, hrest⟩ := List.cons.inj h
      obtain ⟨hab, hst⟩ := ih (fun hc => ha (List.mem_cons_of_mem _ hc))
        (fun hc => hb (List.mem_cons_of_mem _ hc)) hrest
      exact ⟨by rw [hcd, hab], hst⟩

theorem toList_tenantPrefix (tenantId : Uuid) (rest : List Char) :
    (tenantPrefix tenantId).toList ++ rest
      = 't' :: '/' :: ((uuidText tenantId).toList ++ '/' :: rest) := by
  simp [tenantPrefix, String.toList_append]

theorem toList_buildObjectKey (params : KeyParams) :
    (buildObjectKey params).toList = (tenantPrefix params.tenantId).toList ++
      (params.purpose.text.toList ++ '/' :: ((uuidText params.objectId).toList ++
        '/' :: (sanitizeFilename params.filename).toList)) := by
  simp [buildObjectKey, String.toList_append]

theorem slash_notMem_purpose (purpose : MediaPurpose) : '/' ∉ purpose.text.toList := by
  cases purpose <;> decide

theorem purpose_text_inj {a b : MediaPurpose} (h : a.text.toList = b.text.toList) : a = b := by
  cases a with
  | lesson =>
    cases b with
    | lesson => rfl
    | branding => exact absurd h (by decide)
  | branding =>
    cases b with
    | lesson => exact absurd h (by decide)
    | branding => rfl

theorem uuidText_toList_inj {a b : Uuid} (h : (uuidText a).toList = (uuidText b).toList) : a = b :=
  uuidText_injective (String.toList_injective h)

/-- A key tells the tenant, the purpose and the object it was built for. -/
theorem buildObjectKey_injective {p q : KeyParams} (h : buildObjectKey p = buildObjectKey q) :
    p.tenantId = q.tenantId ∧ p.purpose = q.purpose ∧ p.objectId = q.objectId := by
  have hlist := congrArg String.toList h
  rw [toList_buildObjectKey, toList_buildObjectKey, toList_tenantPrefix, toList_tenantPrefix]
    at hlist
  obtain ⟨htenant, hrest⟩ := append_slash_inj (slash_notMem_uuidText _) (slash_notMem_uuidText _)
    (List.cons.inj (List.cons.inj hlist).2).2
  obtain ⟨hpurpose, hrest⟩ := append_slash_inj (slash_notMem_purpose _)
    (slash_notMem_purpose _) hrest
  obtain ⟨hobject, -⟩ := append_slash_inj (slash_notMem_uuidText _) (slash_notMem_uuidText _) hrest
  exact ⟨uuidText_toList_inj htenant, purpose_text_inj hpurpose, uuidText_toList_inj hobject⟩

theorem ne_empty_of_keyBelongsToTenant {key : String} {tenantId : Uuid}
    (h : keyBelongsToTenant key tenantId = true) : key ≠ "" := by
  rintro rfl
  rw [keyBelongsToTenant, if_pos (Or.inl rfl)] at h
  cases h

/-- A built key is refused for every tenant but its own. -/
theorem tenant_eq_of_keyBelongsToTenant {params : KeyParams} {tenantId : Uuid}
    (h : keyBelongsToTenant (buildObjectKey params) tenantId = true) :
    params.tenantId = tenantId := by
  rw [keyBelongsToTenant] at h
  split_ifs at h
  obtain ⟨rest, hrest⟩ := List.isPrefixOf_iff_prefix.mp h
  rw [toList_buildObjectKey, toList_tenantPrefix, toList_tenantPrefix] at hrest
  obtain ⟨htenant, -⟩ := append_slash_inj (slash_notMem_uuidText _) (slash_notMem_uuidText _)
    (List.cons.inj (List.cons.inj hrest).2).2
  exact (uuidText_toList_inj htenant).symm

/-- A part without dots makes no difference to whether two dots stand in a row. -/
theorem includes_dots_append {a : List Char} (ha : '.' ∉ a) (b : List Char) :
    includes (a ++ b) ['.', '.'] = includes b ['.', '.'] := by
  induction a with
  | nil => rfl
  | cons c a ih =>
    rw [List.mem_cons, not_or] at ha
    obtain ⟨hc, ha⟩ := ha
    have hprefix : List.isPrefixOf ['.', '.'] (c :: (a ++ b)) = false := by
      rw [List.isPrefixOf, beq_false_of_ne hc, Bool.false_and]
    rw [← ih ha, includes, List.cons_append, List.tails_cons, List.any_cons, hprefix,
      Bool.false_or, includes]

/-- A built key is accepted for its own tenant, unless its filename keeps two dots in a row. -/
theorem keyBelongsToTenant_buildObjectKey (params : KeyParams) :
    keyBelongsToTenant (buildObjectKey params) params.tenantId = true ↔
      includes (sanitizeFilename params.filename).toList ['.', '.'] = false := by
  have hprefix : (tenantPrefix params.tenantId).toList.isPrefixOf
      (buildObjectKey params).toList = true := by
    rw [toList_buildObjectKey]
    exact List.isPrefixOf_iff_prefix.mpr (List.prefix_append _ _)
  have hdots : includes (buildObjectKey params).toList ['.', '.']
      = includes (sanitizeFilename params.filename).toList ['.', '.'] := by
    have hpurpose : '.' ∉ params.purpose.text.toList := by cases params.purpose <;> decide
    have hhead : (buildObjectKey params).toList
        = ('t' :: '/' :: ((uuidText params.tenantId).toList ++ '/' :: (params.purpose.text.toList ++
            '/' :: ((uuidText params.objectId).toList ++ ['/'])))) ++
          (sanitizeFilename params.filename).toList := by
      rw [toList_buildObjectKey, toList_tenantPrefix]
      simp only [List.cons_append, List.append_assoc, List.nil_append]
    rw [hhead]
    exact includes_dots_append (by simp [dot_notMem_uuidText, hpurpose]) _
  have hhead : (buildObjectKey params).toList.head? = some 't' := by
    rw [toList_buildObjectKey, toList_tenantPrefix]
    rfl
  have hne : buildObjectKey params ≠ "" := by
    intro h
    rw [h] at hhead
    cases hhead
  rw [keyBelongsToTenant, hdots, hprefix, hhead]
  simp [hne]

end LampLight
