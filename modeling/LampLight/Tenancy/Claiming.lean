import LampLight.Env
import LampLight.Tenancy.Spelling

/-!
# What a tenant may claim, and whose it is

A claim is checked against the apex of the platform; a request is classified by the root of the
subdomains. Both are configured, and nothing at start-up relates them. When the root is the apex or
under it, a name that may be claimed is never one of the platform's. When it is not, every tenant
may claim what belongs to the other tenants, and the root itself.

## Main definitions

* `AtOrUnder` — what the check of a claim keeps for the platform
* `NameShape` — what it asks of the labels of a name

## Main results

* `claimableHostname_eq_ok` — the check, as one condition
* `claimable_foreign_iff` — the configurations under which nothing of the platform's can be claimed
-/

namespace LampLight

open Js

/-! ### The check of a claim -/

/-- The name itself, or a name under it. -/
def AtOrUnder (apex host : List Char) : Prop := host = apex ∨ ('.' :: apex) <:+ host

instance (apex host : List Char) : Decidable (AtOrUnder apex host) :=
  inferInstanceAs (Decidable (_ ∨ _))

/-- Labels that are slugs, the last one not a number, and no more than 253 characters. -/
structure NameShape (s : List Char) : Prop where
  slugs : ∀ label ∈ s.splitOn '.', isSlugChars label = true
  notNumeric : ((s.splitOn '.').getLast?.getD []).all isDigit = false
  short : Js.length s ≤ 253

variable {candidate apexDomain hostname : String} {s label root apex : List Char}

theorem claimableHostname_eq_ok : claimableHostname candidate apexDomain = .ok hostname ↔
    ':' ∉ candidate.toList ∧ normalizeHost (some candidate) = some hostname ∧
      2 ≤ (hostname.toList.splitOn '.').length ∧ NameShape hostname.toList ∧
      ¬ AtOrUnder (hostText apexDomain.toList) hostname.toList := by
  rw [claimableHostname, AtOrUnder, hostText, ← List.isSuffixOf_iff_suffix]
  split_ifs with hport
  · simp [hport]
  cases hname : normalizeHost (some candidate) with
  | none => simp
  | some name =>
    dsimp only
    constructor
    · intro h
      split_ifs at h with hlength hslugs hnumeric hplatform
      obtain rfl := HostnameClaim.ok.inj h
      rw [not_or, Nat.not_lt, Nat.not_lt] at hlength
      exact ⟨hport, rfl, hlength.1,
        ⟨by simpa using hslugs, by simpa using hnumeric, hlength.2⟩, hplatform⟩
    · rintro ⟨-, heq, hlabels, ⟨hslugs, hnumeric, hshort⟩, hplatform⟩
      obtain rfl := Option.some.inj heq
      rw [if_neg (by omega), if_neg (by simpa using hslugs), if_neg (by simp [hnumeric]),
        if_neg hplatform]

theorem NameShape.isHostName (h : NameShape s) : IsHostName s := fun part hpart =>
  isSlugChars_spec (h.slugs part hpart)

/-- A name of the right shape is claimed as it stands. -/
theorem claimableHostname_self (hlabels : 2 ≤ (hostname.toList.splitOn '.').length)
    (hshape : NameShape hostname.toList)
    (hfree : ¬ AtOrUnder (hostText apexDomain.toList) hostname.toList) :
    claimableHostname hostname apexDomain = .ok hostname := by
  refine claimableHostname_eq_ok.mpr ⟨?_, ?_, hlabels, hshape, hfree⟩
  · exact isHostChar_ne_colon fun c hc => hshape.isHostName.isHostChar hc
  · exact normalizeHost_of_isHostName hshape.isHostName

/-! ### Labels in front of a name -/

theorem splitOn_subdomain (hdot : '.' ∉ label) :
    (label ++ '.' :: root).splitOn '.' = label :: root.splitOn '.' := by
  rw [List.splitOn_append_cons_self, List.splitOn_eq_singleton hdot]
  rfl

theorem length_append (s t : List Char) : Js.length (s ++ t) = Js.length s + Js.length t := by
  simp [Js.length]

theorem length_cons_le (c : Char) (t : List Char) : Js.length t ≤ Js.length (c :: t) := by
  simp [Js.length]

theorem getLast?_subdomain (hdot : '.' ∉ label) :
    ((label ++ '.' :: root).splitOn '.').getLast? = (root.splitOn '.').getLast? := by
  rw [splitOn_subdomain hdot, List.getLast?_cons_of_ne_nil (List.splitOn_ne_nil _ _)]

/-- What is behind the first label of a name has its shape. -/
theorem NameShape.of_subdomain (hdot : '.' ∉ label) (h : NameShape (label ++ '.' :: root)) :
    NameShape root := by
  refine ⟨fun part hpart => h.slugs part ?_, ?_, ?_⟩
  · rw [splitOn_subdomain hdot]
    exact List.mem_cons_of_mem _ hpart
  · rw [← getLast?_subdomain hdot]
    exact h.notNumeric
  · have hshort := h.short
    have hle := length_cons_le '.' root
    rw [length_append] at hshort
    omega

/-- A slug in front of a name is under it. -/
theorem NameShape.subdomain (h : NameShape root) (hslug : isSlugChars label = true)
    (hshort : Js.length label + Js.length root ≤ 252) : NameShape (label ++ '.' :: root) := by
  have hdot := dot_notMem_of_isSlugChars hslug
  refine ⟨fun part hpart => ?_, ?_, ?_⟩
  · rw [splitOn_subdomain hdot] at hpart
    rcases List.mem_cons.mp hpart with rfl | hpart
    · exact hslug
    · exact h.slugs part hpart
  · rw [getLast?_subdomain hdot]
    exact h.notNumeric
  · have hone : Js.length ('.' :: root) = 1 + Js.length root := by
      simp [Js.length]
    rw [length_append, hone]
    omega

theorem length_of_isSlugChars (h : isSlugChars s = true) : Js.length s ≤ 63 := by
  have hunits : Js.length s = s.length := by
    have hones : s.map (fun c => if c.toNat < 65536 then 1 else 2) = s.map fun _ => 1 := by
      refine List.map_congr_left fun c hc => if_pos ?_
      have hnat := toNat_of_isLabelChar ((isSlugChars_spec h).2 c hc)
      omega
    rw [Js.length, hones]
    simp
  rw [hunits]
  rcases s with _ | ⟨c, _ | ⟨d, rest⟩⟩
  · exact Nat.zero_le _
  · exact Nat.succ_le_succ (Nat.zero_le _)
  · simp only [isSlugChars, Bool.and_eq_true, decide_eq_true_eq, List.length_dropLast] at h
    simp only [List.length_cons] at h ⊢
    omega

/-! ### Claims on the platform's names -/

theorem AtOrUnder.subdomain (h : AtOrUnder apex root) : AtOrUnder apex (label ++ '.' :: root) := by
  refine Or.inr ?_
  rcases h with rfl | h
  · exact List.suffix_append _ _
  · exact h.trans ((List.suffix_cons _ _).trans (List.suffix_append _ _))

/-- A name one label under another is under nothing else. -/
theorem atOrUnder_of_subdomain (hdot : '.' ∉ label) (h : AtOrUnder apex (label ++ '.' :: root)) :
    label ++ '.' :: root = apex ∨ AtOrUnder apex root := by
  rcases h with h | ⟨front, hfront⟩
  · exact Or.inl h
  right
  rcases List.append_eq_append_iff.mp hfront with ⟨rest, hlabel, hrest⟩ | ⟨rest, hfront', hrest⟩
  · cases rest with
    | nil => exact Or.inl (List.cons.inj hrest).2.symm
    | cons c rest =>
      obtain rfl : '.' = c := (List.cons.inj hrest).1
      exact absurd (hlabel ▸ List.mem_append_right _ (List.mem_cons_self ..)) hdot
  · cases rest with
    | nil => exact Or.inl (List.cons.inj hrest).2
    | cons c rest => exact Or.inr ⟨rest, (List.cons.inj hrest).2.symm⟩

/-- Two labels cannot both be what the apex has in front of the root. -/
theorem exists_free_label (hroot : ¬ AtOrUnder apex root) :
    ∃ label, isSlugChars label = true ∧ Js.length label = 1 ∧
      ¬ AtOrUnder apex (label ++ '.' :: root) := by
  by_cases ha : "a".toList ++ '.' :: root = apex
  · refine ⟨"b".toList, by decide, by decide, fun hunder => ?_⟩
    rcases atOrUnder_of_subdomain (by decide) hunder with hb | hunder
    · exact absurd (subdomain_injective (hb.trans ha.symm)) (by decide)
    · exact hroot hunder
  · refine ⟨"a".toList, by decide, by decide, fun hunder => ?_⟩
    rcases atOrUnder_of_subdomain (by decide) hunder with heq | hunder
    · exact ha heq
    · exact hroot hunder

/-- Outside the apex, a root of the right shape is itself there for the taking, or what is in front
of it is. -/
theorem exists_platform_claim (hshape : NameShape root) (hroot : ¬ AtOrUnder apex root) :
    ∃ host, IsPlatformName root host ∧ 2 ≤ (host.splitOn '.').length ∧ NameShape host ∧
      ¬ AtOrUnder apex host := by
  by_cases hlabels : 2 ≤ (root.splitOn '.').length
  · exact ⟨root, Or.inl rfl, hlabels, hshape, hroot⟩
  obtain ⟨part, hpart⟩ : ∃ part, root.splitOn '.' = [part] := by
    match hsplit : root.splitOn '.' with
    | [] => exact absurd hsplit (List.splitOn_ne_nil _ _)
    | [part] => exact ⟨part, rfl⟩
    | _ :: _ :: _ => exact absurd (by simp [hsplit]) hlabels
  have hdot : '.' ∉ root := by
    intro hmem
    obtain ⟨front, back, rfl⟩ := List.append_of_mem hmem
    rw [List.splitOn_append_cons_self] at hpart
    have hcount := congrArg List.length hpart
    have hfront := List.length_pos_of_ne_nil (List.splitOn_ne_nil '.' front)
    have hback := List.length_pos_of_ne_nil (List.splitOn_ne_nil '.' back)
    rw [List.length_append, List.length_singleton] at hcount
    omega
  have hslug : isSlugChars root = true :=
    hshape.slugs root (by rw [List.splitOn_eq_singleton hdot]; exact List.mem_singleton.mpr rfl)
  have hlength := length_of_isSlugChars hslug
  obtain ⟨label, hlabel, hone, hfree⟩ := exists_free_label hroot
  have hlabelDot := dot_notMem_of_isSlugChars hlabel
  refine ⟨label ++ '.' :: root, Or.inr ⟨label, (isSlugChars_spec hlabel).1, hlabelDot, rfl⟩, ?_,
    hshape.subdomain hlabel (by omega), hfree⟩
  rw [splitOn_subdomain hlabelDot, hpart]
  exact Nat.le_refl 2

/-- **What the platform keeps for itself.** Every name that may be claimed is in normalised form,
may be claimed again as it stands, and belongs to nobody on the platform, exactly when the root of
the subdomains is at or under the apex, or is nothing a claim could end in. -/
theorem claimable_foreign_iff (env : Env) :
    (∀ candidate hostname : String,
      claimableHostname candidate env.platformApexDomain = .ok hostname →
        normalizeHost (some hostname) = some hostname ∧
          classifyHost hostname env.tenantSubdomainRoot = .foreign hostname ∧
          claimableHostname hostname env.platformApexDomain = .ok hostname) ↔
    AtOrUnder (hostText env.platformApexDomain.toList) (hostText env.tenantSubdomainRoot.toList) ∨
      ¬ NameShape (hostText env.tenantSubdomainRoot.toList) := by
  constructor
  · intro h
    by_contra hcond
    obtain ⟨hroot, hshape⟩ := not_or.mp hcond
    obtain ⟨host, hplatform, hlabels, hhost, hfree⟩ :=
      exists_platform_claim (not_not.mp hshape) hroot
    have hlist : (String.ofList host).toList = host := String.toList_ofList
    have hclaim : claimableHostname (String.ofList host) env.platformApexDomain
        = .ok (String.ofList host) :=
      claimableHostname_self (by rwa [hlist]) (by rwa [hlist]) (by rwa [hlist])
    refine classifyHost_eq_foreign.mp (h _ _ hclaim).2.1 ?_
    rw [hlist]
    exact hplatform
  · intro hcond candidate hostname hclaim
    obtain ⟨-, -, hlabels, hshape, hfree⟩ := claimableHostname_eq_ok.mp hclaim
    refine ⟨normalizeHost_of_isHostName hshape.isHostName, ?_,
      claimableHostname_self hlabels hshape hfree⟩
    refine classifyHost_eq_foreign.mpr fun hplatform => ?_
    change IsPlatformName (hostText env.tenantSubdomainRoot.toList) hostname.toList at hplatform
    rcases hplatform with heq | ⟨label, -, hdot, heq⟩
    · rw [heq] at hfree hshape
      exact hcond.elim hfree fun hnot => hnot hshape
    · rw [heq] at hfree hshape
      exact hcond.elim (fun hroot => hfree hroot.subdomain)
        fun hnot => hnot (hshape.of_subdomain hdot)

/-! ### A root of its own -/

/-- Institutes live under one name and the platform under another. -/
def twoNamesSource : ProcessEnv := fun key =>
  [("DATABASE_URL", "postgres://app@db/lamplight"),
    ("DATABASE_ADMIN_URL", "postgres://admin@db/lamplight"),
    ("PLATFORM_APEX_DOMAIN", "lamplight.school"),
    ("TENANT_SUBDOMAIN_ROOT", "lamplight.site")].lookup key

/-- The address of an institute may be claimed by another, and so may the root. -/
theorem subdomain_claimable :
    (∀ parsers : SchemaParsers, ∃ env, parseEnv parsers twoNamesSource = .ok env ∧
      env.tenancyMode = .platform ∧ env.platformApexDomain = "lamplight.school" ∧
      env.tenantSubdomainRoot = "lamplight.site") ∧
    IsHostName "lamplight.school".toList ∧ IsHostName "lamplight.site".toList ∧
    claimableHostname "grace.lamplight.site" "lamplight.school" = .ok "grace.lamplight.site" ∧
    classifyHost "grace.lamplight.site" "lamplight.site" = .subdomain "grace" ∧
    claimableHostname "lamplight.site" "lamplight.school" = .ok "lamplight.site" ∧
    classifyHost "lamplight.site" "lamplight.site" = .apex := by
  refine ⟨fun parsers => ?_, by decide, by decide, by decide, by decide, by decide, by decide⟩
  have hissues : schemaIssues parsers (withoutBlanks twoNamesSource) = [] := rfl
  refine ⟨envOf parsers (withoutBlanks twoNamesSource), ?_, rfl, rfl, rfl⟩
  rw [parseEnv, hissues]
  rfl

end LampLight
