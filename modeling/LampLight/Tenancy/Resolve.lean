import LampLight.Domains.Service

/-!
# From a host to a tenant

Resolution tries a verified hostname first and the slug in front of the subdomain root second; the
platform apex is never a tenant. The definitions here are the reads without the cache in front of
them.

## Main definitions

* `lookupTenantByHost`, `lookupTenantBySlug`, `resolveTenant` — who a host belongs to
* `primaryRedirectFor` — where a tenant's other hosts send a visitor
-/

namespace LampLight

open Js
open Table (innerJoin)

/-- What a lookup finds of a tenant. -/
structure ResolvedTenant where
  id : Uuid
  slug : String
  name : String
deriving DecidableEq

/-- The tenant of a request. -/
structure TenantContext extends ResolvedTenant where
  /-- The normalised host the request arrived on. -/
  host : String
deriving DecidableEq

/-- What a lookup finds of a row. -/
def TenantRow.resolved (t : TenantRow) : ResolvedTenant := ⟨t.id, t.slug, t.name⟩

/-- `resolve_tenant_by_host`: an active row of an active tenant. -/
def lookupTenantByHost (db : Database) (host : String) : Option ResolvedTenant :=
  ((innerJoin (fun d t => t.id = d.tenantId) db.tenantDomains db.tenants).find? fun x =>
    x.1.hostname.toList = toLowerCase host.toList && x.1.verificationStatus = .active
      && x.2.status = .active).map fun x => x.2.resolved

/-- The active tenant with a slug. -/
def lookupTenantBySlug (db : Database) (slug : String) : Option ResolvedTenant :=
  (db.tenants.find? fun t => t.slug = slug && t.status = .active).map TenantRow.resolved

/-- The tenant of a host, from the database. -/
def lookupUncached (db : Database) (host subdomainRoot : String) : Option ResolvedTenant :=
  match classifyHost host subdomainRoot with
  | .apex => none
  | .subdomain slug =>
    match lookupTenantByHost db host with
    | some byHost => some byHost
    | none => if isValidSlug slug then lookupTenantBySlug db slug else none
  | .foreign _ => lookupTenantByHost db host

/-- One institute whatever the host. -/
def resolveSingleTenant (env : Env) (db : Database) (rawHost : Option String) :
    Option TenantContext :=
  match env.singleTenantSlug with
  | none => none
  | some slug =>
    (lookupTenantBySlug db slug).map fun t =>
      { t with host := (normalizeHost rawHost).getD slug }

/-- The tenant for a request host, or nothing when there is none. -/
def resolveTenant (env : Env) (db : Database) (rawHost : Option String) : Option TenantContext :=
  match env.tenancyMode with
  | .single => resolveSingleTenant env db rawHost
  | .platform =>
    match normalizeHost rawHost with
    | none => none
    | some host =>
      (lookupUncached db host env.tenantSubdomainRoot).map fun t => { t with host := host }

/-- Where a request on a non-primary domain is sent, given the path and query the middleware put in
the request. -/
def primaryRedirectFor (db : Database) (tenant : TenantContext) (path : Option String) :
    Option String :=
  match findPrimaryDomain db tenant.id with
  | none => none
  | some primary =>
    if primary.hostname = tenant.host then none
    else
      match path.filter fun target => target ≠ "" with
      | none => none
      | some target => some (absoluteUrl primary.hostname target)

/-! ### What the lookups find -/

variable {db : Database} {host slug : String} {found : ResolvedTenant}

theorem lookupTenantByHost_eq_some (h : lookupTenantByHost db host = some found) :
    ∃ d ∈ db.tenantDomains, ∃ t ∈ db.tenants, t.id = d.tenantId ∧
      d.hostname.toList = toLowerCase host.toList ∧ d.verificationStatus = .active ∧
      t.status = .active ∧ found = t.resolved := by
  obtain ⟨x, hx, rfl⟩ := Option.map_eq_some_iff.mp h
  obtain ⟨hd, ht, hon⟩ := Table.mem_innerJoin.mp (List.mem_of_find?_eq_some hx)
  have hp := List.find?_some hx
  simp only [Bool.and_eq_true, decide_eq_true_eq] at hp hon
  exact ⟨x.1, hd, x.2, ht, hon, hp.1.1, hp.1.2, hp.2, rfl⟩

theorem lookupTenantByHost_isSome {d : TenantDomainRow} {t : TenantRow}
    (hd : d ∈ db.tenantDomains) (ht : t ∈ db.tenants) (hid : t.id = d.tenantId)
    (hhost : d.hostname.toList = toLowerCase host.toList)
    (hactive : d.verificationStatus = .active) (htenant : t.status = .active) :
    ∃ found, lookupTenantByHost db host = some found := by
  cases h : lookupTenantByHost db host with
  | some found => exact ⟨found, rfl⟩
  | none =>
    have hnone := List.find?_eq_none.mp (Option.map_eq_none_iff.mp h) (d, t)
      (Table.mem_innerJoin.mpr ⟨hd, ht, by simpa using hid⟩)
    simp [hhost, hactive, htenant] at hnone

theorem lookupTenantBySlug_eq_some (hnd : (db.tenants.map (·.slug)).Nodup) {t : TenantRow}
    (ht : t ∈ db.tenants) (hactive : t.status = .active) :
    lookupTenantBySlug db t.slug = some t.resolved := by
  rw [lookupTenantBySlug, Table.find?_eq_some_of_unique ht (by simp [hactive])]
  · rfl
  · intro other hother hp
    simp only [Bool.and_eq_true, decide_eq_true_eq] at hp
    exact Table.eq_of_key_eq hnd hother ht hp.1

theorem lookupTenantBySlug_mem (h : lookupTenantBySlug db slug = some found) :
    ∃ t ∈ db.tenants, t.slug = slug ∧ t.status = .active ∧ found = t.resolved := by
  obtain ⟨t, ht, rfl⟩ := Option.map_eq_some_iff.mp h
  have hp := List.find?_some ht
  simp only [Bool.and_eq_true, decide_eq_true_eq] at hp
  exact ⟨t, List.mem_of_find?_eq_some ht, hp.1, hp.2, rfl⟩

/-- Whoever is found is found by the host or by a slug. -/
theorem lookupUncached_eq_some {root : String} (h : lookupUncached db host root = some found) :
    lookupTenantByHost db host = some found ∨
      ∃ slug, lookupTenantBySlug db slug = some found := by
  rw [lookupUncached] at h
  split at h
  · cases h
  · next slug _ =>
    split at h
    · next byHost hby => exact Or.inl (hby.trans h)
    · split_ifs at h
      exact Or.inr ⟨slug, h⟩
  · exact Or.inl h

/-- Whoever a host resolves to is found by a host or by a slug. -/
theorem resolveTenant_found {env : Env} {rawHost : Option String} {tenant : TenantContext}
    (h : resolveTenant env db rawHost = some tenant) :
    (∃ host, lookupTenantByHost db host = some tenant.toResolvedTenant) ∨
      ∃ slug, lookupTenantBySlug db slug = some tenant.toResolvedTenant := by
  rw [resolveTenant] at h
  split at h
  · rw [resolveSingleTenant] at h
    split at h
    · cases h
    · next slug _ =>
      obtain ⟨found, hfound, rfl⟩ := Option.map_eq_some_iff.mp h
      exact Or.inr ⟨slug, hfound⟩
  · split at h
    · cases h
    · next host _ =>
      obtain ⟨found, hfound, rfl⟩ := Option.map_eq_some_iff.mp h
      exact (lookupUncached_eq_some hfound).imp (fun hhost => ⟨host, hhost⟩) id

/-- Whoever a host resolves to is an active tenant. -/
theorem resolveTenant_mem {env : Env} {rawHost : Option String} {tenant : TenantContext}
    (h : resolveTenant env db rawHost = some tenant) :
    ∃ t ∈ db.tenants, t.status = .active ∧ tenant.toResolvedTenant = t.resolved := by
  rcases resolveTenant_found h with ⟨host, hhost⟩ | ⟨slug, hslug⟩
  · obtain ⟨-, -, t, ht, -, -, -, hactive, heq⟩ := lookupTenantByHost_eq_some hhost
    exact ⟨t, ht, hactive, heq⟩
  · obtain ⟨t, ht, -, hactive, heq⟩ := lookupTenantBySlug_mem hslug
    exact ⟨t, ht, hactive, heq⟩

/-- A host that is not the apex resolves through an active row of its name. -/
theorem lookupUncached_of_lookupTenantByHost {root : String}
    (hapex : classifyHost host root ≠ .apex) (h : lookupTenantByHost db host = some found) :
    lookupUncached db host root = some found := by
  rw [lookupUncached]
  cases hclass : classifyHost host root with
  | apex => exact absurd hclass hapex
  | subdomain slug => simp only [h]
  | foreign _ => exact h

theorem findPrimaryDomain_eq_some {tenantId : Uuid} {primary : DomainRecord}
    (h : findPrimaryDomain db tenantId = some primary) :
    ∃ d ∈ db.tenantDomains, d.tenantId = tenantId ∧ d.isPrimary = true ∧
      d.verificationStatus = .active ∧ primary = toRecord d := by
  obtain ⟨d, hd, rfl⟩ := Option.map_eq_some_iff.mp h
  have hp := List.find?_some hd
  simp only [Bool.and_eq_true, decide_eq_true_eq] at hp
  exact ⟨d, List.mem_of_find?_eq_some hd, hp.1.1, hp.1.2, hp.2, rfl⟩

/-- A redirect goes to the hostname of an active primary row of the tenant, with the path as it was
asked for. -/
theorem primaryRedirectFor_eq_some {tenant : TenantContext} {path url : String}
    (h : primaryRedirectFor db tenant (some path) = some url) :
    ∃ primary, findPrimaryDomain db tenant.id = some primary ∧ primary.hostname ≠ tenant.host ∧
      url = absoluteUrl primary.hostname path := by
  rw [primaryRedirectFor] at h
  cases hprimary : findPrimaryDomain db tenant.id with
  | none => rw [hprimary] at h; cases h
  | some primary =>
    simp only [hprimary] at h
    split_ifs at h with hne
    refine ⟨primary, rfl, hne, ?_⟩
    cases htarget : (some path).filter fun target => target ≠ "" with
    | none => simp only [htarget] at h; cases h
    | some target =>
      obtain rfl : path = target := Option.some.inj (Option.filter_eq_some_iff.mp htarget).1
      simp only [htarget] at h
      exact (Option.some.inj h).symm

/-! ### What kind of host a tenant has -/

/-- A slug in front of the root is a tenant's host, unless the slug is `www`. -/
theorem classifyHost_subdomain {root : String} (hroot : IsHostName root.toList)
    (hslug : isValidSlug slug = true) (hwww : slug ≠ "www") :
    classifyHost (slug ++ "." ++ root) root = .subdomain slug := by
  have hhost : (slug ++ "." ++ root).toList = slug.toList ++ '.' :: root.toList := by
    simp [String.toList_append]
  have hne : slug.toList ≠ [] := (isSlugChars_spec hslug).1
  have hlength : 0 < slug.toList.length := List.length_pos_of_ne_nil hne
  have hlabel : (slug.toList ++ '.' :: root.toList).take
      ((slug.toList ++ '.' :: root.toList).length - (root.toList.length + 1)) = slug.toList := by
    rw [List.length_append, List.length_cons, Nat.add_sub_cancel, List.take_left]
  have happex : slug.toList ++ '.' :: root.toList ≠ root.toList := by
    intro h
    have := congrArg List.length h
    simp at this
    omega
  have hnotWww : slug.toList ++ '.' :: root.toList ≠ "www.".toList ++ root.toList := by
    intro h
    refine hwww (String.toList_inj.mp (subdomain_injective (t := root.toList) ?_))
    exact h.trans (by simp)
  simp only [classifyHost, hroot.trim_eq, hroot.toLowerCase_eq, hhost]
  rw [if_neg (not_or.mpr ⟨happex, hnotWww⟩), hlabel, if_pos, String.ofList_toList]
  exact ⟨List.isSuffixOf_iff_suffix.mpr (List.suffix_append _ _), hlength,
    dot_notMem_of_isSlugChars hslug⟩

end LampLight
