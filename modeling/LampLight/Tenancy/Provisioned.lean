import LampLight.Domains.Lifecycle
import LampLight.Tenancy.Middleware

/-!
# Reaching a new tenant

Provisioning reports a host. A request for it arrives in lower case, is classified by the root of
the subdomains, and is looked up among the hostnames first and among the slugs second. `www` is a
slug like any other to provisioning and the apex to classification. And where the root is spelled
with capitals, the new row is stored with them: it does not keep another tenant's row of the same
name away, and that row is what the lookup finds.

## Main results

* `resolveTenant_host` — what the host of a new tenant is looked up under
* `tenants_active_run` — every tenant of a run is active
* `provisioned_reachable_iff` — which successes lead to a tenant that can be reached
-/

namespace LampLight

open Js
open Machine (run)

variable {p : Platform} {env : Env} {db : Database} {call : ProvisionCall}

/-! ### The address of a host -/

/-- The root as requests spell it. -/
def loweredRoot (env : Env) : String := String.ofList (toLowerCase env.tenantSubdomainRoot.toList)

/-- The host of a new tenant, as requests spell it. -/
def ProvisionCall.address (env : Env) (call : ProvisionCall) : String :=
  call.slugText ++ "." ++ loweredRoot env

theorem toList_address (env : Env) (call : ProvisionCall) :
    (call.address env).toList = toLowerCase (call.host env).toList := by
  have hslug : toLowerCase call.slugText.toList = call.slugText.toList := by
    rw [ProvisionCall.slugText, String.toList_ofList, toLowerCase_idem]
  have hroot : (loweredRoot env).toList = toLowerCase env.tenantSubdomainRoot.toList :=
    String.toList_ofList
  rw [ProvisionCall.address, ProvisionCall.host, String.toList_append, String.toList_append,
    String.toList_append, String.toList_append, toLowerCase_append, toLowerCase_append, hslug,
    hroot]
  rfl

theorem isHostName_loweredRoot (hroot : IsHostName (toLowerCase env.tenantSubdomainRoot.toList)) :
    IsHostName (loweredRoot env).toList := by
  rw [loweredRoot, String.toList_ofList]
  exact hroot

theorem normalizeHost_host (hroot : IsHostName (toLowerCase env.tenantSubdomainRoot.toList))
    (hslug : isValidSlug call.slugText = true) :
    normalizeHost (some (call.host env)) = some (call.address env) := by
  have hname : IsHostName (toLowerCase (call.host env).toList) := by
    rw [← toList_address]
    exact isHostName_slug_append hslug (isHostName_loweredRoot hroot)
  rw [normalizeHost_of_lower hname, ← toList_address, String.ofList_toList]

theorem classifyHost_www {root : String} (hroot : IsHostName root.toList) :
    classifyHost ("www" ++ "." ++ root) root = .apex := by
  simp only [classifyHost, hroot.trim_eq, hroot.toLowerCase_eq]
  rw [if_pos]
  exact Or.inr (by simp)

/-- Every slug but `www` is a tenant's. -/
theorem classifyHost_address (hroot : IsHostName (toLowerCase env.tenantSubdomainRoot.toList))
    (hslug : isValidSlug call.slugText = true) :
    classifyHost (call.address env) env.tenantSubdomainRoot
      = if call.slugText = "www" then .apex else .subdomain call.slugText := by
  have hlower := isHostName_loweredRoot hroot
  have hsame : hostText env.tenantSubdomainRoot.toList = hostText (loweredRoot env).toList := by
    rw [hostText_of_lower hroot, hostText, hlower.trim_eq, hlower.toLowerCase_eq, loweredRoot,
      String.toList_ofList]
  rw [classifyHost_congr hsame]
  split_ifs with hwww
  · rw [ProvisionCall.address, hwww]
    exact classifyHost_www hlower
  · exact classifyHost_subdomain hlower hslug hwww

/-- A new tenant's host is looked up as a hostname, and then as a slug; `www` is not. -/
theorem resolveTenant_host (hmode : env.tenancyMode = .platform)
    (hroot : IsHostName (toLowerCase env.tenantSubdomainRoot.toList))
    (hslug : isValidSlug call.slugText = true) :
    resolveTenant env db (some (call.host env)) =
      if call.slugText = "www" then none
      else ((lookupTenantByHost db (call.address env)).or
        (lookupTenantBySlug db call.slugText)).map fun t =>
          ({ t with host := call.address env } : TenantContext) := by
  have hreading : resolverReading env (some (call.host env))
      = some (classifyHost (call.address env) env.tenantSubdomainRoot) := by
    simp only [resolverReading, reading, hmode, normalizeHost_host hroot hslug]
    rfl
  rw [resolveTenant_eq hmode, hreading, normalizeHost_host hroot hslug,
    classifyHost_address hroot hslug]
  split_ifs with hwww
  · rfl
  · rw [Option.bind_some, Option.bind_some, lookupRead, if_pos hslug]

/-! ### The tenants of a run -/

theorem tenants_active_run (users : List UserRow) (as : List DomainAction) :
    ∀ t ∈ (run (step p) (initial users) as).db.tenants, t.status = .active := by
  refine run_invariant (p := p) (w := initial users) (I := fun w => ∀ t ∈ w.db.tenants,
    t.status = .active) (fun a w w' hc h => ?_) (by simp [initial]) as
  cases hc with
  | idle rows tenants recorded => exact tenants ▸ h
  | provisioned call action valid rows tenants newId newTenant newSlug active recorded =>
    rw [tenants]
    intro t ht
    rcases List.mem_append.mp ht with ht | ht
    · exact h t ht
    · rw [List.mem_singleton.mp ht]
      rfl
  | attached call action hostname created claim answer inserted recorded =>
    rw [inserted.tenants]
    exact h
  | refreshed current answer latest now action found live rows tenants active recorded =>
    exact tenants ▸ h
  | failed tenantId domainId message rows tenants active recorded => exact tenants ▸ h
  | removed tenantId domainId action rows tenants recorded => exact tenants ▸ h
  | primary target action found active rows tenants recorded => exact tenants ▸ h

/-! ### Who is found -/

/-- Somebody's active row has the address of the new tenant already. -/
def AddressTaken (env : Env) (db : Database) (call : ProvisionCall) : Prop :=
  ∃ d ∈ db.tenantDomains, d.verificationStatus = .active ∧
    d.hostname.toList = (call.address env).toList

/-- The tables before and after a success. -/
structure Founded (env : Env) (db db' : Database) (call : ProvisionCall) : Prop where
  before : Registered env db.tenants db.tenantDomains
  after : Registered env db'.tenants db'.tenantDomains
  tenants_active : ∀ t ∈ db.tenants, t.status = .active
  rows : db'.tenantDomains = db.tenantDomains ++ [subdomainRow env call]
  tenants : db'.tenants = db.tenants ++ [tenantRow call]
  newTenant : ∀ t ∈ db.tenants, t.id ≠ call.tenantId
  active : (activeHostnames db'.tenantDomains).Nodup

namespace Founded

variable {db' : Database}

theorem mem_tenants (h : Founded env db db' call) : tenantRow call ∈ db'.tenants := by
  rw [h.tenants]
  exact List.mem_append_right _ (List.mem_singleton.mpr rfl)

/-- The slug leads to the new tenant. -/
theorem bySlug (h : Founded env db db' call) :
    lookupTenantBySlug db' call.slugText = some (tenantRow call).resolved := by
  have hactive : (tenantRow call).status = .active := rfl
  have hslug : (tenantRow call).slug = call.slugText := rfl
  rw [← hslug]
  exact lookupTenantBySlug_eq_some h.after.tenants_slug h.mem_tenants hactive

/-- An earlier row belongs to an earlier tenant. -/
theorem tenantId_ne (h : Founded env db db' call) {d : TenantDomainRow}
    (hd : d ∈ db.tenantDomains) : d.tenantId ≠ call.tenantId := by
  obtain ⟨t, ht, htid⟩ := h.before.rows_tenant d hd
  rw [← htid]
  exact h.newTenant t ht

theorem lower_address (env : Env) (call : ProvisionCall) :
    toLowerCase (call.address env).toList = (call.address env).toList := by
  rw [toList_address, toLowerCase_idem]

/-- When no earlier row has the address, nobody but the new tenant is found under it. -/
theorem byHost_of_free (h : Founded env db db' call) (hfree : ¬ AddressTaken env db call)
    {found : ResolvedTenant} (hfound : lookupTenantByHost db' (call.address env) = some found) :
    found = (tenantRow call).resolved := by
  obtain ⟨d, hd, t, ht, htid, hhost, hactive, -, rfl⟩ := lookupTenantByHost_eq_some hfound
  rw [lower_address] at hhost
  rw [h.rows, List.mem_append, List.mem_singleton] at hd
  rcases hd with hd | rfl
  · exact absurd ⟨d, hd, hactive, hhost⟩ hfree
  · rw [Table.eq_of_key_eq h.after.tenants_pkey ht h.mem_tenants htid]

/-- When one does, it is found, and it is not the new tenant's. -/
theorem byHost_of_taken (h : Founded env db db' call) (htaken : AddressTaken env db call) :
    ∃ found, lookupTenantByHost db' (call.address env) = some found ∧
      found.id ≠ call.tenantId := by
  obtain ⟨d, hd, hactive, hhost⟩ := htaken
  have hd' : d ∈ db'.tenantDomains := by
    rw [h.rows]
    exact List.mem_append_left _ hd
  obtain ⟨t, ht, htid⟩ := h.before.rows_tenant d hd
  have ht' : t ∈ db'.tenants := by
    rw [h.tenants]
    exact List.mem_append_left _ ht
  obtain ⟨found, hfound⟩ := lookupTenantByHost_isSome hd' ht' htid
    (hhost.trans (lower_address env call).symm) hactive (h.tenants_active t ht)
  refine ⟨found, hfound, ?_⟩
  obtain ⟨e, he, u, hu, huid, hehost, heactive, -, rfl⟩ := lookupTenantByHost_eq_some hfound
  rw [lower_address] at hehost
  -- the index on active hostnames leaves no second row of this name, not even the new tenant's
  have hsame : e = d := eq_of_activeHostnames h.active he hd' heactive hactive
    (String.toList_inj.mp (hehost.trans hhost.symm))
  show u.id ≠ call.tenantId
  rw [huid, hsame]
  exact h.tenantId_ne hd

/-- The new tenant is found exactly when no earlier row has its address. -/
theorem lookup_iff (h : Founded env db db' call) :
    (lookupTenantByHost db' (call.address env)).or (lookupTenantBySlug db' call.slugText)
        = some (tenantRow call).resolved ↔ ¬ AddressTaken env db call := by
  constructor
  · intro hfound htaken
    obtain ⟨found, hby, hne⟩ := h.byHost_of_taken htaken
    rw [hby, Option.some_or] at hfound
    exact hne (by rw [Option.some.inj hfound]; rfl)
  · intro hfree
    cases hby : lookupTenantByHost db' (call.address env) with
    | none => rw [Option.none_or, h.bySlug]
    | some found => rw [Option.some_or, h.byHost_of_free hfree hby]

end Founded

/-- A success after a run. -/
theorem founded_run (p : Platform) (users : List UserRow) (as : List DomainAction)
    {slug host adminEmail : String}
    (hok : (provisionTenant p.env p.hashToken (run (step p) (initial users) as) call).1
      = .ok (.ok slug host adminEmail)) :
    Founded p.env (run (step p) (initial users) as).db
      (provisionTenant p.env p.hashToken (run (step p) (initial users) as) call).2.db call := by
  obtain ⟨-, -, -, -, db', hinsert, hw⟩ := provisionTenant_ok hok
  obtain ⟨hrows, htenants, -, hnew, -, hactive⟩ := insertInstitute_ok hinsert
  have hbefore := registered_run (p := p) users as
  have hafter := registered_change (provisionTenant_change call) hbefore
  rw [hw] at hafter ⊢
  exact ⟨hbefore, hafter, tenants_active_run users as, hrows, htenants, hnew, hactive⟩

/-- **Which new tenants can be reached.** After every run of the lifecycle and every success of
provisioning, the reported host leads to the new tenant exactly when its slug is not `www` and no
active row, of whatever tenant, had the host in lower case for its hostname before. -/
theorem provisioned_reachable_iff (p : Platform) (hmode : p.env.tenancyMode = .platform)
    (hroot : IsHostName (toLowerCase p.env.tenantSubdomainRoot.toList)) (users : List UserRow)
    (as : List DomainAction) (call : ProvisionCall) (slug host adminEmail : String)
    (hok : (provisionTenant p.env p.hashToken (run (step p) (initial users) as) call).1
      = .ok (.ok slug host adminEmail)) :
    (∃ found, resolveTenant p.env
        (provisionTenant p.env p.hashToken (run (step p) (initial users) as) call).2.db (some host)
          = some found ∧ found.toResolvedTenant = (tenantRow call).resolved) ↔
      call.slugText ≠ "www" ∧ ∀ d ∈ (run (step p) (initial users) as).db.tenantDomains,
        d.verificationStatus = .active →
          d.hostname.toList ≠ toLowerCase (call.host p.env).toList := by
  have hfounded := founded_run p users as hok
  obtain ⟨rfl, rfl, -, hslug, -⟩ := provisionTenant_ok hok
  have htaken : (∀ d ∈ (run (step p) (initial users) as).db.tenantDomains,
      d.verificationStatus = .active → d.hostname.toList ≠ toLowerCase (call.host p.env).toList) ↔
      ¬ AddressTaken p.env (run (step p) (initial users) as).db call := by
    simp only [AddressTaken, toList_address, not_exists, not_and, ne_eq]
  rw [htaken, ← hfounded.lookup_iff, resolveTenant_host hmode hroot hslug]
  split_ifs with hwww
  · exact iff_of_false (by simp) fun h => h.1 hwww
  · simp only [Option.map_eq_some_iff]
    constructor
    · rintro ⟨-, ⟨found, hfound, rfl⟩, rfl⟩
      exact ⟨hwww, hfound⟩
    · rintro ⟨-, hfound⟩
      exact ⟨_, ⟨_, hfound, rfl⟩, rfl⟩

/-- Next to an institute with a domain of its own. -/
theorem provisioned_reachable_iff_hope :
    (∃ found, resolveTenant lamplight.env (provisionTenant lamplight.env lamplight.hashToken
        (run (step lamplight) (initial [operator]) learnRun)
        (provisionCall "hope" "Hope" 2 21)).2.db (some "hope.lamplight.school") = some found ∧
        found.toResolvedTenant = (tenantRow (provisionCall "hope" "Hope" 2 21)).resolved) :=
  (provisioned_reachable_iff lamplight rfl (by decide) [operator] learnRun
    (provisionCall "hope" "Hope" 2 21) "hope" "hope.lamplight.school" "admin@example.org"
    (by decide)).mpr ⟨by decide, by decide⟩

/-- Provisioning takes `www` for a slug and mails a link to its host; resolution takes the host for
the apex. -/
theorem www_unreachable :
    (∀ parsers : SchemaParsers, parseEnv parsers bareSource = .ok bareEnv) ∧
      bareEnv.tenancyMode = .platform ∧ IsHostName bareEnv.tenantSubdomainRoot.toList ∧
      (provisionTenant bareEnv lamplight.hashToken (initial [operator])
        (provisionCall "www" "World Wide Workshop" 1 11)).1
          = .ok (.ok "www" "www.lamplight.school" "admin@example.org") ∧
      resolveTenant bareEnv (provisionTenant bareEnv lamplight.hashToken (initial [operator])
        (provisionCall "www" "World Wide Workshop" 1 11)).2.db (some "www.lamplight.school")
          = none :=
  ⟨parseEnv_bareSource, rfl, by decide, by decide, by decide⟩

end LampLight
