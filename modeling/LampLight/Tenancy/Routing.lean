import LampLight.Domains.Lifecycle

/-!
# Where a host leads

Two results about resolution over every run of the domain lifecycle.

A subdomain stays with its tenant: rows come from provisioning, whose hostnames are slugs in front
of the root, and from attaching, which takes no name at or under the apex. So as long as the root is
at or under the apex, nobody else's row can have the hostname of a subdomain.

A redirect to the primary domain arrives: the row it points at is active, so the hostname resolves
to its tenant and to nobody else, provided that a request for the hostname is normalised to the very
text in the row and is not taken for the apex. Provisioning stores the root as the environment
spells it, and nothing keeps a slug or a claim away from the apex of the subdomains when it is not
the platform's; `RedirectSafe` names the steps for which the proviso holds.

## Main results

* `resolveTenant_subdomain` — a subdomain resolves to its tenant
* `redirect_arrives` — a redirect ends where it points, in one step
-/

namespace LampLight

open Js
open Machine (run Meets)

variable {p : Platform} {users : List UserRow} {as : List DomainAction}

/-! ### Subdomains -/

/-- The root is the apex or a name under it. -/
def RootUnderApex (env : Env) : Prop :=
  env.tenantSubdomainRoot.toList = env.platformApexDomain.toList ∨
    ('.' :: env.platformApexDomain.toList) <:+ env.tenantSubdomainRoot.toList

instance (env : Env) : Decidable (RootUnderApex env) := inferInstanceAs (Decidable (_ ∨ _))

theorem toList_host (slug root : String) :
    (slug ++ "." ++ root).toList = slug.toList ++ '.' :: root.toList := by
  simp [String.toList_append]

/-- The host of a tenant is under the apex. -/
theorem suffix_host {env : Env} (h : RootUnderApex env) (slug : String) :
    ('.' :: env.platformApexDomain.toList) <:+ (slug ++ "." ++ env.tenantSubdomainRoot).toList := by
  rw [toList_host]
  rcases h with h | h
  · rw [h]
    exact List.suffix_append _ _
  · exact h.trans ((List.suffix_cons _ _).trans (List.suffix_append _ _))

/-- The only row that can have the hostname of a subdomain is the tenant's own. -/
theorem tenant_of_subdomain_row {env : Env} {tenants : List TenantRow}
    {rows : List TenantDomainRow} (hreg : Registered env tenants rows)
    (hapex : IsHostName env.platformApexDomain.toList) (hunder : RootUnderApex env)
    {d : TenantDomainRow} (hd : d ∈ rows) {a : TenantRow} (ha : a ∈ tenants)
    (hhost : d.hostname = a.slug ++ "." ++ env.tenantSubdomainRoot) : d.tenantId = a.id := by
  rcases hreg.origin d hd with ⟨-, t, ht, htid, hthost⟩ | ⟨-, raw, hclaim⟩
  · have hslug : t.slug = a.slug := by
      have hlist := congrArg String.toList (hthost.symm.trans hhost)
      rw [toList_host, toList_host] at hlist
      exact String.toList_inj.mp (subdomain_injective hlist)
    rw [← htid, Table.eq_of_key_eq hreg.tenants_slug ht ha hslug]
  · refine absurd ?_ (not_platform_of_claimable hapex hclaim).2
    rw [hhost]
    exact suffix_host hunder a.slug

/-- **A platform subdomain cannot be taken over.** After every run of the lifecycle, the host of an
active tenant whose slug is not `www` resolves to that tenant. -/
theorem resolveTenant_subdomain (p : Platform) (hmode : p.env.tenancyMode = .platform)
    (hapex : IsHostName p.env.platformApexDomain.toList)
    (hroot : IsHostName p.env.tenantSubdomainRoot.toList) (hunder : RootUnderApex p.env)
    (users : List UserRow) (as : List DomainAction) (a : TenantRow)
    (ha : a ∈ (run (step p) (initial users) as).db.tenants) (hactive : a.status = .active)
    (hwww : a.slug ≠ "www") :
    resolveTenant p.env (run (step p) (initial users) as).db
        (some (a.slug ++ "." ++ p.env.tenantSubdomainRoot))
      = some { a.resolved with host := a.slug ++ "." ++ p.env.tenantSubdomainRoot } := by
  have hreg := registered_run (p := p) users as
  generalize (run (step p) (initial users) as).db = db at ha hreg ⊢
  have hslug : isValidSlug a.slug = true := hreg.slug_valid a ha
  have hname := isHostName_slug_append hslug hroot
  have huncached : lookupUncached db (a.slug ++ "." ++ p.env.tenantSubdomainRoot)
      p.env.tenantSubdomainRoot = some a.resolved := by
    simp only [lookupUncached, classifyHost_subdomain hroot hslug hwww]
    cases hfound : lookupTenantByHost db (a.slug ++ "." ++ p.env.tenantSubdomainRoot) with
    | none =>
      dsimp only
      rw [if_pos hslug]
      exact lookupTenantBySlug_eq_some hreg.tenants_slug ha hactive
    | some found =>
      obtain ⟨d, hd, t, ht, htid, hhost, -, -, rfl⟩ := lookupTenantByHost_eq_some hfound
      rw [hname.toLowerCase_eq, String.toList_inj] at hhost
      have hta : t = a := Table.eq_of_key_eq hreg.tenants_pkey ht ha
        (htid.trans (tenant_of_subdomain_row hreg hapex hunder hd ha hhost))
      rw [hta]
  simp only [resolveTenant, hmode, normalizeHost_of_isHostName hname, huncached, Option.map_some]

theorem resolveTenant_subdomain_grace :
    resolveTenant lamplight.env (run (step lamplight) (initial [operator]) learnRun).db
        (some "grace.lamplight.school")
      = some ⟨⟨1, "grace", "Grace"⟩, "grace.lamplight.school"⟩ :=
  resolveTenant_subdomain lamplight rfl (by decide) (by decide) (by decide) [operator] learnRun
    ⟨1, "grace", "Grace", .active, 0⟩ (by decide) rfl (by decide)

/-! ### Redirects -/

/-- The host and the rest of a URL: what follows the scheme up to the first `/`, `?` or `#`, and
what comes from there on. -/
def urlParts (url : String) : List Char × List Char :=
  ((url.toList.dropWhile fun c => c ≠ ':').drop 3).span fun c => c ∉ ['/', '?', '#']

/-- The `Host` header a browser sends for a URL. -/
def urlHost (url : String) : String := String.ofList (toLowerCase (urlParts url).1)

/-- The path and query of a URL. -/
def urlPath (url : String) : String := String.ofList (urlParts url).2

/-- A redirect arrives: its host resolves to the tenant it was issued for, is not redirected again,
and the path and query are the ones that were asked for. -/
def RedirectsArrive (env : Env) (db : Database) : Prop :=
  ∀ (host : String) (tenant : TenantContext) (path url : String), path.toList.head? = some '/' →
    resolveTenant env db (some host) = some tenant →
    primaryRedirectFor db tenant (some path) = some url →
    (∃ next, resolveTenant env db (some (urlHost url)) = some next ∧ next.id = tenant.id ∧
      primaryRedirectFor db next (some path) = none) ∧ urlPath url = path

/-- The steps that do not make the apex, or a spelling no request arrives under, the address of a
tenant's primary domain: a root in lower case, no tenant provisioned with the slug `www`, and no
primary domain that the subdomains take for their apex. -/
def RedirectSafe (p : Platform) (w : World) : DomainAction → Prop
  | .provision call =>
    toLowerCase p.env.tenantSubdomainRoot.toList = p.env.tenantSubdomainRoot.toList ∧
      (call.slugText = "www" →
        (provisionTenant p.env p.hashToken w call).2.db.tenants = w.db.tenants)
  | .setPrimary tenantId domainId => ∀ d ∈ w.db.tenantDomains,
      d.tenantId = tenantId → d.id = domainId →
        classifyHost d.hostname p.env.tenantSubdomainRoot ≠ .apex
  | _ => True

instance (p : Platform) (w : World) : ∀ a, Decidable (RedirectSafe p w a)
  | .provision _ => inferInstanceAs (Decidable (_ ∧ (_ → _)))
  | .setPrimary _ _ =>
    inferInstanceAs (Decidable (∀ d ∈ w.db.tenantDomains, _ → _ → classifyHost _ _ ≠ .apex))
  | .attach _ => isTrue trivial
  | .refresh _ _ _ _ => isTrue trivial
  | .refreshAll _ _ _ => isTrue trivial
  | .remove _ _ _ => isTrue trivial
  | .releaseLapsed _ _ _ => isTrue trivial
  | .dropRecord _ => isTrue trivial

/-- Every hostname is in normalised form, and no primary one is taken for the apex. -/
structure PrimaryReachable (env : Env) (rows : List TenantDomainRow) : Prop where
  normalized : ∀ d ∈ rows, IsHostName d.hostname.toList
  primary : ∀ d ∈ rows, d.isPrimary = true →
    classifyHost d.hostname env.tenantSubdomainRoot ≠ .apex

namespace PrimaryReachable

variable {env : Env} {rows rows' : List TenantDomainRow}

theorem of_forall (h : PrimaryReachable env rows)
    (hrows : ∀ d' ∈ rows', ∃ d ∈ rows, d'.hostname = d.hostname ∧
      (d'.isPrimary = true → d.isPrimary = true)) : PrimaryReachable env rows' := by
  refine ⟨fun d' hd' => ?_, fun d' hd' hprimary => ?_⟩
  · obtain ⟨d, hd, hhost, -⟩ := hrows d' hd'
    rw [hhost]
    exact h.normalized d hd
  · obtain ⟨d, hd, hhost, himp⟩ := hrows d' hd'
    rw [hhost]
    exact h.primary d hd (himp hprimary)

theorem append_row (h : PrimaryReachable env rows) {d : TenantDomainRow}
    (hname : IsHostName d.hostname.toList)
    (hprimary : d.isPrimary = true → classifyHost d.hostname env.tenantSubdomainRoot ≠ .apex) :
    PrimaryReachable env (rows ++ [d]) := by
  refine ⟨fun d' hd' => ?_, fun d' hd' => ?_⟩
  · rcases List.mem_append.mp hd' with hd' | hd'
    · exact h.normalized d' hd'
    · rw [List.mem_singleton.mp hd']
      exact hname
  · rcases List.mem_append.mp hd' with hd' | hd'
    · exact h.primary d' hd'
    · rw [List.mem_singleton.mp hd']
      exact hprimary

/-- An update of other columns. -/
theorem update (h : PrimaryReachable env rows) {q : TenantDomainRow → Bool}
    {f : TenantDomainRow → TenantDomainRow}
    (hf : ∀ d, (f d).hostname = d.hostname ∧ (f d).isPrimary = d.isPrimary) :
    PrimaryReachable env (Table.update q f rows) := by
  refine h.of_forall fun d' hd' => ?_
  rcases Table.mem_update.mp hd' with ⟨hd', -⟩ | ⟨d, hd, -, rfl⟩
  · exact ⟨d', hd', rfl, id⟩
  · exact ⟨d, hd, (hf d).1, fun hp => (hf d).2 ▸ hp⟩

theorem choosePrimary (h : PrimaryReachable env rows) (hkeys : (rows.map (·.id)).Nodup)
    {target : TenantDomainRow} (htarget : target ∈ rows)
    (hok : classifyHost target.hostname env.tenantSubdomainRoot ≠ .apex) :
    PrimaryReachable env (choosePrimary rows target.tenantId target.id) := by
  have hdemoted : ∀ d ∈ Table.update
      (fun d => d.tenantId = target.tenantId && d.id ≠ target.id) (setIsPrimary false) rows,
      ∃ d₀ ∈ rows, d.hostname = d₀.hostname ∧ d.id = d₀.id ∧
        (d.isPrimary = true → d₀.isPrimary = true) := by
    intro d hd
    rcases Table.mem_update.mp hd with ⟨hd, -⟩ | ⟨d₀, hd₀, -, rfl⟩
    · exact ⟨d, hd, rfl, rfl, id⟩
    · exact ⟨d₀, hd₀, rfl, rfl, fun hp => absurd hp (by simp [setIsPrimary])⟩
  have hrow : ∀ d' ∈ LampLight.choosePrimary rows target.tenantId target.id,
      ∃ d ∈ rows, d'.hostname = d.hostname ∧
        (d'.isPrimary = true → d.isPrimary = true ∨ d = target) := by
    intro d' hd'
    rcases Table.mem_update.mp hd' with ⟨hd', -⟩ | ⟨d, hd, hq, rfl⟩
    · obtain ⟨d₀, hd₀, hhost, -, hp⟩ := hdemoted d' hd'
      exact ⟨d₀, hd₀, hhost, fun h => Or.inl (hp h)⟩
    · obtain ⟨d₀, hd₀, hhost, hid, -⟩ := hdemoted d hd
      simp only [Bool.and_eq_true, decide_eq_true_eq] at hq
      exact ⟨d₀, hd₀, hhost, fun _ =>
        Or.inr (Table.eq_of_key_eq hkeys hd₀ htarget (hid.symm.trans hq.2))⟩
  refine ⟨fun d' hd' => ?_, fun d' hd' hprimary => ?_⟩
  · obtain ⟨d, hd, hhost, -⟩ := hrow d' hd'
    rw [hhost]
    exact h.normalized d hd
  · obtain ⟨d, hd, hhost, himp⟩ := hrow d' hd'
    rw [hhost]
    rcases himp hprimary with hp | rfl
    · exact h.primary d hd hp
    · exact hok

end PrimaryReachable

theorem primaryReachable_change {a : DomainAction} {w w' : World} (hc : Change p a w w')
    (hroot : IsHostName (toLowerCase p.env.tenantSubdomainRoot.toList))
    (hok : RedirectSafe p w a)
    (hwww : ∀ call, a = .provision call → call.slugText = "www" → w'.db.tenants = w.db.tenants)
    (hkeys : (w.db.tenantDomains.map (·.id)).Nodup)
    (h : PrimaryReachable p.env w.db.tenantDomains) :
    PrimaryReachable p.env w'.db.tenantDomains := by
  cases hc with
  | idle rows tenants recorded =>
    rw [rows]
    exact h
  | provisioned call action valid rows tenants newId newTenant newSlug active recorded =>
    have hslug : call.slugText ≠ "www" := by
      intro h
      have hnone := tenants.symm.trans (hwww call action h)
      simp at hnone
    subst action
    rw [hok.1] at hroot
    rw [rows]
    refine h.append_row (isHostName_slug_append valid hroot) fun _ => ?_
    rw [show (subdomainRow p.env call).hostname
      = call.slugText ++ "." ++ p.env.tenantSubdomainRoot from rfl,
      classifyHost_subdomain hroot valid hslug]
    exact HostClassification.noConfusion
  | attached call action hostname created claim answer inserted recorded =>
    rw [inserted.rows]
    exact h.append_row (isHostName_of_claimable claim) (fun hp => absurd hp (by simp [claimRow]))
  | refreshed current answer latest now action found live rows tenants active recorded =>
    rw [rows]
    exact h.update (f := recordAnswer latest now) fun _ => ⟨rfl, rfl⟩
  | failed tenantId domainId message rows tenants active recorded =>
    rw [rows]
    exact h.update (f := recordFailure message) fun _ => ⟨rfl, rfl⟩
  | removed tenantId domainId action rows tenants recorded =>
    rw [rows]
    exact h.of_forall fun d hd => ⟨d, (Table.mem_delete.mp hd).1, rfl, id⟩
  | primary target action found active rows tenants recorded =>
    subst action
    rw [rows]
    exact h.choosePrimary hkeys found (hok target found rfl rfl)

/-- **One step of a safe run.** -/
theorem primaryReachable_step {a : DomainAction} {w : World}
    (hroot : IsHostName (toLowerCase p.env.tenantSubdomainRoot.toList))
    (hok : RedirectSafe p w a)
    (h : Registered p.env w.db.tenants w.db.tenantDomains ∧
      PrimaryReachable p.env w.db.tenantDomains) :
    Registered p.env (step p w a).db.tenants (step p w a).db.tenantDomains ∧
      PrimaryReachable p.env (step p w a).db.tenantDomains := by
  have hchange : ∀ w' w'', RedirectSafe p w' a →
      (∀ call, a = .provision call → call.slugText = "www" → w''.db.tenants = w'.db.tenants) →
      Change p a w' w'' →
      Registered p.env w'.db.tenants w'.db.tenantDomains ∧
        PrimaryReachable p.env w'.db.tenantDomains →
      Registered p.env w''.db.tenants w''.db.tenantDomains ∧
        PrimaryReachable p.env w''.db.tenantDomains :=
    fun w' w'' hok hwww hc h => ⟨registered_change hc h.1,
      primaryReachable_change hc hroot hok hwww h.1.rows_pkey h.2⟩
  have hrest : (∀ w', RedirectSafe p w' a) → (∀ call, a ≠ .provision call) →
      Registered p.env (step p w a).db.tenants (step p w a).db.tenantDomains ∧
        PrimaryReachable p.env (step p w a).db.tenantDomains :=
    fun hsafe hother => changes_invariant
      (fun w' w'' => hchange w' w'' (hsafe w') fun call ha => absurd ha (hother call))
      (exec_changes a) h
  -- Two conditions speak of the state: each is about a single change, taken in this very state.
  cases a with
  | setPrimary tenantId domainId =>
    exact hchange w _ hok (fun _ h => by cases h) (setPrimaryDomain_change tenantId domainId) h
  | provision call =>
    rw [step, exec, Machine.discard_snd]
    refine hchange w _ hok (fun other haction => ?_) (provisionTenant_change call) h
    obtain rfl := DomainAction.provision.inj haction
    exact hok.2
  | attach call =>
    exact hrest (fun _ => trivial) fun _ ha => by cases ha
  | refresh tenantId domainId answer now =>
    exact hrest (fun _ => trivial) fun _ ha => by cases ha
  | refreshAll tenantId answers clock =>
    exact hrest (fun _ => trivial) fun _ ha => by cases ha
  | remove tenantId domainId answer =>
    exact hrest (fun _ => trivial) fun _ ha => by cases ha
  | releaseLapsed tenantId answers clock =>
    exact hrest (fun _ => trivial) fun _ ha => by cases ha
  | dropRecord id =>
    exact hrest (fun _ => trivial) fun _ ha => by cases ha

/-! ### Taking the URL apart -/

theorem urlParts_absoluteUrl {host path : String} (hhost : IsHostName host.toList)
    (hpath : path.toList.head? = some '/') :
    urlParts (absoluteUrl host path) = (host.toList, path.toList) := by
  have hafter : ∀ scheme : String, scheme = "http" ∨ scheme = "https" →
      ((scheme ++ "://" ++ host ++ path).toList.dropWhile fun c => c ≠ ':').drop 3
        = host.toList ++ path.toList := by
    rintro scheme (rfl | rfl) <;> simp [String.toList_append]
  have hstop : ∀ c ∈ host.toList, c ∉ ['/', '?', '#'] := by
    intro c hc hstop
    have hchar := hhost.isHostChar hc
    rcases List.mem_cons.mp hstop with rfl | hstop
    · exact absurd hchar (by decide)
    rcases List.mem_cons.mp hstop with rfl | hstop
    · exact absurd hchar (by decide)
    · rw [List.mem_singleton.mp hstop] at hchar
      exact absurd hchar (by decide)
  obtain ⟨rest, hrest⟩ : ∃ rest, path.toList = '/' :: rest := by
    cases hp : path.toList with
    | nil => simp [hp] at hpath
    | cons c rest =>
      simp only [hp, List.head?_cons, Option.some.injEq] at hpath
      exact ⟨rest, by rw [hpath]⟩
  have hscheme : ((absoluteUrl host path).toList.dropWhile fun c => c ≠ ':').drop 3
      = host.toList ++ path.toList := by
    rw [absoluteUrl.eq_def]
    dsimp only
    split_ifs
    · exact hafter _ (Or.inl rfl)
    · exact hafter _ (Or.inr rfl)
  rw [urlParts, hscheme, List.span_eq_takeWhile_dropWhile,
    List.takeWhile_append_of_pos (by simpa using hstop),
    List.dropWhile_append_of_pos (by simpa using hstop), hrest]
  simp

theorem urlHost_absoluteUrl {host path : String} (hhost : IsHostName host.toList)
    (hpath : path.toList.head? = some '/') : urlHost (absoluteUrl host path) = host := by
  rw [urlHost, urlParts_absoluteUrl hhost hpath, hhost.toLowerCase_eq, String.ofList_toList]

theorem urlPath_absoluteUrl {host path : String} (hhost : IsHostName host.toList)
    (hpath : path.toList.head? = some '/') : urlPath (absoluteUrl host path) = path := by
  rw [urlPath, urlParts_absoluteUrl hhost hpath, String.ofList_toList]

/-! ### Arriving -/

theorem redirectsArrive {env : Env} {db : Database} (hmode : env.tenancyMode = .platform)
    (hreg : Registered env db.tenants db.tenantDomains)
    (hactive : (activeHostnames db.tenantDomains).Nodup)
    (hreach : PrimaryReachable env db.tenantDomains) : RedirectsArrive env db := by
  intro host tenant path url hpath hresolve hredirect
  obtain ⟨primary, hprimary, -, rfl⟩ := primaryRedirectFor_eq_some hredirect
  obtain ⟨d, hd, htenant, hisPrimary, hstatus, rfl⟩ := findPrimaryDomain_eq_some hprimary
  obtain ⟨t, ht, htactive, hcontext⟩ := resolveTenant_mem hresolve
  have hname : IsHostName d.hostname.toList := hreach.normalized d hd
  have htid : t.id = d.tenantId := by
    rw [htenant, show tenant.id = tenant.toResolvedTenant.id from rfl, hcontext]
    rfl
  have hlower : d.hostname.toList = toLowerCase d.hostname.toList := hname.toLowerCase_eq.symm
  obtain ⟨found, hfound⟩ := lookupTenantByHost_isSome hd ht htid hlower hstatus htactive
  have hfoundEq : found = t.resolved := by
    obtain ⟨d', hd', t', ht', htid', hhost', hstatus', -, rfl⟩ := lookupTenantByHost_eq_some hfound
    have hdd : d' = d := eq_of_activeHostnames hactive hd' hd hstatus' hstatus
      (String.toList_inj.mp (hhost'.trans hlower.symm))
    rw [Table.eq_of_key_eq hreg.tenants_pkey ht' ht (htid'.trans (by rw [hdd, htid]))]
  have hnext : resolveTenant env db (some d.hostname)
      = some { found with host := d.hostname } := by
    simp only [resolveTenant, hmode, normalizeHost_of_isHostName hname,
      lookupUncached_of_lookupTenantByHost (hreach.primary d hd hisPrimary) hfound,
      Option.map_some]
  have hid : found.id = tenant.id := by
    rw [hfoundEq, show tenant.id = tenant.toResolvedTenant.id from rfl, hcontext]
  refine ⟨⟨{ found with host := d.hostname }, ?_, hid, ?_⟩, ?_⟩
  · rw [show (toRecord d).hostname = d.hostname from rfl, urlHost_absoluteUrl hname hpath]
    exact hnext
  · rw [primaryRedirectFor]
    simp only [hid, hprimary]
    rw [if_pos (show (toRecord d).hostname = d.hostname from rfl)]
  · exact urlPath_absoluteUrl hname hpath

/-- **Redirects arrive in every safe run.** When no step makes the apex, or a spelling no request
arrives under, the address of a primary domain, every redirect leads to the tenant it was issued for
and is the last one. -/
theorem redirect_arrives (p : Platform) (hmode : p.env.tenancyMode = .platform)
    (hroot : IsHostName (toLowerCase p.env.tenantSubdomainRoot.toList)) (users : List UserRow)
    (as : List DomainAction) (hsafe : Meets (step p) (RedirectSafe p) (initial users) as) :
    RedirectsArrive p.env (run (step p) (initial users) as).db := by
  have hpres : Machine.Preserves (step p) (RedirectSafe p) fun w =>
      Registered p.env w.db.tenants w.db.tenantDomains ∧
        PrimaryReachable p.env w.db.tenantDomains :=
    fun w a hok h => primaryReachable_step hroot hok h
  have hrun := hpres.run ⟨registered_run users [], by simp [initial], by simp [initial]⟩ hsafe
  exact redirectsArrive hmode hrun.1 (activeHostnames_run users as) hrun.2

theorem redirect_arrives_learn : RedirectsArrive lamplight.env
    (run (step lamplight) (initial [operator]) (learnRun ++ [.setPrimary 1 12])).db := by
  have hsafe : Meets (step lamplight) (RedirectSafe lamplight) (initial [operator])
      (learnRun ++ [.setPrimary 1 12]) := by decide
  exact redirect_arrives lamplight rfl (by decide) _ _ hsafe

/-- A configuration that spells the root with capitals. -/
def capitalSource : ProcessEnv := fun key =>
  [("DATABASE_URL", "postgres://app@db/lamplight"),
    ("DATABASE_ADMIN_URL", "postgres://admin@db/lamplight"),
    ("TENANT_SUBDOMAIN_ROOT", "LampLight.School"),
    ("CLOUDFLARE_API_TOKEN", "token"),
    ("CLOUDFLARE_ZONE_ID", "zone"),
    ("CLOUDFLARE_SAAS_FALLBACK_ORIGIN", "origin.lamplight.school")].lookup key

/-- What that configuration is read as. -/
def capitalEnv : Env := { lamplightEnv with tenantSubdomainRoot := "LampLight.School" }

/-- The platform with it. -/
def capitalPlatform : Platform := { lamplight with env := capitalEnv }

theorem parseEnv_capitalSource (parsers : SchemaParsers) :
    parseEnv parsers capitalSource = .ok capitalEnv := by
  have hissues : schemaIssues parsers (withoutBlanks capitalSource) = [] := rfl
  have henv : envOf parsers (withoutBlanks capitalSource) = capitalEnv := rfl
  rw [parseEnv, hissues, henv]
  rfl

/-- With capitals in the root, a fresh tenant redirects its own host to itself for ever: the row
keeps the capitals, a request never has them. -/
theorem redirect_loops_capital :
    (∀ parsers : SchemaParsers, parseEnv parsers capitalSource = .ok capitalEnv) ∧
      IsHostName (toLowerCase capitalEnv.tenantSubdomainRoot.toList) ∧
      ¬ RedirectsArrive capitalEnv (run (step capitalPlatform) (initial [operator])
        [.provision (provisionCall "grace" "Grace" 1 11)]).db := by
  refine ⟨parseEnv_capitalSource, by decide, fun h => ?_⟩
  obtain ⟨⟨next, hnext, -, hstay⟩, -⟩ := h "grace.lamplight.school"
    ⟨⟨1, "grace", "Grace"⟩, "grace.lamplight.school"⟩ "/" "https://grace.LampLight.School/"
    (by decide) (by decide) (by decide)
  have hsame : next = ⟨⟨1, "grace", "Grace"⟩, "grace.lamplight.school"⟩ :=
    Option.some.inj (hnext.symm.trans (by decide))
  subst hsame
  exact absurd hstay (by decide)

end LampLight
