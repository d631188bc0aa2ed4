import LampLight.Domains.Provision
import LampLight.Tenancy.Resolve
import Mathlib.Logic.Relation

/-!
# The domain lifecycle as a machine

One machine has every operation that touches tenants and their domains. What each of them can do to
the tables is said once, by the relation `Change`; every operation is a chain of such changes
(`exec_changes`), so an invariant is proved by looking at one change.

## The invariant

`Registered` is about the identities in the tables: which tenant a row belongs to, how its hostname
came about. No operation but provisioning and attaching can alter what it speaks of, which is why it
is stated over `claimKey`. `Confirmed` is about the status: an active row that has a record at
Cloudflare was last told so by Cloudflare.

## Main results

* `registered_run`, `activeHostnames_run`, `confirmed_run` — the invariants of every run
* `lookupTenantByHost_confirmed` — what a hostname serves, Cloudflare confirmed
-/

namespace LampLight

open Cloudflare
open Machine (run Meets discard)

/-- Everything that happens to tenants and their domains. A record may also disappear at Cloudflare
without the platform's doing. -/
inductive DomainAction where
  | provision (call : ProvisionCall)
  | attach (call : AttachCall)
  | refresh (tenantId domainId : Uuid) (answer : TransportResult) (now : Instant)
  | refreshAll (tenantId : Uuid) (answers : Uuid → TransportResult) (clock : Uuid → Instant)
  | remove (tenantId domainId : Uuid) (answer : TransportResult)
  | setPrimary (tenantId domainId : Uuid)
  | releaseLapsed (tenantId : Uuid) (answers : Uuid → TransportResult) (clock : Uuid → Instant)
  | dropRecord (id : String)

/-- What the operations run on: the configuration, the client and the hash of tokens. -/
structure Platform where
  env : Env
  client : Client
  hashToken : String → String

variable (p : Platform)

/-- One operation: whether it threw, and the world it leaves. -/
def exec (w : World) : DomainAction → Except Thrown Unit × World
  | .provision call => discard (provisionTenant p.env p.hashToken w call)
  | .attach call => discard (attachDomain p.env p.client w call)
  | .refresh tenantId domainId answer now =>
    discard (refreshDomain p.env p.client w tenantId domainId answer now)
  | .refreshAll tenantId answers clock =>
    discard (refreshAllDomains p.env p.client w tenantId answers clock)
  | .remove tenantId domainId answer => removeDomain p.env p.client w tenantId domainId answer
  | .setPrimary tenantId domainId => discard (setPrimaryDomain w tenantId domainId)
  | .releaseLapsed tenantId answers clock =>
    discard (releaseLapsedClaims p.env p.client w tenantId answers clock)
  | .dropRecord id => (.ok (), { w with zone := w.zone.filter fun held => held ≠ id })

/-- The world an operation leaves. -/
def step (w : World) (a : DomainAction) : World := (exec p w a).2

/-- A fresh platform: nothing but the accounts of its users, operators among them. -/
def initial (users : List UserRow) : World where
  db := { users := users }

/-! ### What an operation can change -/

/-- The part of a row no update touches. -/
def claimKey (d : TenantDomainRow) : Uuid × Uuid × String × Option String :=
  (d.id, d.tenantId, d.hostname, d.cfHostnameId)

/-- The actions that delete rows. -/
def DomainAction.Removes : DomainAction → Prop
  | .remove _ _ _ => True
  | .releaseLapsed _ _ _ => True
  | _ => False

/-- The answers an action was given about a row it checks. -/
def DomainAction.Checks (id : Uuid) (answer : TransportResult) : DomainAction → Prop
  | .refresh _ domainId given _ => id = domainId ∧ answer = given
  | .refreshAll _ answers _ => answer = answers id
  | _ => False

/-- One change of the tables during an action. The zone is left open here; only what becomes of the
rows and of the log of recorded answers is fixed. -/
inductive Change (a : DomainAction) (w w' : World) : Prop where
  /-- Nothing happened to the tables. -/
  | idle (rows : w'.db.tenantDomains = w.db.tenantDomains) (tenants : w'.db.tenants = w.db.tenants)
      (recorded : w'.recorded = w.recorded)
  | provisioned (call : ProvisionCall) (action : a = .provision call)
      (valid : isValidSlug call.slugText = true)
      (rows : w'.db.tenantDomains = w.db.tenantDomains ++ [subdomainRow p.env call])
      (tenants : w'.db.tenants = w.db.tenants ++ [tenantRow call])
      (newId : ∀ d ∈ w.db.tenantDomains, d.id ≠ call.domainId)
      (newTenant : ∀ t ∈ w.db.tenants, t.id ≠ call.tenantId)
      (newSlug : ∀ t ∈ w.db.tenants, t.slug ≠ call.slugText)
      (active : (activeHostnames w'.db.tenantDomains).Nodup)
      (recorded : w'.recorded = w.recorded)
  | attached (call : AttachCall) (action : a = .attach call) (hostname : String)
      (created : CustomHostname)
      (claim : claimableHostname call.rawHostname p.env.platformApexDomain = .ok hostname)
      (answer : create p.client call.answer = .ok created)
      (inserted : Inserted w.db w'.db (claimRow call hostname created))
      (recorded : w'.recorded = (call.rowId, call.answer) :: w.recorded)
  | refreshed (current : TenantDomainRow) (answer : TransportResult) (latest : CustomHostname)
      (now : Instant) (action : a.Checks current.id answer)
      (found : current ∈ w.db.tenantDomains) (live : get p.client answer = .ok latest)
      (rows : w'.db.tenantDomains = Table.update
        (fun d => d.tenantId = current.tenantId && d.id = current.id) (recordAnswer latest now)
        w.db.tenantDomains)
      (tenants : w'.db.tenants = w.db.tenants)
      (active : (activeHostnames w'.db.tenantDomains).Nodup)
      (recorded : w'.recorded = (current.id, answer) :: w.recorded)
  | failed (tenantId domainId : Uuid) (message : String)
      (rows : w'.db.tenantDomains = Table.update
        (fun d => d.tenantId = tenantId && d.id = domainId) (recordFailure message)
        w.db.tenantDomains)
      (tenants : w'.db.tenants = w.db.tenants)
      (active : (activeHostnames w'.db.tenantDomains).Nodup)
      (recorded : w'.recorded = w.recorded)
  | removed (tenantId domainId : Uuid) (action : a.Removes)
      (rows : w'.db.tenantDomains = Table.delete
        (fun d => d.tenantId = tenantId && d.id = domainId) w.db.tenantDomains)
      (tenants : w'.db.tenants = w.db.tenants) (recorded : w'.recorded = w.recorded)
  | primary (target : TenantDomainRow) (action : a = .setPrimary target.tenantId target.id)
      (found : target ∈ w.db.tenantDomains)
      (active : target.verificationStatus = .active)
      (rows : w'.db.tenantDomains =
        choosePrimary w.db.tenantDomains target.tenantId target.id)
      (tenants : w'.db.tenants = w.db.tenants) (recorded : w'.recorded = w.recorded)

/-- A chain of changes. -/
abbrev Changes (a : DomainAction) : World → World → Prop := Relation.ReflTransGen (Change p a)

variable {p} {w : World}

theorem Change.refl (a : DomainAction) (w : World) : Change p a w w := .idle rfl rfl rfl

theorem insertInstitute_ok {db db' : Database} {call : ProvisionCall}
    (h : insertInstitute p.env p.hashToken db call = .ok db') :
    db'.tenantDomains = db.tenantDomains ++ [subdomainRow p.env call] ∧
      db'.tenants = db.tenants ++ [tenantRow call] ∧
      (∀ d ∈ db.tenantDomains, d.id ≠ call.domainId) ∧
      (∀ t ∈ db.tenants, t.id ≠ call.tenantId) ∧
      (∀ t ∈ db.tenants, t.slug ≠ call.slugText) ∧
      (activeHostnames db'.tenantDomains).Nodup := by
  have hinserted := insertInstitute_inserted h
  obtain ⟨settings, audit, rfl⟩ := hinserted.written
  exact ⟨rfl, rfl, hinserted.newDomain, hinserted.newTenant, hinserted.newSlug, hinserted.active⟩

theorem provisionTenant_change (call : ProvisionCall) :
    Change p (.provision call) w (provisionTenant p.env p.hashToken w call).2 := by
  rw [provisionTenant]
  cases h : insertInstitute p.env p.hashToken w.db call with
  | error e => split_ifs <;> exact .refl _ _
  | ok db =>
    obtain ⟨hrows, htenants, hid, htid, hslugs, hactive⟩ := insertInstitute_ok h
    by_cases hvalid : isValidSlug call.slugText = true
    · have hchange : Change p (.provision call) w { w with db := db } :=
        .provisioned call rfl hvalid hrows htenants hid htid hslugs hactive rfl
      split_ifs <;> first | exact .refl _ _ | exact hchange
    · rw [if_pos (by simpa using hvalid)]
      exact .refl _ _

theorem insertClaim_ok {db db' : Database} {call : AttachCall} {hostname : String}
    {created : CustomHostname} (h : insertClaim db call hostname created = .ok db') :
    Inserted db db' (claimRow call hostname created) := by
  obtain ⟨db₁, h₁, h₂⟩ := Machine.bind_eq_ok.mp h
  obtain rfl := Database.insertAuditLog_ok h₂
  have hrow := Database.insertTenantDomain_ok h₁
  exact ⟨hrow.rows, hrow.tenants, hrow.fresh, hrow.tenant, hrow.hostname, hrow.active⟩

theorem attachDomain_change (call : AttachCall) :
    Change p (.attach call) w (attachDomain p.env p.client w call).2 := by
  rcases @attachDomain_cases p.env p.client w call with
    ⟨message, hr⟩ | ⟨hostname, created, -, hclaim, hcreate, ⟨e, -, hr⟩ | ⟨db, r, hins, hr⟩⟩
  · rw [hr]
    exact .refl _ _
  · rw [hr]
    exact .idle rfl rfl rfl
  · rw [hr]
    exact .attached call rfl hostname created hclaim hcreate (insertClaim_ok hins) rfl

variable {a : DomainAction}

theorem refreshDomain_change (tenantId domainId : Uuid) (answer : TransportResult)
    (now : Instant) (ha : a.Checks domainId answer) :
    Change p a w (refreshDomain p.env p.client w tenantId domainId answer now).2 := by
  rcases @refreshDomain_cases p.env p.client w tenantId domainId answer now with
    ⟨r, hr⟩ | ⟨message, db, r, -, hupd, hr⟩ | ⟨d, hd, rfl, rfl, latest, db, r, hget, hupd, hr⟩
  · rw [hr]
    exact .refl _ _
  · obtain ⟨rfl, hactive⟩ := Database.updateTenantDomain_ok hupd
    rw [hr]
    exact .failed tenantId domainId message rfl rfl hactive rfl
  · obtain ⟨rfl, hactive⟩ := Database.updateTenantDomain_ok hupd
    rw [hr]
    exact .refreshed d answer latest now ha hd hget rfl rfl hactive rfl

theorem refreshAllDomains_changes (tenantId : Uuid) (answers : Uuid → TransportResult)
    (clock : Uuid → Instant) (ha : ∀ id, a.Checks id (answers id)) :
    Changes p a w (refreshAllDomains p.env p.client w tenantId answers clock).2 := by
  refine Machine.forEach_invariant (fun s d _ hs => hs.trans ?_) .refl
  rw [refreshTurn]
  split_ifs
  · exact .refl
  · exact .single (refreshDomain_change tenantId d.id (answers d.id) (clock d.id) (ha d.id))

theorem removeDomain_change (tenantId domainId : Uuid) (answer : TransportResult)
    (ha : a.Removes) :
    Change p a w (removeDomain p.env p.client w tenantId domainId answer).2 := by
  rcases @removeDomain_cases p.env p.client w tenantId domainId answer with
    ⟨-, hr⟩ | ⟨d, hd, -, -, ⟨e, -, hr⟩ | ⟨zone, -, ⟨e, -, hr⟩ | ⟨db, hdb, hr⟩⟩⟩
  · rw [hr]
    exact .refl _ _
  · rw [hr]
    exact .refl _ _
  · rw [hr]
    exact .idle rfl rfl rfl
  · rw [hr]
    exact .removed tenantId domainId ha (deleteClaim_ok hdb).1 (deleteClaim_ok hdb).2 rfl

theorem releaseLapsedClaims_changes (tenantId : Uuid) (answers : Uuid → TransportResult)
    (clock : Uuid → Instant) (ha : a.Removes) :
    Changes p a w (releaseLapsedClaims p.env p.client w tenantId answers clock).2 :=
  Machine.forEach_invariant
    (fun _ d _ hs => hs.tail (removeDomain_change tenantId d.id (answers d.id) ha)) .refl

theorem setPrimaryDomain_change (tenantId domainId : Uuid) :
    Change p (.setPrimary tenantId domainId) w (setPrimaryDomain w tenantId domainId).2 := by
  rw [setPrimaryDomain]
  cases hfind : findDomain w.db tenantId domainId with
  | none => exact .refl _ _
  | some target =>
    obtain ⟨d, hd, rfl, rfl, rfl⟩ := findDomain_eq_some hfind
    dsimp only
    split_ifs with hstatus
    · exact .refl _ _
    · split
      · exact .refl _ _
      · next db hlog =>
        obtain rfl := Database.insertAuditLog_ok hlog
        exact .primary d rfl hd (by simpa [toRecord] using hstatus) rfl rfl rfl

/-- **Every operation is a chain of changes.** -/
theorem exec_changes (a : DomainAction) : Changes p a w (step p w a) := by
  rw [step]
  cases a with
  | provision call =>
    rw [exec, Machine.discard_snd]
    exact .single (provisionTenant_change call)
  | attach call =>
    rw [exec, Machine.discard_snd]
    exact .single (attachDomain_change call)
  | refresh tenantId domainId answer now =>
    rw [exec, Machine.discard_snd]
    exact .single (refreshDomain_change tenantId domainId answer now ⟨rfl, rfl⟩)
  | refreshAll tenantId answers clock =>
    rw [exec, Machine.discard_snd]
    exact refreshAllDomains_changes tenantId answers clock fun _ => rfl
  | remove tenantId domainId answer =>
    rw [exec]
    exact .single (removeDomain_change tenantId domainId answer trivial)
  | setPrimary tenantId domainId =>
    rw [exec, Machine.discard_snd]
    exact .single (setPrimaryDomain_change tenantId domainId)
  | releaseLapsed tenantId answers clock =>
    rw [exec, Machine.discard_snd]
    exact releaseLapsedClaims_changes tenantId answers clock trivial
  | dropRecord id => exact .single (.idle rfl rfl rfl)

/-- What every change of an action preserves, the action preserves. -/
theorem changes_invariant {I : World → Prop} (h : ∀ w w', Change p a w w' → I w → I w')
    {w' : World} (hc : Changes p a w w') (hw : I w) : I w' := by
  induction hc with
  | refl => exact hw
  | tail _ hc ih => exact h _ _ hc ih

/-- What every change preserves, every run preserves. -/
theorem run_invariant {I : World → Prop} (h : ∀ a w w', Change p a w w' → I w → I w')
    (hw : I w) (as : List DomainAction) : I (run (step p) w as) :=
  Machine.run_invariant (fun _ a hw => changes_invariant (h a) (exec_changes a) hw) hw as

/-! ### Who a row belongs to -/

/-- The row is the subdomain of the tenant it belongs to. -/
def IsSubdomain (env : Env) (tenants : List TenantRow) (d : TenantDomainRow) : Prop :=
  d.cfHostnameId = none ∧
    ∃ t ∈ tenants, t.id = d.tenantId ∧ d.hostname = t.slug ++ "." ++ env.tenantSubdomainRoot

/-- The row came about by attaching a name that may be claimed. -/
def IsClaim (env : Env) (d : TenantDomainRow) : Prop :=
  (∃ id, d.cfHostnameId = some id) ∧
    ∃ raw, claimableHostname raw env.platformApexDomain = .ok d.hostname

/-- Tenants and the rows of their domains identify each other. -/
structure Registered (env : Env) (tenants : List TenantRow) (rows : List TenantDomainRow) :
    Prop where
  tenants_pkey : (tenants.map (·.id)).Nodup
  tenants_slug : (tenants.map (·.slug)).Nodup
  slug_valid : ∀ t ∈ tenants, isValidSlug t.slug = true
  rows_pkey : (rows.map (·.id)).Nodup
  rows_tenant : ∀ d ∈ rows, ∃ t ∈ tenants, t.id = d.tenantId
  rows_hostname : ∀ d ∈ rows, ∀ d' ∈ rows, d.tenantId = d'.tenantId →
    d.hostname = d'.hostname → d.id = d'.id
  origin : ∀ d ∈ rows, IsSubdomain env tenants d ∨ IsClaim env d

namespace Registered

variable {env : Env} {tenants : List TenantRow} {rows rows' : List TenantDomainRow}

theorem of_keys (h : Registered env tenants rows)
    (hkeys : rows'.map claimKey = rows.map claimKey) : Registered env tenants rows' := by
  have hmem : ∀ d' ∈ rows', ∃ d ∈ rows, claimKey d = claimKey d' := by
    intro d' hd'
    have := List.mem_map_of_mem (f := claimKey) hd'
    rw [hkeys] at this
    exact List.mem_map.mp this
  have hids : rows'.map (·.id) = rows.map (·.id) := by
    have := congrArg (List.map Prod.fst) hkeys
    simpa [claimKey, Function.comp_def] using this
  refine ⟨h.tenants_pkey, h.tenants_slug, h.slug_valid, hids ▸ h.rows_pkey, ?_, ?_, ?_⟩
  · intro d' hd'
    obtain ⟨d, hd, hkey⟩ := hmem d' hd'
    simp only [claimKey, Prod.mk.injEq] at hkey
    rw [← hkey.2.1]
    exact h.rows_tenant d hd
  · intro d₁ h₁ d₂ h₂ htenant hhost
    obtain ⟨e₁, he₁, hkey₁⟩ := hmem d₁ h₁
    obtain ⟨e₂, he₂, hkey₂⟩ := hmem d₂ h₂
    simp only [claimKey, Prod.mk.injEq] at hkey₁ hkey₂
    rw [← hkey₁.1, ← hkey₂.1]
    refine h.rows_hostname e₁ he₁ e₂ he₂ ?_ ?_
    · rw [hkey₁.2.1, hkey₂.2.1, htenant]
    · rw [hkey₁.2.2.1, hkey₂.2.2.1, hhost]
  · intro d' hd'
    obtain ⟨d, hd, hkey⟩ := hmem d' hd'
    simp only [claimKey, Prod.mk.injEq] at hkey
    have horigin := h.origin d hd
    simp only [IsSubdomain, IsClaim, hkey.2.1, hkey.2.2.1, hkey.2.2.2] at horigin
    exact horigin

theorem sublist (h : Registered env tenants rows) (hsub : rows'.Sublist rows) :
    Registered env tenants rows' :=
  ⟨h.tenants_pkey, h.tenants_slug, h.slug_valid, h.rows_pkey.sublist (hsub.map _),
    fun d hd => h.rows_tenant d (hsub.subset hd),
    fun d hd d' hd' => h.rows_hostname d (hsub.subset hd) d' (hsub.subset hd'),
    fun d hd => h.origin d (hsub.subset hd)⟩

theorem append_tenant (h : Registered env tenants rows) {t : TenantRow}
    (hid : ∀ t' ∈ tenants, t'.id ≠ t.id) (hslug : ∀ t' ∈ tenants, t'.slug ≠ t.slug)
    (hvalid : isValidSlug t.slug = true) : Registered env (tenants ++ [t]) rows where
  tenants_pkey := by
    rw [List.map_append, List.map_singleton, List.nodup_append']
    refine ⟨h.tenants_pkey, List.nodup_singleton _, ?_⟩
    simpa [List.disjoint_singleton] using hid
  tenants_slug := by
    rw [List.map_append, List.map_singleton, List.nodup_append']
    refine ⟨h.tenants_slug, List.nodup_singleton _, ?_⟩
    simpa [List.disjoint_singleton] using hslug
  slug_valid := by
    intro t' ht'
    rcases List.mem_append.mp ht' with ht' | ht'
    · exact h.slug_valid t' ht'
    · rw [List.mem_singleton.mp ht']
      exact hvalid
  rows_pkey := h.rows_pkey
  rows_tenant := by
    intro d hd
    obtain ⟨t', ht', hid'⟩ := h.rows_tenant d hd
    exact ⟨t', List.mem_append_left _ ht', hid'⟩
  rows_hostname := h.rows_hostname
  origin := by
    intro d hd
    rcases h.origin d hd with ⟨hcf, t', ht', hid', hhost⟩ | hclaim
    · exact Or.inl ⟨hcf, t', List.mem_append_left _ ht', hid', hhost⟩
    · exact Or.inr hclaim

theorem append_row (h : Registered env tenants rows) {d : TenantDomainRow}
    (hid : ∀ d' ∈ rows, d'.id ≠ d.id) (htenant : ∃ t ∈ tenants, t.id = d.tenantId)
    (hhost : ∀ d' ∈ rows, d'.tenantId = d.tenantId → d'.hostname ≠ d.hostname)
    (horigin : IsSubdomain env tenants d ∨ IsClaim env d) :
    Registered env tenants (rows ++ [d]) where
  tenants_pkey := h.tenants_pkey
  tenants_slug := h.tenants_slug
  slug_valid := h.slug_valid
  rows_pkey := by
    rw [List.map_append, List.map_singleton, List.nodup_append']
    refine ⟨h.rows_pkey, List.nodup_singleton _, ?_⟩
    simpa [List.disjoint_singleton] using hid
  rows_tenant := by
    intro d' hd'
    rcases List.mem_append.mp hd' with hd' | hd'
    · exact h.rows_tenant d' hd'
    · rw [List.mem_singleton.mp hd']
      exact htenant
  rows_hostname := by
    intro d₁ h₁ d₂ h₂ ht heq
    rw [List.mem_append, List.mem_singleton] at h₁ h₂
    rcases h₁ with h₁ | rfl <;> rcases h₂ with h₂ | rfl
    · exact h.rows_hostname d₁ h₁ d₂ h₂ ht heq
    · exact absurd heq (hhost d₁ h₁ ht)
    · exact absurd heq.symm (hhost d₂ h₂ ht.symm)
    · rfl
  origin := by
    intro d' hd'
    rcases List.mem_append.mp hd' with hd' | hd'
    · exact h.origin d' hd'
    · rw [List.mem_singleton.mp hd']
      exact horigin

end Registered

@[simp] theorem claimKey_recordAnswer (latest : CustomHostname) (now : Instant)
    (d : TenantDomainRow) : claimKey (recordAnswer latest now d) = claimKey d := rfl

@[simp] theorem claimKey_recordFailure (message : String) (d : TenantDomainRow) :
    claimKey (recordFailure message d) = claimKey d := rfl

@[simp] theorem claimKey_setIsPrimary (value : Bool) (d : TenantDomainRow) :
    claimKey (setIsPrimary value d) = claimKey d := rfl

theorem map_claimKey_choosePrimary (rows : List TenantDomainRow) (tenantId domainId : Uuid) :
    (choosePrimary rows tenantId domainId).map claimKey = rows.map claimKey :=
  (Table.map_update (claimKey_setIsPrimary true) _).trans
    (Table.map_update (claimKey_setIsPrimary false) _)

theorem registered_change {w' : World} (hc : Change p a w w')
    (h : Registered p.env w.db.tenants w.db.tenantDomains) :
    Registered p.env w'.db.tenants w'.db.tenantDomains := by
  cases hc with
  | idle rows tenants recorded =>
    rw [rows, tenants]
    exact h
  | provisioned call action valid rows tenants newId newTenant newSlug active recorded =>
    rw [rows, tenants]
    have hmem : tenantRow call ∈ w.db.tenants ++ [tenantRow call] := by simp
    have hsub : IsSubdomain p.env (w.db.tenants ++ [tenantRow call]) (subdomainRow p.env call) :=
      ⟨rfl, tenantRow call, hmem, rfl, rfl⟩
    have htenants : Registered p.env (w.db.tenants ++ [tenantRow call]) w.db.tenantDomains :=
      h.append_tenant newTenant newSlug valid
    refine htenants.append_row newId ⟨tenantRow call, hmem, rfl⟩ (fun d hd htenant => ?_)
      (Or.inl hsub)
    obtain ⟨t, ht, hid⟩ := h.rows_tenant d hd
    exact absurd (hid.trans htenant) (newTenant t ht)
  | attached call action hostname created claim answer inserted recorded =>
    rw [inserted.rows, inserted.tenants]
    exact h.append_row inserted.fresh inserted.tenant inserted.hostname
      (Or.inr ⟨⟨created.id, rfl⟩, call.rawHostname, claim⟩)
  | refreshed current answer latest now action found live rows tenants active recorded =>
    rw [rows, tenants]
    exact h.of_keys (Table.map_update (claimKey_recordAnswer latest now) _)
  | failed tenantId domainId message rows tenants active recorded =>
    rw [rows, tenants]
    exact h.of_keys (Table.map_update (claimKey_recordFailure message) _)
  | removed tenantId domainId action rows tenants recorded =>
    rw [rows, tenants]
    exact h.sublist (Table.delete_sublist _ _)
  | primary target action found active rows tenants recorded =>
    rw [rows, tenants]
    exact h.of_keys (map_claimKey_choosePrimary _ _ _)

/-- Tenants and rows identify each other in every run from the empty database. -/
theorem registered_run (users : List UserRow) (as : List DomainAction) :
    Registered p.env (run (step p) (initial users) as).db.tenants
      (run (step p) (initial users) as).db.tenantDomains :=
  run_invariant (p := p) (w := initial users)
    (I := fun w => Registered p.env w.db.tenants w.db.tenantDomains)
    (fun _ _ _ hc h => registered_change hc h)
    ⟨List.nodup_nil, List.nodup_nil, by simp [initial], List.nodup_nil, by simp [initial],
      by simp [initial], by simp [initial]⟩ as

/-! ### One active row per hostname -/

theorem activeHostnames_setIsPrimary (q : TenantDomainRow → Bool) (value : Bool)
    (rows : List TenantDomainRow) :
    activeHostnames (Table.update q (setIsPrimary value) rows) = activeHostnames rows :=
  Table.map_filter_update (f := setIsPrimary value) (fun _ => rfl) (fun _ => rfl) rows

theorem activeHostnames_change {w' : World} (hc : Change p a w w')
    (h : (activeHostnames w.db.tenantDomains).Nodup) :
    (activeHostnames w'.db.tenantDomains).Nodup := by
  cases hc with
  | idle rows tenants recorded => exact rows ▸ h
  | provisioned call action valid rows tenants newId newTenant newSlug active recorded =>
      exact active
  | attached call action hostname created claim answer inserted recorded => exact inserted.active
  | refreshed current answer latest now action found live rows tenants active recorded =>
      exact active
  | failed tenantId domainId message rows tenants active recorded => exact active
  | removed tenantId domainId action rows tenants recorded =>
    rw [rows]
    exact h.sublist (((Table.delete_sublist _ _).filter _).map _)
  | primary target action found active rows tenants recorded =>
    rw [rows, choosePrimary, activeHostnames_setIsPrimary, activeHostnames_setIsPrimary]
    exact h

theorem activeHostnames_run (users : List UserRow) (as : List DomainAction) :
    (activeHostnames (run (step p) (initial users) as).db.tenantDomains).Nodup :=
  run_invariant (p := p) (w := initial users)
    (I := fun w => (activeHostnames w.db.tenantDomains).Nodup)
    (fun _ _ _ hc h => activeHostnames_change hc h) List.nodup_nil as

/-- The index on active hostnames leaves one row to resolve a hostname. -/
theorem eq_of_activeHostnames {rows : List TenantDomainRow} (h : (activeHostnames rows).Nodup)
    {d d' : TenantDomainRow} (hd : d ∈ rows) (hd' : d' ∈ rows)
    (hactive : d.verificationStatus = .active) (hactive' : d'.verificationStatus = .active)
    (hhost : d.hostname = d'.hostname) : d = d' :=
  Table.eq_of_key_eq h (List.mem_filter.mpr ⟨hd, by simpa using hactive⟩)
    (List.mem_filter.mpr ⟨hd', by simpa using hactive'⟩) hhost

/-! ### What Cloudflare confirmed -/

/-- An active row with a record at Cloudflare was last told so by Cloudflare. -/
def Confirmed (w : World) : Prop :=
  ∀ d ∈ w.db.tenantDomains, d.verificationStatus = .active → d.cfHostnameId = none ∨
    ∃ answer, w.lastRecorded d.id = some answer ∧ ReportsActive answer

/-- Choosing a primary domain changes nothing else about a row. -/
theorem mem_choosePrimary {rows : List TenantDomainRow} {tenantId domainId : Uuid}
    {d : TenantDomainRow} (hd : d ∈ choosePrimary rows tenantId domainId) :
    ∃ d' ∈ rows, d.id = d'.id ∧ d.verificationStatus = d'.verificationStatus ∧
      d.cfHostnameId = d'.cfHostnameId := by
  have hkeep : ∀ (q : TenantDomainRow → Bool) (value : Bool) (r : List TenantDomainRow),
      ∀ x ∈ Table.update q (setIsPrimary value) r, ∃ y ∈ r, x.id = y.id ∧
        x.verificationStatus = y.verificationStatus ∧ x.cfHostnameId = y.cfHostnameId := by
    intro q value r x hx
    rcases Table.mem_update.mp hx with ⟨hx, -⟩ | ⟨y, hy, -, rfl⟩
    · exact ⟨x, hx, rfl, rfl, rfl⟩
    · exact ⟨y, hy, rfl, rfl, rfl⟩
  obtain ⟨d₁, hd₁, hid₁, hst₁, hcf₁⟩ := hkeep _ _ _ d hd
  obtain ⟨d₂, hd₂, hid₂, hst₂, hcf₂⟩ := hkeep _ _ _ d₁ hd₁
  exact ⟨d₂, hd₂, hid₁.trans hid₂, hst₁.trans hst₂, hcf₁.trans hcf₂⟩

theorem lastRecorded_of_ne {w' : World} {id rowId : Uuid} {answer : TransportResult}
    (h : w'.recorded = (rowId, answer) :: w.recorded) (hne : id ≠ rowId) :
    w'.lastRecorded id = w.lastRecorded id := by
  rw [World.lastRecorded, h, List.lookup_cons, beq_false_of_ne hne]
  rfl

theorem lastRecorded_self {w' : World} {rowId : Uuid} {answer : TransportResult}
    (h : w'.recorded = (rowId, answer) :: w.recorded) :
    w'.lastRecorded rowId = some answer := by
  rw [World.lastRecorded, h, List.lookup_cons, beq_self_eq_true]

theorem confirmed_change {w' : World} (hc : Change p a w w')
    (hreg : Registered p.env w.db.tenants w.db.tenantDomains) (h : Confirmed w) :
    Confirmed w' := by
  intro d hd hactive
  cases hc with
  | idle rows tenants recorded =>
    rw [World.lastRecorded, recorded]
    exact h d (rows ▸ hd) hactive
  | provisioned call action valid rows tenants newId newTenant newSlug active recorded =>
    rw [World.lastRecorded, recorded]
    rw [rows] at hd
    rcases List.mem_append.mp hd with hd | hd
    · exact h d hd hactive
    · rw [List.mem_singleton.mp hd]
      exact Or.inl rfl
  | attached call action hostname created claim answer inserted recorded =>
    rw [inserted.rows] at hd
    rcases List.mem_append.mp hd with hd | hd
    · rw [lastRecorded_of_ne recorded (inserted.fresh d hd)]
      exact h d hd hactive
    · obtain rfl := List.mem_singleton.mp hd
      exact Or.inr ⟨call.answer, lastRecorded_self recorded,
        (create_ok answer).2.mp hactive⟩
  | refreshed current answer latest now action found live rows tenants active recorded =>
    rw [rows] at hd
    rcases Table.mem_update.mp hd with ⟨hd, hother⟩ | ⟨b, hb, hsame, rfl⟩
    · have hne : d.id ≠ current.id := by
        intro hid
        obtain rfl := Table.eq_of_key_eq hreg.rows_pkey hd found hid
        simp at hother
      rw [lastRecorded_of_ne recorded hne]
      exact h d hd hactive
    · simp only [Bool.and_eq_true, decide_eq_true_eq] at hsame
      refine Or.inr ⟨answer, ?_, (get_ok live).2.mp hactive⟩
      rw [show (recordAnswer latest now b).id = current.id from hsame.2]
      exact lastRecorded_self recorded
  | failed tenantId domainId message rows tenants active recorded =>
    rw [World.lastRecorded, recorded]
    rw [rows] at hd
    rcases Table.mem_update.mp hd with ⟨hd, -⟩ | ⟨b, -, -, rfl⟩
    · exact h d hd hactive
    · exact absurd hactive (by simp [recordFailure])
  | removed tenantId domainId action rows tenants recorded =>
    rw [World.lastRecorded, recorded]
    rw [rows] at hd
    exact h d (Table.mem_delete.mp hd).1 hactive
  | primary target action found active rows tenants recorded =>
    rw [World.lastRecorded, recorded]
    rw [rows] at hd
    obtain ⟨d', hd', hid, hstatus, hcf⟩ := mem_choosePrimary hd
    rw [hid, hcf]
    exact h d' hd' (hstatus ▸ hactive)

theorem confirmed_run (users : List UserRow) (as : List DomainAction) :
    Confirmed (run (step p) (initial users) as) :=
  (run_invariant (p := p) (w := initial users)
    (I := fun w => Registered p.env w.db.tenants w.db.tenantDomains ∧ Confirmed w)
    (fun _ _ _ hc h => ⟨registered_change hc h.1, confirmed_change hc h.1 h.2⟩)
    ⟨registered_run users [], by simp [Confirmed, initial]⟩ as).2

/-- **A custom hostname serves only what Cloudflare confirmed.** In every state of every run, the
row a host resolves through is the only active row of that hostname and belongs to an active tenant;
and unless it is the tenant's own subdomain, the last answer recorded in it reported both the
hostname and its certificate as active. -/
theorem lookupTenantByHost_confirmed (p : Platform) (users : List UserRow)
    (as : List DomainAction) (host : String) (found : ResolvedTenant)
    (h : lookupTenantByHost (run (step p) (initial users) as).db host = some found) :
    let w := run (step p) (initial users) as
    ∃ d ∈ w.db.tenantDomains,
      d.hostname.toList = Js.toLowerCase host.toList ∧ d.verificationStatus = .active ∧
      (∃ t ∈ w.db.tenants, t.id = d.tenantId ∧ t.status = .active ∧ found = t.resolved) ∧
      (∀ d' ∈ w.db.tenantDomains, d'.verificationStatus = .active →
        d'.hostname = d.hostname → d' = d) ∧
      (IsSubdomain p.env w.db.tenants d ∨ ∃ answer, w.lastRecorded d.id = some answer ∧
        hostnameStatus (rawResult answer) = "active" ∧
        sslStatus (rawResult answer) = "active") := by
  obtain ⟨d, hd, t, ht, htid, hhost, hactive, htenant, rfl⟩ := lookupTenantByHost_eq_some h
  refine ⟨d, hd, hhost, hactive, ⟨t, ht, htid, htenant, rfl⟩, fun d' hd' hactive' hsame =>
    eq_of_activeHostnames (activeHostnames_run users as) hd' hd hactive' hactive hsame, ?_⟩
  rcases confirmed_run users as d hd hactive with hcf | ⟨answer, hlast, hreports⟩
  · rcases (registered_run users as).origin d hd with hsub | ⟨⟨id, hid⟩, -⟩
    · exact Or.inl hsub
    · rw [hcf] at hid
      cases hid
  · exact Or.inr ⟨answer, hlast, hreports⟩

/-! ### A platform -/

/-- A configured platform whose subdomains sit under its apex. -/
def lamplightEnv : Env where
  databaseUrl := "postgres://app@db/lamplight"
  databaseAdminUrl := "postgres://admin@db/lamplight"
  tenancyMode := .platform
  platformApexDomain := "lamplight.school"
  tenantSubdomainRoot := "lamplight.school"
  singleTenantSlug := none
  selfServeSignup := true
  mailTransport := .auto
  smtpHost := none
  mailFrom := none
  cloudflareApiToken := some "token"
  cloudflareZoneId := some "zone"
  cloudflareSaasFallbackOrigin := some "origin.lamplight.school"
  domainSweepSecret := none
  s3Endpoint := none
  s3Bucket := none
  s3AccessKeyId := none
  s3SecretAccessKey := none
  signedUrlTtlSeconds := 300

/-- A platform with the default configuration. -/
def lamplight : Platform where
  env := lamplightEnv
  client := Client.of lamplightEnv fun _ => ""
  hashToken := fun token => "sha256 " ++ token

/-- Who provisions institutes. -/
def operator : UserRow where
  id := 9
  email := "operator@lamplight.school"
  name := "Operator"
  firstName := ""
  lastName := ""
  emailVerified := true

/-- A successful answer about one record. -/
def answerAbout (id hostname status ssl : String) : TransportResult :=
  .ok { status := 200
        json := .obj [("success", .bool true), ("result", .obj [("id", .str id),
          ("hostname", .str hostname), ("status", .str status),
          ("ssl", .obj [("status", .str ssl)])])] }

/-- A refusal, such as the API gives for a token without the scope or a request it rejects. -/
def refusal (status : ℕ) : TransportResult :=
  .ok { status := status, json := .obj [("success", .bool false)] }

/-- An institute with an admin of its own, whose mail goes out. -/
def provisionCall (slug name : String) (tenantId domainId : Uuid) : ProvisionCall where
  operatorId := operator.id
  slug := slug
  name := name
  adminEmail := "admin@example.org"
  tenantId := tenantId
  domainId := domainId
  invitation := ⟨domainId, slug, 0, 0, 0⟩
  verifiedAt := 0
  createdAt := 0
  mailSent := true

/-- A tenant attaches a hostname and Cloudflare confirms it. -/
def learnRun : List DomainAction :=
  [.provision (provisionCall "grace" "Grace" 1 11),
    .attach ⟨1, "Learn.Institute.edu.",
      answerAbout "cf-1" "learn.institute.edu" "pending" "initializing", 12, 5, 5⟩,
    .refresh 1 12 (answerAbout "cf-1" "learn.institute.edu" "active" "active") 10]

theorem lookupTenantByHost_confirmed_learn :
    let w := run (step lamplight) (initial [operator]) learnRun
    ∃ d ∈ w.db.tenantDomains,
      d.hostname.toList = Js.toLowerCase "learn.institute.edu".toList ∧
      d.verificationStatus = .active ∧
      (∃ t ∈ w.db.tenants, t.id = d.tenantId ∧ t.status = .active ∧
        ⟨1, "grace", "Grace"⟩ = t.resolved) ∧
      (∀ d' ∈ w.db.tenantDomains, d'.verificationStatus = .active →
        d'.hostname = d.hostname → d' = d) ∧
      (IsSubdomain lamplight.env w.db.tenants d ∨ ∃ answer, w.lastRecorded d.id = some answer ∧
        hostnameStatus (rawResult answer) = "active" ∧
        sslStatus (rawResult answer) = "active") :=
  lookupTenantByHost_confirmed lamplight [operator] learnRun "learn.institute.edu"
    ⟨1, "grace", "Grace"⟩ (by decide)

end LampLight
