import LampLight.Domains.Sweep

/-!
# When a lapsed claim is released

A claim carries a deadline, and the sweep deletes the claims whose deadline has passed. But every
successful check of a domain that is not active writes a new deadline, a full `CLAIM_TTL_MS` ahead,
and the sweep checks every domain of a tenant before it releases any. So the deadline a release
looks at is the one the same sweep has just written, and age never ends a claim: it ends when one
sweep takes a whole `CLAIM_TTL_MS` between the check of a row and its release.

`Holding` and `Gone` are the two states of a claim, its row and its record together. Every turn of
every sweep keeps a claim in its state, except the turn of its own tenant when the sweep `Outwaits`
the deadline.

## Main results

* `refreshAll_ok_iff` — when the check of a tenant's domains goes through
* `lateSweepsRelease_iff` — late sweeps release a claim exactly when they outwait it
-/

namespace LampLight

open Cloudflare
open Machine (run Meets forEach)

/-! ### A claim and its states -/

/-- What identifies an attached hostname, and when it was attached. -/
structure Claim where
  rowId : Uuid
  tenantId : Uuid
  record : String
  attachedAt : Instant

/-- The claim an attach request makes. -/
def AttachCall.claim (call : AttachCall) : Claim where
  rowId := call.rowId
  tenantId := call.tenantId
  record := recordId call.answer
  attachedAt := call.now

/-- The row is there, not active, and the only one of its record. -/
structure RowHeld (c : Claim) (rows : List TenantDomainRow) : Prop where
  there : ∃ d ∈ rows, d.id = c.rowId
  row : ∀ d ∈ rows, d.id = c.rowId → d.tenantId = c.tenantId ∧ d.cfHostnameId = some c.record ∧
    d.verificationStatus ≠ .active
  own : ∀ d ∈ rows, d.cfHostnameId = some c.record → d.id = c.rowId

/-- The claim occupies its hostname. -/
structure Holding (c : Claim) (w : World) : Prop where
  rows : RowHeld c w.db.tenantDomains
  zone : c.record ∈ w.zone

/-- Neither the row nor the record exists. -/
structure Gone (c : Claim) (w : World) : Prop where
  rows : ∀ d ∈ w.db.tenantDomains, d.id ≠ c.rowId
  zone : c.record ∉ w.zone

instance (c : Claim) (w : World) : Decidable (Gone c w) :=
  decidable_of_iff ((∀ d ∈ w.db.tenantDomains, d.id ≠ c.rowId) ∧ c.record ∉ w.zone)
    ⟨fun h => ⟨h.1, h.2⟩, fun h => ⟨h.1, h.2⟩⟩

/-- The action is none that deletes domains, uses ids of its own, and is never told that the claimed
hostname is active. -/
def Spares (c : Claim) : DomainAction → Prop
  | .provision call => call.domainId ≠ c.rowId
  | .attach call => call.rowId ≠ c.rowId ∧ recordId call.answer ≠ c.record
  | .refresh _ domainId answer _ => domainId = c.rowId → ¬ ReportsActive answer
  | .refreshAll _ answers _ => ¬ ReportsActive (answers c.rowId)
  | .setPrimary _ _ => True
  | .remove _ _ _ => False
  | .releaseLapsed _ _ _ => False
  | .dropRecord _ => False

variable {p : Platform} {c : Claim} {w w' : World} {a : DomainAction}

/-! ### Actions that spare a claim -/

theorem RowHeld.update {rows : List TenantDomainRow} (h : RowHeld c rows)
    {q : TenantDomainRow → Bool} {f : TenantDomainRow → TenantDomainRow}
    (hkey : ∀ d, claimKey (f d) = claimKey d)
    (hstatus : ∀ d ∈ rows, q d = true → d.id = c.rowId → (f d).verificationStatus ≠ .active) :
    RowHeld c (Table.update q f rows) := by
  have hcolumns : ∀ d, (f d).id = d.id ∧ (f d).tenantId = d.tenantId ∧
      (f d).cfHostnameId = d.cfHostnameId := by
    intro d
    have := hkey d
    simp only [claimKey, Prod.mk.injEq] at this
    exact ⟨this.1, this.2.1, this.2.2.2⟩
  refine ⟨?_, fun d hd hid => ?_, fun d hd hrec => ?_⟩
  · obtain ⟨d, hd, hid⟩ := h.there
    cases hq : q d with
    | false => exact ⟨d, Table.mem_update.mpr (Or.inl ⟨hd, hq⟩), hid⟩
    | true => exact
        ⟨f d, Table.mem_update.mpr (Or.inr ⟨d, hd, hq, rfl⟩), by rw [(hcolumns d).1, hid]⟩
  · rcases Table.mem_update.mp hd with ⟨hd, -⟩ | ⟨b, hb, hq, rfl⟩
    · exact h.row d hd hid
    · rw [(hcolumns b).1] at hid
      obtain ⟨htenant, hrec, -⟩ := h.row b hb hid
      rw [(hcolumns b).2.1, (hcolumns b).2.2]
      exact ⟨htenant, hrec, hstatus b hb hq hid⟩
  · rcases Table.mem_update.mp hd with ⟨hd, -⟩ | ⟨b, hb, -, rfl⟩
    · exact h.own d hd hrec
    · rw [(hcolumns b).1]
      rw [(hcolumns b).2.2] at hrec
      exact h.own b hb hrec

theorem RowHeld.append {rows : List TenantDomainRow} (h : RowHeld c rows) {d : TenantDomainRow}
    (hid : d.id ≠ c.rowId) (hrec : d.cfHostnameId ≠ some c.record) :
    RowHeld c (rows ++ [d]) := by
  have hmem : ∀ d' ∈ rows ++ [d], d' ∈ rows ∨ d' = d := by
    intro d' hd'
    rwa [List.mem_append, List.mem_singleton] at hd'
  refine ⟨?_, fun d' hd' hid' => ?_, fun d' hd' hrec' => ?_⟩
  · obtain ⟨d', hd', hid'⟩ := h.there
    exact ⟨d', List.mem_append_left _ hd', hid'⟩
  · rcases hmem d' hd' with hd' | rfl
    · exact h.row d' hd' hid'
    · exact absurd hid' hid
  · rcases hmem d' hd' with hd' | rfl
    · exact h.own d' hd' hrec'
    · exact absurd hrec' hrec

theorem rowHeld_change (hc : Change p a w w') (hok : Spares c a)
    (h : RowHeld c w.db.tenantDomains) : RowHeld c w'.db.tenantDomains := by
  cases hc with
  | idle rows tenants recorded => rw [rows]; exact h
  | provisioned call action valid rows tenants newId newTenant newSlug active recorded =>
    subst action
    rw [rows]
    exact h.append hok (by simp [subdomainRow])
  | attached call action hostname created claim answer inserted recorded =>
    subst action
    rw [inserted.rows]
    refine h.append hok.1 fun heq => hok.2 ?_
    rw [← (create_ok answer).1]
    exact Option.some.inj heq
  | refreshed current answer latest now action found live rows tenants active recorded =>
    rw [rows]
    refine h.update (claimKey_recordAnswer latest now) fun d hd hq hid hactive => ?_
    have hreports : ReportsActive answer := (get_ok live).2.mp hactive
    simp only [Bool.and_eq_true, decide_eq_true_eq] at hq
    have hcurrent : current.id = c.rowId := hq.2.symm.trans hid
    cases a with
    | refresh tenantId domainId given at_ =>
      obtain ⟨rfl, rfl⟩ := action
      exact hok hcurrent hreports
    | refreshAll tenantId answers clock =>
      have hgiven : answer = answers current.id := action
      rw [hgiven, hcurrent] at hreports
      exact hok hreports
    | _ => exact action.elim
  | failed tenantId domainId message rows tenants active recorded =>
    rw [rows]
    exact h.update (claimKey_recordFailure message) fun _ _ _ _ => DomainStatus.noConfusion
  | removed tenantId domainId action rows tenants recorded =>
    cases a with
    | remove tenantId domainId answer => exact hok.elim
    | releaseLapsed tenantId answers clock => exact hok.elim
    | _ => exact action.elim
  | primary target action found active rows tenants recorded =>
    rw [rows]
    have hkeep : ∀ {rows : List TenantDomainRow} {q : TenantDomainRow → Bool} (value : Bool),
        RowHeld c rows → RowHeld c (Table.update q (setIsPrimary value) rows) :=
      fun value h => h.update (claimKey_setIsPrimary value) fun d hd _ hid => (h.row d hd hid).2.2
    exact hkeep true (hkeep false h)

/-- No change brings a row with the id of the claim back. -/
theorem noRow_change (hc : Change p a w w') (hok : Spares c a ∨ a.Removes)
    (h : ∀ d ∈ w.db.tenantDomains, d.id ≠ c.rowId) : ∀ d ∈ w'.db.tenantDomains, d.id ≠ c.rowId := by
  have happend : ∀ {rows : List TenantDomainRow} {d : TenantDomainRow},
      (∀ d ∈ rows, d.id ≠ c.rowId) → d.id ≠ c.rowId → ∀ d' ∈ rows ++ [d], d'.id ≠ c.rowId := by
    intro rows d hrows hd d' hd'
    rcases List.mem_append.mp hd' with hd' | hd'
    · exact hrows d' hd'
    · rwa [List.mem_singleton.mp hd']
  have hkeys : ∀ {rows rows' : List TenantDomainRow}, rows'.map claimKey = rows.map claimKey →
      (∀ d ∈ rows, d.id ≠ c.rowId) → ∀ d' ∈ rows', d'.id ≠ c.rowId := by
    intro rows rows' hmap hrows d' hd'
    have hmem := List.mem_map_of_mem (f := claimKey) hd'
    rw [hmap] at hmem
    obtain ⟨d, hd, hkey⟩ := List.mem_map.mp hmem
    have hid : d.id = d'.id := congrArg Prod.fst hkey
    rw [← hid]
    exact hrows d hd
  cases hc with
  | idle rows tenants recorded => rwa [rows]
  | provisioned call action valid rows tenants newId newTenant newSlug active recorded =>
    subst action
    rw [rows]
    exact happend h (hok.resolve_right id)
  | attached call action hostname created claim answer inserted recorded =>
    subst action
    rw [inserted.rows]
    exact happend h (hok.resolve_right id).1
  | refreshed current answer latest now action found live rows tenants active recorded =>
    rw [rows]
    exact hkeys (Table.map_update (claimKey_recordAnswer latest now) _) h
  | failed tenantId domainId message rows tenants active recorded =>
    rw [rows]
    exact hkeys (Table.map_update (claimKey_recordFailure message) _) h
  | removed tenantId domainId action rows tenants recorded =>
    rw [rows]
    exact fun d hd => h d (Table.mem_delete.mp hd).1
  | primary target action found active rows tenants recorded =>
    rw [rows]
    exact hkeys (map_claimKey_choosePrimary _ _ _) h

/-- The zone after an action that spares the claim, as far as the claim's record goes. -/
theorem mem_zone_iff (hok : Spares c a) : c.record ∈ (step p w a).zone ↔ c.record ∈ w.zone := by
  cases a with
  | provision call => rw [step, exec, Machine.discard_snd, provisionTenant_zone]
  | attach call =>
    rw [step, exec, Machine.discard_snd]
    have hcons : ∀ {created : CustomHostname}, create p.client call.answer = .ok created →
        (c.record ∈ created.id :: w.zone ↔ c.record ∈ w.zone) := by
      intro created hcreate
      rw [List.mem_cons, or_iff_right]
      rw [(create_ok hcreate).1]
      exact fun heq => hok.2 heq.symm
    rcases @attachDomain_cases p.env p.client w call with
      ⟨message, hr⟩ | ⟨hostname, created, -, -, hcreate, ⟨e, -, hr⟩ | ⟨db, r, -, hr⟩⟩
    · rw [hr]
    · rw [hr]
      exact hcons hcreate
    · rw [hr]
      exact hcons hcreate
  | refresh tenantId domainId answer now =>
    rw [step, exec, Machine.discard_snd, refreshDomain_zone]
  | refreshAll tenantId answers clock =>
    rw [step, exec, Machine.discard_snd, refreshAllDomains_zone]
  | remove tenantId domainId answer => exact hok.elim
  | setPrimary tenantId domainId => rw [step, exec, Machine.discard_snd, setPrimaryDomain_zone]
  | releaseLapsed tenantId answers clock => exact hok.elim
  | dropRecord id => exact hok.elim

theorem Holding.step (hok : Spares c a) (h : Holding c w) : Holding c (step p w a) where
  rows := changes_invariant (p := p) (a := a) (I := fun w => RowHeld c w.db.tenantDomains)
    (fun _ _ hc h => rowHeld_change hc hok h) (exec_changes a) h.rows
  zone := (mem_zone_iff hok).mpr h.zone

theorem Gone.step (hok : Spares c a) (h : Gone c w) : Gone c (step p w a) where
  rows := changes_invariant (p := p) (a := a)
    (I := fun w => ∀ d ∈ w.db.tenantDomains, d.id ≠ c.rowId)
    (fun _ _ hc h => noRow_change hc (Or.inl hok) h) (exec_changes a) h.rows
  zone := fun hmem => h.zone ((mem_zone_iff hok).mp hmem)

/-! ### What holds in every run -/

/-- The invariants of the tables a sweep relies on. -/
structure Booked (env : Env) (w : World) : Prop where
  registered : Registered env w.db.tenants w.db.tenantDomains
  active : (activeHostnames w.db.tenantDomains).Nodup
  tenantsActive : ∀ t ∈ w.db.tenants, t.status = .active

theorem booked_change (hc : Change p a w w') (h : Booked p.env w) : Booked p.env w' := by
  refine ⟨registered_change hc h.registered, activeHostnames_change hc h.active, ?_⟩
  cases hc with
  | idle rows tenants recorded => rw [tenants]; exact h.tenantsActive
  | provisioned call action valid rows tenants newId newTenant newSlug active recorded =>
    rw [tenants]
    intro t ht
    rcases List.mem_append.mp ht with ht | ht
    · exact h.tenantsActive t ht
    · rw [List.mem_singleton.mp ht]
      rfl
  | attached call action hostname created claim answer inserted recorded =>
    rw [inserted.tenants]
    exact h.tenantsActive
  | refreshed current answer latest now action found live rows tenants active recorded =>
    rw [tenants]
    exact h.tenantsActive
  | failed tenantId domainId message rows tenants active recorded =>
    rw [tenants]
    exact h.tenantsActive
  | removed tenantId domainId action rows tenants recorded =>
    rw [tenants]
    exact h.tenantsActive
  | primary target action found active rows tenants recorded =>
    rw [tenants]
    exact h.tenantsActive

theorem booked_step (a : DomainAction) (h : Booked p.env w) : Booked p.env (step p w a) :=
  changes_invariant (p := p) (I := Booked p.env) (fun _ _ hc h => booked_change hc h)
    (exec_changes a) h

/-! ### Checking all domains of a tenant -/

/-- A domain of the tenant is about to become active under a hostname that is active for somebody
else. -/
def Obstructed (answers : Uuid → TransportResult) (tenantId : Uuid) (w : World) : Prop :=
  ∃ d ∈ w.db.tenantDomains, d.tenantId = tenantId ∧ d.verificationStatus ≠ .active ∧
    recordOf d.cfHostnameId ≠ none ∧ ReportsActive (answers d.id) ∧
    ∃ d' ∈ w.db.tenantDomains, d'.tenantId ≠ tenantId ∧ d'.verificationStatus = .active ∧
      d'.hostname = d.hostname

instance (answers : Uuid → TransportResult) (tenantId : Uuid) (w : World) :
    Decidable (Obstructed answers tenantId w) :=
  inferInstanceAs (Decidable (∃ d ∈ w.db.tenantDomains, _ ∧ _ ∧ _ ∧ _ ∧
    ∃ d' ∈ w.db.tenantDomains, _ ∧ _ ∧ _))

/-- A state in the middle of the check that began in `w`. -/
structure Checking (env : Env) (tenantId : Uuid) (w s : World) : Prop where
  booked : Booked env s
  keys : s.db.tenantDomains.map claimKey = w.db.tenantDomains.map claimKey
  others : ∀ d, d.tenantId ≠ tenantId → (d ∈ s.db.tenantDomains ↔ d ∈ w.db.tenantDomains)

section Check

variable {tenantId : Uuid} {answers : Uuid → TransportResult} {clock : Uuid → Instant} {s : World}

/-- The row as it is now of a row as it was at the start. -/
theorem Checking.row (h : Checking p.env tenantId w s) {d : TenantDomainRow}
    (hd : d ∈ w.db.tenantDomains) : ∃ e ∈ s.db.tenantDomains, e.id = d.id ∧
      e.tenantId = d.tenantId ∧ e.hostname = d.hostname ∧ e.cfHostnameId = d.cfHostnameId := by
  have hmem := List.mem_map_of_mem (f := claimKey) hd
  rw [← h.keys] at hmem
  obtain ⟨e, he, hkey⟩ := List.mem_map.mp hmem
  simp only [claimKey, Prod.mk.injEq] at hkey
  exact ⟨e, he, hkey⟩

/-- A turn leaves the rows alone or writes into one of the tenant's rows. -/
theorem refreshTurn_rows (domain : DomainRecord) :
    (refreshTurn p.env p.client tenantId answers clock s domain).2.db.tenantDomains
        = s.db.tenantDomains ∨
      (∃ message, (∃ e, get p.client (answers domain.id) = .error e) ∧
        (refreshTurn p.env p.client tenantId answers clock s domain).2.db.tenantDomains
          = Table.update (fun d => d.tenantId = tenantId && d.id = domain.id)
            (recordFailure message) s.db.tenantDomains) ∨
      ∃ latest, get p.client (answers domain.id) = .ok latest ∧
        (refreshTurn p.env p.client tenantId answers clock s domain).2.db.tenantDomains
          = Table.update (fun d => d.tenantId = tenantId && d.id = domain.id)
            (recordAnswer latest (clock domain.id)) s.db.tenantDomains := by
  rw [refreshTurn]
  split_ifs
  · exact Or.inl rfl
  rw [Machine.discard_snd]
  rcases @refreshDomain_cases p.env p.client s tenantId domain.id (answers domain.id)
    (clock domain.id) with ⟨r, hr⟩ | ⟨message, db, r, hget, hupd, hr⟩ |
      ⟨d, -, -, -, latest, db, r, hget, hupd, hr⟩
  · rw [hr]
    exact Or.inl rfl
  · rw [hr]
    obtain ⟨rfl, -⟩ := Database.updateTenantDomain_ok hupd
    exact Or.inr (Or.inl ⟨message, hget, rfl⟩)
  · rw [hr]
    obtain ⟨rfl, -⟩ := Database.updateTenantDomain_ok hupd
    exact Or.inr (Or.inr ⟨latest, hget, rfl⟩)

theorem Checking.turn (h : Checking p.env tenantId w s) (domain : DomainRecord) :
    Checking p.env tenantId w (refreshTurn p.env p.client tenantId answers clock s domain).2 := by
  have hupdate : ∀ {f : TenantDomainRow → TenantDomainRow}, (∀ d, claimKey (f d) = claimKey d) →
      let rows := Table.update (fun d => d.tenantId = tenantId && d.id = domain.id) f
        s.db.tenantDomains
      rows.map claimKey = w.db.tenantDomains.map claimKey ∧
        ∀ d, d.tenantId ≠ tenantId → (d ∈ rows ↔ d ∈ w.db.tenantDomains) := by
    intro f hf
    refine ⟨(Table.map_update hf _).trans h.keys, fun d hne => ?_⟩
    rw [Table.mem_update, ← h.others d hne]
    refine ⟨?_, fun hd => Or.inl ⟨hd, by simp [hne]⟩⟩
    rintro (⟨hd, -⟩ | ⟨b, -, hq, rfl⟩)
    · exact hd
    · simp only [Bool.and_eq_true, decide_eq_true_eq] at hq
      have htenant : (f b).tenantId = b.tenantId := congrArg (·.2.1) (hf b)
      exact absurd (htenant.trans hq.1) hne
  have hbooked : Booked p.env (refreshTurn p.env p.client tenantId answers clock s domain).2 := by
    rw [refreshTurn]
    split_ifs
    · exact h.booked
    · exact booked_change (refreshDomain_change (a := .refreshAll tenantId answers clock)
        tenantId domain.id (answers domain.id) (clock domain.id) rfl) h.booked
  rcases @refreshTurn_rows p tenantId answers clock s domain with
    hr | ⟨message, -, hr⟩ | ⟨latest, -, hr⟩
  · exact ⟨hbooked, by rw [hr]; exact h.keys, by rw [hr]; exact h.others⟩
  · obtain ⟨hkeys, hothers⟩ := hupdate (claimKey_recordFailure message)
    exact ⟨hbooked, by rw [hr]; exact hkeys, by rw [hr]; exact hothers⟩
  · obtain ⟨hkeys, hothers⟩ := hupdate (claimKey_recordAnswer latest (clock domain.id))
    exact ⟨hbooked, by rw [hr]; exact hkeys, by rw [hr]; exact hothers⟩

/-- A turn succeeds when nobody else serves the hostname. -/
theorem Checking.turn_ok (hcfg : customHostnamesConfigured p.env = true)
    (h : Checking p.env tenantId w s)
    (haccepted : ∀ d ∈ w.db.tenantDomains, Accepted (answers d.id))
    (hfree : ¬ Obstructed answers tenantId w) {domain : DomainRecord}
    (hdomain : domain ∈ listDomains w.db tenantId) :
    (refreshTurn p.env p.client tenantId answers clock s domain).1 = .ok () := by
  obtain ⟨d, hd, htenant, rfl⟩ := mem_listDomains.mp hdomain
  rw [refreshTurn]
  split_ifs with hstatus
  · rfl
  obtain ⟨e, he, hid, het, hhost, hrec⟩ := h.row hd
  rw [Machine.discard, show (toRecord d).id = e.id from hid.symm, ← htenant, ← het]
  by_cases hnone : recordOf e.cfHostnameId = none
  · rw [refreshDomain, findDomain_eq h.booked.registered.rows_pkey he]
    simp only [show (toRecord e).cfHostnameId = e.cfHostnameId from rfl, if_pos hnone]
    rfl
  have hanswer : Accepted (answers e.id) := by
    rw [hid]
    exact haccepted d hd
  obtain ⟨latest, hget, ⟨err, herr, -⟩ | ⟨db, r, -, hr⟩⟩ :=
    @refreshDomain_accepted p.env p.client s hcfg h.booked.registered.rows_pkey e he hnone
      (answers e.id) hanswer (clock e.id)
  · exfalso
    have hnd : (activeHostnames (Table.update (fun d => d.tenantId = e.tenantId && d.id = e.id)
        (recordAnswer latest (clock e.id)) s.db.tenantDomains)).Nodup := by
      refine nodup_activeHostnames_update (fun _ => rfl) h.booked.registered.rows_pkey
        h.booked.active fun b hb hbt hbid hactive x hx hxid hxactive hxhost => ?_
      obtain rfl := Table.eq_of_key_eq h.booked.registered.rows_pkey hb he hbid
      by_cases hxt : x.tenantId = b.tenantId
      · exact hxid (h.booked.registered.rows_hostname x hx b hb hxt hxhost)
      · rw [het, htenant] at hxt
        refine hfree ⟨d, hd, htenant, by simpa [toRecord] using hstatus, by rwa [← hrec], ?_, x,
          (h.others x hxt).mp hx, hxt, hxactive, hxhost.trans hhost⟩
        rw [← hid]
        exact (get_ok hget).2.mp hactive
    obtain ⟨db, hdb⟩ := Database.updateTenantDomain_of_nodup hnd
    rw [herr] at hdb
    cases hdb
  · rw [hr]
    rfl

theorem Checking.refl (h : Booked p.env w) : Checking p.env tenantId w w :=
  ⟨h, rfl, fun _ _ => Iff.rfl⟩

/-- The loop of the check, as a loop. -/
theorem step_refreshAll : exec p w (.refreshAll tenantId answers clock)
    = forEach (refreshTurn p.env p.client tenantId answers clock) w
        (listDomains w.db tenantId) := by
  rw [exec, refreshAllDomains, Machine.discard]
  cases forEach (refreshTurn p.env p.client tenantId answers clock) w
      (listDomains w.db tenantId) with
  | mk result s => cases result <;> rfl

theorem Checking.step (h : Booked p.env w) :
    Checking p.env tenantId w (step p w (.refreshAll tenantId answers clock)) := by
  rw [LampLight.step, step_refreshAll]
  exact Machine.forEach_invariant (I := Checking p.env tenantId w) (fun s x _ hs => hs.turn x)
    (.refl h)

/-- The row is what an answer wrote. -/
def Written (p : Platform) (answer : TransportResult) (now : Instant) (e : TenantDomainRow) :
    Prop :=
  ∃ latest b, get p.client answer = .ok latest ∧ e = recordAnswer latest now b

/-- A turn that went through has written the answer into the row it was about. -/
theorem Checking.turn_written (hcfg : customHostnamesConfigured p.env = true)
    (h : Checking p.env tenantId w s) {d : TenantDomainRow} (hd : d ∈ w.db.tenantDomains)
    (htenant : d.tenantId = tenantId) (hstatus : d.verificationStatus ≠ .active)
    (hrec : recordOf d.cfHostnameId ≠ none) (hanswer : Accepted (answers d.id))
    (hok : (refreshTurn p.env p.client tenantId answers clock s (toRecord d)).1 = .ok ()) :
    ∀ e ∈ (refreshTurn p.env p.client tenantId answers clock s (toRecord d)).2.db.tenantDomains,
      e.id = d.id → Written p (answers d.id) (clock d.id) e := by
  obtain ⟨r, hr, hid, hrt, -, hrr⟩ := h.row hd
  have hstatus' : (toRecord d).status ≠ .active := hstatus
  rw [refreshTurn, if_neg hstatus', Machine.discard, show (toRecord d).id = r.id from hid.symm,
    ← htenant, ← hrt] at hok ⊢
  rw [← hrr] at hrec
  rw [← hid] at hanswer ⊢
  obtain ⟨latest, hget, ⟨err, -, hresult⟩ | ⟨db, result, hupd, hresult⟩⟩ :=
    @refreshDomain_accepted p.env p.client s hcfg h.booked.registered.rows_pkey r hr hrec
      (answers r.id) hanswer (clock r.id)
  · rw [hresult] at hok
    cases hok
  · rw [hresult]
    intro e he heid
    obtain ⟨rfl, -⟩ := Database.updateTenantDomain_ok hupd
    rcases Table.mem_update.mp he with ⟨he, hq⟩ | ⟨b, -, -, rfl⟩
    · obtain rfl := Table.eq_of_key_eq h.booked.registered.rows_pkey he hr heid
      simp at hq
    · exact ⟨latest, b, hget, rfl⟩

/-- A check that went through has written an answer into every row it had to check. -/
theorem check_written (hcfg : customHostnamesConfigured p.env = true) (h : Booked p.env w)
    (haccepted : ∀ d ∈ w.db.tenantDomains, Accepted (answers d.id)) {d : TenantDomainRow}
    (hd : d ∈ w.db.tenantDomains) (htenant : d.tenantId = tenantId)
    (hstatus : d.verificationStatus ≠ .active) (hrec : recordOf d.cfHostnameId ≠ none)
    (hok : (exec p w (.refreshAll tenantId answers clock)).1 = .ok ()) :
    ∀ e ∈ (LampLight.step p w (.refreshAll tenantId answers clock)).db.tenantDomains,
      e.id = d.id → Written p (answers d.id) (clock d.id) e := by
  rw [LampLight.step, step_refreshAll]
  rw [step_refreshAll] at hok
  refine Machine.forEach_achieves (I := Checking p.env tenantId w)
    (Q := fun s => ∀ e ∈ s.db.tenantDomains, e.id = d.id → Written p (answers d.id) (clock d.id) e)
    (mem_listDomains.mpr ⟨d, hd, htenant, rfl⟩) (fun s x _ hs => hs.turn x)
    (fun s hs hturn => hs.turn_written hcfg hd htenant hstatus hrec (haccepted d hd) hturn)
    (fun s x hx hs hQ e he hid => ?_) (.refl h) hok
  -- A turn about the same id writes the same answer again; any other leaves the row alone.
  rcases @refreshTurn_rows p tenantId answers clock s x with
    hr | ⟨message, ⟨err, herr⟩, hr⟩ | ⟨latest, hget, hr⟩
  · rw [hr] at he
    exact hQ e he hid
  · obtain ⟨d', hd', -, rfl⟩ := mem_listDomains.mp hx
    obtain ⟨latest, hget⟩ := @exists_get p.client _ (haccepted d' hd')
    rw [show (toRecord d').id = d'.id from rfl, hget] at herr
    cases herr
  · rw [hr] at he
    rcases Table.mem_update.mp he with ⟨he, -⟩ | ⟨b, -, hq, rfl⟩
    · exact hQ e he hid
    · simp only [Bool.and_eq_true, decide_eq_true_eq] at hq
      have hsame : x.id = d.id := hq.2.symm.trans hid
      rw [hsame] at hget ⊢
      exact ⟨latest, b, hget, rfl⟩

/-- **When the check of a tenant's domains goes through.** -/
theorem refreshAll_ok_iff (hcfg : customHostnamesConfigured p.env = true) (h : Booked p.env w)
    (haccepted : ∀ d ∈ w.db.tenantDomains, Accepted (answers d.id)) :
    (exec p w (.refreshAll tenantId answers clock)).1 = .ok () ↔
      ¬ Obstructed answers tenantId w := by
  constructor
  · rintro hok ⟨d, hd, htenant, hstatus, hrec, hreports, d', hd', hne, hactive', hhost⟩
    -- The check has made the row active, and the other row still is.
    have hafter : Checking p.env tenantId w (step p w (.refreshAll tenantId answers clock)) :=
      .step h
    obtain ⟨e, he, hid, het, hehost, -⟩ := hafter.row hd
    obtain ⟨latest, b, hget, rfl⟩ :=
      check_written hcfg h haccepted hd htenant hstatus hrec hok e he hid
    have hactive : (recordAnswer latest (clock d.id) b).verificationStatus = .active :=
      (get_ok hget).2.mpr hreports
    have hsame := eq_of_activeHostnames hafter.booked.active he
      ((hafter.others d' hne).mpr hd') hactive hactive' (hehost.trans hhost.symm)
    rw [← hsame] at hne
    exact hne (het.trans htenant)
  · intro hfree
    rw [step_refreshAll]
    exact Machine.forEach_result (I := Checking p.env tenantId w) (R := fun r => r = .ok ())
      (fun s x _ hs => hs.turn x) (fun s x hx hs => hs.turn_ok hcfg haccepted hfree hx) rfl
      (.refl h)

end Check

/-! ### Releasing -/

section Release

variable {tenantId : Uuid} {answers : Uuid → TransportResult} {clock : Uuid → Instant}

/-- The statements of a release cannot fail. -/
theorem statementsSucceed_releaseLapsed (h : Booked p.env w) :
    StatementsSucceed (exec p w (.releaseLapsed tenantId answers clock)).1 := by
  refine statementsSucceed_map.mpr (statementsSucceed_map.mpr ?_)
  refine Machine.forEach_result (I := Booked p.env) (R := StatementsSucceed)
    (fun s d _ hs => ?_) (fun s d _ hs => ?_) trivial h
  · exact booked_change (removeDomain_change (a := .releaseLapsed tenantId answers clock)
      tenantId d.id (answers d.id) trivial) hs
  · rcases @removeDomain_cases p.env p.client s tenantId d.id (answers d.id) with
      ⟨-, hr⟩ | ⟨row, hrow, rfl, -, ⟨e, -, hr⟩ | ⟨zone, -, ⟨e, he, hr⟩ | ⟨db, -, hr⟩⟩⟩
    · rw [hr]
      trivial
    · rw [hr]
      trivial
    · obtain ⟨db, hdb⟩ :=
        exists_deleteClaim (hs.registered.rows_tenant row hrow) d.id row.hostname
      rw [hdb] at he
      cases he
    · rw [hr]
      trivial

/-- With every delete accepted, a release removes every lapsed claim. -/
theorem release_removed (hcfg : customHostnamesConfigured p.env = true) (h : Booked p.env w)
    (haccepted : ∀ d ∈ w.db.tenantDomains, Accepted (answers d.id)) :
    Removed w (step p w (.releaseLapsed tenantId answers clock))
      (removals w (.releaseLapsed tenantId answers clock)) := by
  have hremoved := step_removed (p := p) (a := .releaseLapsed tenantId answers clock) hcfg rfl
    h.registered.rows_pkey (statementsSucceed_releaseLapsed h)
  have hall : reached w (.releaseLapsed tenantId answers clock)
      = removals w (.releaseLapsed tenantId answers clock) := by
    rw [reached, List.takeWhile_eq_self_iff]
    intro x hx
    obtain ⟨domain, hdomain, rfl⟩ := List.mem_map.mp hx
    obtain ⟨d, hd, -, rfl⟩ := mem_listDomains.mp (List.mem_filter.mp hdomain).1
    have hreachable : ¬ Unreachable (answers d.id) := (accepted_ne (haccepted d hd)).1
    rw [goesOn, Bool.or_eq_true, Bool.not_eq_true', decide_eq_false_iff_not]
    exact Or.inr hreachable
  rwa [hall] at hremoved

/-- A claim that has not lapsed survives the release, and so does any claim of another tenant. -/
theorem Holding.release (hcfg : customHostnamesConfigured p.env = true) (hb : Booked p.env w)
    (haccepted : ∀ d ∈ w.db.tenantDomains, Accepted (answers d.id)) (h : Holding c w)
    (hkept : tenantId = c.tenantId → ∀ d ∈ w.db.tenantDomains, d.id = c.rowId →
      lapsed clock (toRecord d) = false) :
    Holding c (LampLight.step p w (.releaseLapsed tenantId answers clock)) := by
  have hremoved := @release_removed p w tenantId answers clock hcfg hb haccepted
  have hne : ∀ x ∈ removals w (.releaseLapsed tenantId answers clock), x.1.id ≠ c.rowId := by
    intro x hx hid
    obtain ⟨domain, hdomain, rfl⟩ := List.mem_map.mp hx
    obtain ⟨hmem, hlapsed⟩ := List.mem_filter.mp hdomain
    obtain ⟨d, hd, htenant, rfl⟩ := mem_listDomains.mp hmem
    have hkeep := hkept (htenant.symm.trans (h.rows.row d hd hid).1) d hd hid
    rw [hkeep] at hlapsed
    cases hlapsed
  refine ⟨⟨?_, fun d hd => ?_, fun d hd => ?_⟩, (hremoved.zone _).mpr ⟨h.zone, ?_⟩⟩
  · obtain ⟨d, hd, hid⟩ := h.rows.there
    exact ⟨d, (hremoved.rows d).mpr ⟨hd, fun x hx heq => hne x hx (heq.symm.trans hid)⟩, hid⟩
  · exact h.rows.row d ((hremoved.rows d).mp hd).1
  · exact h.rows.own d ((hremoved.rows d).mp hd).1
  · intro x hx hrec
    obtain ⟨domain, hdomain, rfl⟩ := List.mem_map.mp hx
    obtain ⟨d, hd, -, rfl⟩ := mem_listDomains.mp (List.mem_filter.mp hdomain).1
    exact absurd (h.rows.own d hd (Option.filter_eq_some_iff.mp hrec).1) (hne _ hx)

/-- A claim that has lapsed is gone after the release. -/
theorem Holding.released (hcfg : customHostnamesConfigured p.env = true) (hb : Booked p.env w)
    (haccepted : ∀ d ∈ w.db.tenantDomains, Accepted (answers d.id)) (h : Holding c w)
    (hrecord : c.record ≠ "") (hlapsed : ∀ d ∈ w.db.tenantDomains, d.id = c.rowId →
      lapsed clock (toRecord d) = true) :
    Gone c (LampLight.step p w (.releaseLapsed c.tenantId answers clock)) := by
  have hremoved := @release_removed p w c.tenantId answers clock hcfg hb haccepted
  obtain ⟨d, hd, hid⟩ := h.rows.there
  obtain ⟨htenant, hrec, -⟩ := h.rows.row d hd hid
  have hx : (toRecord d, answers d.id) ∈ removals w (.releaseLapsed c.tenantId answers clock) :=
    List.mem_map.mpr ⟨toRecord d, List.mem_filter.mpr
      ⟨mem_listDomains.mpr ⟨d, hd, htenant, rfl⟩, hlapsed d hd hid⟩, rfl⟩
  have hrecordOf : recordOf (toRecord d).cfHostnameId = some c.record :=
    recordOf_eq_some hrec fun heq => hrecord (Option.some.inj (hrec.symm.trans heq))
  refine ⟨fun e he heq => ((hremoved.rows e).mp he).2 _ hx (heq.trans hid.symm), fun hzone => ?_⟩
  exact ((hremoved.zone _).mp hzone).2 _ hx hrecordOf (haccepted d hd)

theorem Gone.release (hcfg : customHostnamesConfigured p.env = true) (hb : Booked p.env w)
    (haccepted : ∀ d ∈ w.db.tenantDomains, Accepted (answers d.id)) (h : Gone c w) :
    Gone c (LampLight.step p w (.releaseLapsed tenantId answers clock)) := by
  have hremoved := @release_removed p w tenantId answers clock hcfg hb haccepted
  exact ⟨fun d hd => h.rows d ((hremoved.rows d).mp hd).1,
    fun hzone => h.zone ((hremoved.zone _).mp hzone).1⟩

end Release

/-! ### One turn of a sweep -/

/-- Cloudflare answers every call of the sweep successfully and does not report the claimed hostname
as active. -/
structure Answered (c : Claim) (call : SweepCall) (w : World) : Prop where
  checks : ∀ d ∈ w.db.tenantDomains, Accepted (call.checkAnswers d.id)
  removes : ∀ d ∈ w.db.tenantDomains, Accepted (call.removeAnswers d.id)
  quiet : ¬ ReportsActive (call.checkAnswers c.rowId)

/-- The sweep lets the deadline it writes pass before it looks at it, and the check of the tenant's
domains goes through. -/
def Outwaits (c : Claim) (call : SweepCall) (w : World) : Prop :=
  ¬ Obstructed call.checkAnswers c.tenantId w ∧
    call.checkClock c.rowId + CLAIM_TTL_MS ≤ call.releaseClock c.rowId

instance (c : Claim) (call : SweepCall) (w : World) : Decidable (Outwaits c call w) :=
  inferInstanceAs (Decidable (_ ∧ _))

section Turn

variable {call : SweepCall} {tenantId : Uuid}

theorem Answered.of_ids (h : Answered c call w)
    (hids : ∀ d' ∈ w'.db.tenantDomains, ∃ d ∈ w.db.tenantDomains, d.id = d'.id) :
    Answered c call w' := by
  refine ⟨fun d' hd' => ?_, fun d' hd' => ?_, h.quiet⟩
  · obtain ⟨d, hd, hid⟩ := hids d' hd'
    rw [← hid]
    exact h.checks d hd
  · obtain ⟨d, hd, hid⟩ := hids d' hd'
    rw [← hid]
    exact h.removes d hd

theorem Answered.check (hb : Booked p.env w) (h : Answered c call w) :
    Answered c call (step p w (checkAll call tenantId)) := by
  have hkeys := (@Checking.step p w tenantId call.checkAnswers call.checkClock hb).keys
  refine h.of_ids fun d' hd' => ?_
  have hmem := List.mem_map_of_mem (f := claimKey) hd'
  rw [checkAll, hkeys] at hmem
  obtain ⟨d, hd, hkey⟩ := List.mem_map.mp hmem
  exact ⟨d, hd, congrArg Prod.fst hkey⟩

theorem Answered.release (hcfg : customHostnamesConfigured p.env = true) (hb : Booked p.env w)
    (h : Answered c call w) : Answered c call (step p w (releaseAll call tenantId)) := by
  have hremoved := @release_removed p w tenantId call.removeAnswers call.releaseClock hcfg hb
    h.removes
  exact h.of_ids fun d hd => ⟨d, ((hremoved.rows d).mp hd).1, rfl⟩

/-- After a check that went through, the claim has lapsed exactly when the sweep takes longer than a
claim lives. -/
theorem lapsed_after_check (hcfg : customHostnamesConfigured p.env = true) (hb : Booked p.env w)
    (hans : Answered c call w) (h : Holding c w) (hrecord : c.record ≠ "")
    (hok : (exec p w (checkAll call c.tenantId)).1 = .ok ()) :
    ∀ e ∈ (step p w (checkAll call c.tenantId)).db.tenantDomains, e.id = c.rowId →
      lapsed call.releaseClock (toRecord e)
        = decide (call.checkClock c.rowId + CLAIM_TTL_MS ≤ call.releaseClock c.rowId) := by
  intro e he hid
  obtain ⟨d, hd, hdid⟩ := h.rows.there
  obtain ⟨htenant, hrec, hstatus⟩ := h.rows.row d hd hdid
  have hrecordOf : recordOf d.cfHostnameId ≠ none := by
    rw [recordOf_eq_some hrec fun heq => hrecord (Option.some.inj (hrec.symm.trans heq))]
    exact Option.some_ne_none _
  obtain ⟨latest, b, hget, rfl⟩ :=
    check_written hcfg hb hans.checks hd htenant hstatus hrecordOf hok e he (hid.trans hdid.symm)
  have hquiet : latest.status ≠ .active := by
    intro hactive
    have hreports := (get_ok hget).2.mp hactive
    rw [hdid] at hreports
    exact hans.quiet hreports
  have hbid : b.id = c.rowId := hid
  simp [lapsed, toRecord, recordAnswer, hquiet, hdid, hbid]

/-- The turn of another tenant leaves the claim alone; the turn of its own ends it exactly when the
sweep outwaits the deadline. -/
theorem holding_turn (hcfg : customHostnamesConfigured p.env = true) (hb : Booked p.env w)
    (hans : Answered c call w) (h : Holding c w) (hrecord : c.record ≠ "") :
    (tenantId = c.tenantId ∧ Outwaits c call w → Gone c (turnWorld p call w tenantId)) ∧
      (¬ (tenantId = c.tenantId ∧ Outwaits c call w) →
        Holding c (turnWorld p call w tenantId)) := by
  -- Sweeping the invitations is invisible to everything below.
  have hb₁ : Booked p.env (sweptInvitations call w tenantId) :=
    booked_change (sweptInvitations_change (checkAll call tenantId) tenantId) hb
  have hans₁ : Answered c call (sweptInvitations call w tenantId) :=
    ⟨hans.checks, hans.removes, hans.quiet⟩
  have h₁ : Holding c (sweptInvitations call w tenantId) := ⟨h.rows, h.zone⟩
  have hout : Outwaits c call w ↔ Outwaits c call (sweptInvitations call w tenantId) := Iff.rfl
  rw [hout]
  have hturn := @turnWorld_eq p w call hcfg tenantId
  generalize sweptInvitations call w tenantId = w₁ at *
  have hspares : Spares c (checkAll call tenantId) := hans.quiet
  have h₂ : Holding c (step p w₁ (checkAll call tenantId)) := h₁.step hspares
  have hb₂ : Booked p.env (step p w₁ (checkAll call tenantId)) := booked_step _ hb₁
  have hans₂ : Answered c call (step p w₁ (checkAll call tenantId)) := hans₁.check hb₁
  have hokIff : (exec p w₁ (checkAll call tenantId)).1 = .ok () ↔
      ¬ Obstructed call.checkAnswers tenantId w₁ := refreshAll_ok_iff hcfg hb₁ hans₁.checks
  rcases hturn with ⟨⟨e, he⟩, hturn⟩ | ⟨hok, hturn⟩
  · have hstop : ¬ (tenantId = c.tenantId ∧ Outwaits c call w₁) := by
      rintro ⟨rfl, hfree, -⟩
      rw [hokIff.mpr hfree] at he
      cases he
    rw [hturn]
    exact ⟨fun hcond => absurd hcond hstop, fun _ => h₂⟩
  · rw [hturn]
    refine ⟨fun hcond => ?_, fun hcond => ?_⟩
    · obtain ⟨rfl, -, hclock⟩ := hcond
      refine h₂.released hcfg hb₂ hans₂.removes hrecord fun e he hid => ?_
      rw [lapsed_after_check hcfg hb₁ hans₁ h₁ hrecord hok e he hid]
      exact decide_eq_true hclock
    · refine h₂.release hcfg hb₂ hans₂.removes fun htenant e he hid => ?_
      subst htenant
      rw [lapsed_after_check hcfg hb₁ hans₁ h₁ hrecord hok e he hid]
      exact decide_eq_false fun hclock => hcond ⟨rfl, hokIff.mp hok, hclock⟩

theorem gone_turn (hcfg : customHostnamesConfigured p.env = true) (hb : Booked p.env w)
    (hans : Answered c call w) (h : Gone c w) : Gone c (turnWorld p call w tenantId) := by
  have hb₁ : Booked p.env (sweptInvitations call w tenantId) :=
    booked_change (sweptInvitations_change (checkAll call tenantId) tenantId) hb
  have h₁ : Gone c (sweptInvitations call w tenantId) := ⟨h.rows, h.zone⟩
  have hans₁ : Answered c call (sweptInvitations call w tenantId) :=
    ⟨hans.checks, hans.removes, hans.quiet⟩
  have hspares : Spares c (checkAll call tenantId) := hans.quiet
  have h₂ := h₁.step (p := p) hspares
  rcases @turnWorld_eq p w call hcfg tenantId with ⟨-, hturn⟩ | ⟨-, hturn⟩
  · rw [hturn]
    exact h₂
  · rw [hturn]
    exact h₂.release hcfg (booked_step _ hb₁) (hans₁.check hb₁).removes

/-- A turn keeps what the next one relies on. -/
theorem turn_keeps (hcfg : customHostnamesConfigured p.env = true) (hb : Booked p.env w)
    (hans : Answered c call w) : Booked p.env (turnWorld p call w tenantId) ∧
      Answered c call (turnWorld p call w tenantId) := by
  have hb₁ : Booked p.env (sweptInvitations call w tenantId) :=
    booked_change (sweptInvitations_change (checkAll call tenantId) tenantId) hb
  have hans₁ : Answered c call (sweptInvitations call w tenantId) :=
    ⟨hans.checks, hans.removes, hans.quiet⟩
  have hb₂ := booked_step (checkAll call tenantId) hb₁
  have hans₂ : Answered c call (step p _ (checkAll call tenantId)) := hans₁.check hb₁
  rcases @turnWorld_eq p w call hcfg tenantId with ⟨-, hturn⟩ | ⟨-, hturn⟩
  · rw [hturn]
    exact ⟨hb₂, hans₂⟩
  · rw [hturn]
    exact ⟨booked_step _ hb₂, hans₂.release hcfg hb₂⟩

end Turn

/-! ### One sweep -/

section Sweep

variable {call : SweepCall}

/-- What a turn relies on. -/
structure Ready (p : Platform) (c : Claim) (call : SweepCall) (w : World) : Prop where
  booked : Booked p.env w
  answered : Answered c call w

theorem ready_turns (hcfg : customHostnamesConfigured p.env = true) (h : Ready p c call w)
    (ids : List Uuid) : Ready p c call (run (turnWorld p call) w ids) := by
  refine Machine.run_invariant (fun w tenantId h => ?_) h ids
  obtain ⟨hb, hans⟩ := @turn_keeps p c w call tenantId hcfg h.booked h.answered
  exact ⟨hb, hans⟩

theorem gone_turns (hcfg : customHostnamesConfigured p.env = true) (h : Ready p c call w)
    (hgone : Gone c w) (ids : List Uuid) : Gone c (run (turnWorld p call) w ids) := by
  have hboth : Ready p c call (run (turnWorld p call) w ids) ∧
      Gone c (run (turnWorld p call) w ids) := by
    refine Machine.run_invariant (I := fun w => Ready p c call w ∧ Gone c w) ?_ ⟨h, hgone⟩ ids
    rintro w tenantId ⟨h, hgone⟩
    exact ⟨ready_turns hcfg h [tenantId], gone_turn hcfg h.booked h.answered hgone⟩
  exact hboth.2

/-- The turns of other tenants leave the claim alone. -/
theorem holding_turns (hcfg : customHostnamesConfigured p.env = true) (h : Ready p c call w)
    (hholding : Holding c w) (hrecord : c.record ≠ "") {ids : List Uuid}
    (hids : ∀ id ∈ ids, id ≠ c.tenantId) : Holding c (run (turnWorld p call) w ids) := by
  have hpres : Machine.Preserves (turnWorld p call) (fun _ id => id ≠ c.tenantId)
      fun w => Ready p c call w ∧ Holding c w := by
    rintro w tenantId hne ⟨h, hholding⟩
    refine ⟨ready_turns hcfg h [tenantId], ?_⟩
    exact (holding_turn hcfg h.booked h.answered hholding hrecord).2 fun hcond => hne hcond.1
  exact (hpres.run ⟨h, hholding⟩ (Machine.meets_of_forall_mem _ w hids)).2

/-- The world when the sweep comes to the tenant of the claim. -/
def worldAtTurn (p : Platform) (c : Claim) (call : SweepCall) (w : World) : World :=
  run (turnWorld p call) w ((listActiveTenantIds w.db).takeWhile fun id => id ≠ c.tenantId)

/-- The tenant of a claim has a turn. -/
theorem tenant_listed (hb : Booked p.env w) (h : Holding c w) :
    c.tenantId ∈ listActiveTenantIds w.db := by
  obtain ⟨d, hd, hid⟩ := h.rows.there
  obtain ⟨t, ht, htid⟩ := hb.registered.rows_tenant d hd
  rw [(h.rows.row d hd hid).1] at htid
  refine List.mem_map.mpr ⟨t, ?_, htid⟩
  rw [Table.mem_orderBy, List.mem_filter]
  exact ⟨ht, decide_eq_true (hb.tenantsActive t ht)⟩

theorem nodup_listActiveTenantIds (hb : Booked p.env w) : (listActiveTenantIds w.db).Nodup := by
  rw [listActiveTenantIds, ((Table.perm_orderBy _ _).map _).nodup_iff]
  exact hb.registered.tenants_pkey.sublist (List.filter_sublist.map _)

/-- **One sweep.** A claim is gone after it or untouched by it, and gone exactly when it outwaits
the deadline. -/
theorem sweep_holding (hcfg : customHostnamesConfigured p.env = true) (h : Ready p c call w)
    (hholding : Holding c w) (hrecord : c.record ≠ "") (hauth : authorised p call = true) :
    (Outwaits c call (worldAtTurn p c call w) → Gone c (sweep p w call).2) ∧
      (¬ Outwaits c call (worldAtTurn p c call w) → Holding c (sweep p w call).2) := by
  obtain ⟨before, after, hsplit, hbefore⟩ :=
    List.eq_append_cons_of_mem (tenant_listed h.booked hholding)
  have hafter : c.tenantId ∉ after := by
    have hnd := nodup_listActiveTenantIds h.booked
    rw [hsplit] at hnd
    exact (List.nodup_cons.mp (List.nodup_append'.mp hnd).2.1).1
  have hworld : worldAtTurn p c call w = run (turnWorld p call) w before := by
    rw [worldAtTurn, hsplit, List.takeWhile_append_of_pos, List.takeWhile_cons_of_neg (by simp),
      List.append_nil]
    exact fun id hid => decide_eq_true fun heq => hbefore (heq ▸ hid)
  have hready := ready_turns hcfg h before
  have hat : Holding c (run (turnWorld p call) w before) :=
    holding_turns hcfg h hholding hrecord fun id hid heq => hbefore (heq ▸ hid)
  rw [sweep_eq_run hauth, hworld, hsplit, Machine.run_append, Machine.run_cons]
  obtain ⟨hends, hstays⟩ :=
    @holding_turn p c _ call c.tenantId hcfg hready.booked hready.answered hat hrecord
  have hnext := ready_turns hcfg hready [c.tenantId]
  refine ⟨fun hout => ?_, fun hout => ?_⟩
  · exact gone_turns hcfg hnext (hends ⟨rfl, hout⟩) after
  · exact holding_turns hcfg hnext (hstays fun hcond => hout hcond.2) hrecord
      fun id hid heq => hafter (heq ▸ hid)

end Sweep

/-! ### Runs -/

/-- What may happen after a claim was made: nothing deletes its row but sweeps, nothing uses its
ids, and Cloudflare is well and does not report the hostname as active. -/
def Assumed (c : Claim) (w : World) : SweepAction → Prop
  | .domain a => Spares c a
  | .sweep call => Answered c call w

/-- The sweep starts when the claim is as old as a claim may get. -/
def Late (p : Platform) (c : Claim) (call : SweepCall) : Prop :=
  authorised p call = true ∧ c.attachedAt + CLAIM_TTL_MS ≤ call.startedAt

/-- A late sweep leaves nothing of the claim. -/
def LateSweepReleases (p : Platform) (c : Claim) (w : World) : SweepAction → Prop
  | .domain _ => True
  | .sweep call => Late p c call → Gone c (sweep p w call).2

/-- A late sweep finds nothing of the claim, or outwaits its deadline. -/
def LateSweepOutwaits (p : Platform) (c : Claim) (w : World) : SweepAction → Prop
  | .domain _ => True
  | .sweep call => Late p c call → Gone c w ∨ Outwaits c call (worldAtTurn p c call w)

/-- The two states of a claim in a run. -/
structure Tracked (p : Platform) (c : Claim) (w : World) : Prop where
  booked : Booked p.env w
  claim : Holding c w ∨ Gone c w

theorem tracked_step (hcfg : customHostnamesConfigured p.env = true) (hrecord : c.record ≠ "")
    {a : SweepAction} (h : Tracked p c w) (ha : Assumed c w a) :
    Tracked p c (sweepStep p w a) := by
  cases a with
  | domain a => exact ⟨booked_step a h.booked, h.claim.imp (·.step ha) (·.step ha)⟩
  | sweep call =>
    cases hauth : authorised p call with
    | false =>
      rw [sweepStep, sweep_unauthorised hauth]
      exact h
    | true =>
      have hready : Ready p c call w := ⟨h.booked, ha⟩
      refine ⟨?_, ?_⟩
      · rw [sweepStep, sweep_eq_run hauth]
        exact (ready_turns hcfg hready _).booked
      · rcases h.claim with hholding | hgone
        · obtain ⟨hends, hstays⟩ := sweep_holding hcfg hready hholding hrecord hauth
          by_cases hout : Outwaits c call (worldAtTurn p c call w)
          · exact Or.inr (hends hout)
          · exact Or.inl (hstays hout)
        · rw [sweepStep, sweep_eq_run hauth]
          exact Or.inr (gone_turns hcfg hready hgone _)

theorem Holding.not_gone (h : Holding c w) : ¬ Gone c w := fun hgone => hgone.zone h.zone

theorem lateSweep_iff (hcfg : customHostnamesConfigured p.env = true) (hrecord : c.record ≠ "")
    {a : SweepAction} (h : Tracked p c w) (ha : Assumed c w a) :
    LateSweepReleases p c w a ↔ LateSweepOutwaits p c w a := by
  cases a with
  | domain a => exact Iff.rfl
  | sweep call =>
    refine forall_congr' fun hlate => ?_
    have hready : Ready p c call w := ⟨h.booked, ha⟩
    rcases h.claim with hholding | hgone
    · obtain ⟨hends, hstays⟩ := sweep_holding hcfg hready hholding hrecord hlate.1
      rw [or_iff_right hholding.not_gone]
      refine ⟨fun hgone => ?_, hends⟩
      by_contra hout
      exact (hstays hout).not_gone hgone
    · refine iff_of_true ?_ (Or.inl hgone)
      rw [sweep_eq_run hlate.1]
      exact gone_turns hcfg hready hgone _

/-- Attaching a hostname that is not active yet begins a claim. -/
theorem tracked_attach {call : AttachCall} {domain : DomainRecord}
    (hb : Booked p.env w) (hattach : attachDomain p.env p.client w call = (.ok (.ok domain), w'))
    (hanswer : ¬ ReportsActive call.answer)
    (hfresh : ∀ d ∈ w.db.tenantDomains, d.cfHostnameId ≠ some (recordId call.answer)) :
    customHostnamesConfigured p.env = true ∧ Tracked p call.claim w' := by
  have hb' : Booked p.env w' := by
    have hchange := attachDomain_change (p := p) (w := w) call
    rw [hattach] at hchange
    exact booked_change hchange hb
  rcases @attachDomain_cases p.env p.client w call with
    ⟨message, hr⟩ | ⟨hostname, created, hcfg, -, hcreate, ⟨e, -, hr⟩ | ⟨db, r, hins, hr⟩⟩
  · rw [hattach] at hr
    cases hr
  · rw [hattach] at hr
    cases hr
  · rw [hattach] at hr
    obtain ⟨hrecordId, hactive⟩ := create_ok hcreate
    have hins := insertClaim_ok hins
    cases hr
    refine ⟨hcfg, hb', Or.inl ⟨⟨?_, fun d hd hid => ?_, fun d hd hrec => ?_⟩, ?_⟩⟩
    · exact ⟨claimRow call hostname created, by rw [hins.rows]; simp, rfl⟩
    · rw [hins.rows] at hd
      rcases List.mem_append.mp hd with hd | hd
      · exact absurd hid (hins.fresh d hd)
      · rw [List.mem_singleton.mp hd]
        exact ⟨rfl, congrArg some hrecordId, fun h => hanswer (hactive.mp h)⟩
    · rw [hins.rows] at hd
      rcases List.mem_append.mp hd with hd | hd
      · exact absurd hrec (hfresh d hd)
      · rw [List.mem_singleton.mp hd]
        rfl
    · rw [show call.claim.record = created.id from hrecordId.symm]
      exact List.mem_cons_self ..

instance (c : Claim) : DecidablePred (Spares c)
  | .provision _ => inferInstanceAs (Decidable (_ ≠ _))
  | .attach _ => inferInstanceAs (Decidable (_ ∧ _))
  | .refresh _ _ _ _ => inferInstanceAs (Decidable (_ → ¬ ReportsActive _))
  | .refreshAll _ _ _ => inferInstanceAs (Decidable (¬ ReportsActive _))
  | .setPrimary _ _ => isTrue trivial
  | .remove _ _ _ => isFalse id
  | .releaseLapsed _ _ _ => isFalse id
  | .dropRecord _ => isFalse id

instance (c : Claim) (call : SweepCall) (w : World) : Decidable (Answered c call w) :=
  decidable_of_iff ((∀ d ∈ w.db.tenantDomains, Accepted (call.checkAnswers d.id)) ∧
      (∀ d ∈ w.db.tenantDomains, Accepted (call.removeAnswers d.id)) ∧
      ¬ ReportsActive (call.checkAnswers c.rowId))
    ⟨fun h => ⟨h.1, h.2.1, h.2.2⟩, fun h => ⟨h.checks, h.removes, h.quiet⟩⟩

instance (c : Claim) (w : World) : ∀ a, Decidable (Assumed c w a)
  | .domain a => inferInstanceAs (Decidable (Spares c a))
  | .sweep call => inferInstanceAs (Decidable (Answered c call w))

instance (p : Platform) (c : Claim) (call : SweepCall) : Decidable (Late p c call) :=
  inferInstanceAs (Decidable (_ ∧ _))

instance (p : Platform) (c : Claim) (w : World) : ∀ a, Decidable (LateSweepOutwaits p c w a)
  | .domain _ => isTrue trivial
  | .sweep call => inferInstanceAs (Decidable (Late p c call → Gone c w ∨
      Outwaits c call (worldAtTurn p c call w)))

/-- **When a claim is released.** A tenant attaches a hostname that Cloudflare never reports as
active. In every run after that, every late sweep leaves neither the row nor the record exactly when
every late sweep that still finds the claim takes `CLAIM_TTL_MS` from checking its row to
releasing. -/
theorem lateSweepsRelease_iff (p : Platform) (users : List UserRow) (before : List SweepAction)
    (call : AttachCall) (domain : DomainRecord) (w : World)
    (hattach : attachDomain p.env p.client (run (sweepStep p) (initial users) before) call
      = (.ok (.ok domain), w))
    (hanswer : ¬ ReportsActive call.answer) (hrecord : recordId call.answer ≠ "")
    (hfresh : ∀ d ∈ (run (sweepStep p) (initial users) before).db.tenantDomains,
      d.cfHostnameId ≠ some (recordId call.answer))
    (after : List SweepAction) (hafter : Meets (sweepStep p) (Assumed call.claim) w after) :
    Meets (sweepStep p) (LateSweepReleases p call.claim) w after ↔
      Meets (sweepStep p) (LateSweepOutwaits p call.claim) w after := by
  have hb : Booked p.env (run (sweepStep p) (initial users) before) :=
    sweepRun_invariant (fun _ _ _ hc h => booked_change hc h)
      ⟨registered_run users [], List.nodup_nil, by simp [initial]⟩ before
  obtain ⟨hcfg, htracked⟩ := tracked_attach hb hattach hanswer hfresh
  exact Meets.iff_of_invariant (I := Tracked p call.claim)
    (fun _ _ h ha _ => tracked_step hcfg hrecord h ha)
    (fun _ _ h ha => lateSweep_iff hcfg hrecord h ha) htracked hafter

/-! ### A squatter -/

/-- A platform with the secret of the sweep. -/
def swept : Platform :=
  { lamplight with
    env := { lamplightEnv with domainSweepSecret := some "fourteen days and a night" } }

/-- An institute is provisioned. -/
def oneTenant : List SweepAction := [.domain (.provision (provisionCall "grace" "Grace" 1 11))]

/-- It attaches a hostname that is never confirmed. -/
def squat : AttachCall where
  tenantId := 1
  rawHostname := "learn.institute.edu"
  answer := answerAbout "cf-1" "learn.institute.edu" "pending" "initializing"
  rowId := 12
  now := 5
  createdAt := 5

/-- The world in which the hostname has just been attached. -/
def squatted : World :=
  (attachDomain swept.env swept.client
    (run (sweepStep swept) (initial [operator]) oneTenant) squat).2

/-- A sweep fifteen days on, in which every answer is a success, and which takes `lasting`. -/
def sweepLasting (lasting : ℤ) : SweepCall where
  offered := some "fourteen days and a night"
  startedAt := 15 * 24 * 60 * 60 * 1000
  invitationClock _ := 15 * 24 * 60 * 60 * 1000
  checkAnswers _ := answerAbout "cf-1" "learn.institute.edu" "pending" "initializing"
  checkClock _ := 15 * 24 * 60 * 60 * 1000
  removeAnswers _ := .ok { status := 200, json := .obj [("success", .bool true)] }
  releaseClock _ := 15 * 24 * 60 * 60 * 1000 + lasting

theorem lateSweepsRelease_iff_squat :
    Meets (sweepStep swept) (LateSweepReleases swept squat.claim) squatted
      [.sweep (sweepLasting CLAIM_TTL_MS)] := by
  have hafter : Meets (sweepStep swept) (Assumed squat.claim) squatted
      [.sweep (sweepLasting CLAIM_TTL_MS)] := by decide
  have hout : Meets (sweepStep swept) (LateSweepOutwaits swept squat.claim) squatted
      [.sweep (sweepLasting CLAIM_TTL_MS)] := by decide
  exact (lateSweepsRelease_iff swept [operator] oneTenant squat _ squatted rfl (by decide)
    (by decide) (by decide) _ hafter).mpr hout

/-- A sweep of a minute renews the claim it should release. -/
theorem claim_outlives_sweep :
    (∃ domain, (attachDomain swept.env swept.client
        (run (sweepStep swept) (initial [operator]) oneTenant) squat).1 = .ok (.ok domain)) ∧
      Meets (sweepStep swept) (Assumed squat.claim) squatted [.sweep (sweepLasting 60000)] ∧
      Late swept squat.claim (sweepLasting 60000) ∧
      ¬ Gone squat.claim (run (sweepStep swept) squatted [.sweep (sweepLasting 60000)]) := by
  refine ⟨⟨_, rfl⟩, ?_⟩
  decide

end LampLight
