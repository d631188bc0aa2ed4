import LampLight.Domains.Lapsing
import LampLight.Domains.Outage
import LampLight.Domains.Primary

/-!
# A live hostname keeps its tenant

Once a hostname is served, other tenants may claim it, sweeps may check and release whatever they
find, and operators may provision more tenants. None of that takes it away. Two operations do, and
both are about the row itself: its tenant removes it, or asks Cloudflare about it and hears
something other than that it is active.

## Main definitions

* `TakesDown` — the operations that end the service of a hostname
* `Standing` — the row is there and active

## Main results

* `standing_step`, `standing_turn` — one operation, one turn of a sweep
* `hostname_stands` — a run serves a hostname throughout exactly when none of its steps takes it
  down
-/

namespace LampLight

open Cloudflare
open Machine (run Meets Preserves)

/-- The operations that end the service of a hostname: its tenant removes it, and Cloudflare is
there to be told; or its tenant has it checked, and the answer is not that it is active. -/
def TakesDown (env : Env) (d : TenantDomainRow) : DomainAction → Prop
  | .remove tenantId domainId answer => tenantId = d.tenantId ∧ domainId = d.id ∧
      (recordOf d.cfHostnameId = none ∨ customHostnamesConfigured env = false ∨
        ¬Unreachable answer)
  | .refresh tenantId domainId answer _ => tenantId = d.tenantId ∧ domainId = d.id ∧
      recordOf d.cfHostnameId ≠ none ∧ customHostnamesConfigured env = true ∧
      ¬(Unreachable answer ∨ Accepted answer ∧ ReportsActive answer)
  | _ => False

/-- The same with sweeps, which take nothing down. -/
def SweepTakesDown (env : Env) (d : TenantDomainRow) : SweepAction → Prop
  | .domain a => TakesDown env d a
  | .sweep _ => False

/-- The row is there under its identity, and active. -/
def Standing (d : TenantDomainRow) (w : World) : Prop :=
  ∃ d' ∈ w.db.tenantDomains, claimKey d' = claimKey d ∧ d'.verificationStatus = .active

variable {p : Platform} {d : TenantDomainRow} {w w' : World}

/-! ### What leaves a row standing -/

theorem Standing.of_rows (h : Standing d w) (hrows : w'.db.tenantDomains = w.db.tenantDomains) :
    Standing d w' := by
  rw [Standing, hrows]
  exact h

theorem Standing.append (h : Standing d w) {new : TenantDomainRow}
    (hrows : w'.db.tenantDomains = w.db.tenantDomains ++ [new]) : Standing d w' := by
  obtain ⟨d', hd', hrest⟩ := h
  exact ⟨d', hrows ▸ List.mem_append_left _ hd', hrest⟩

/-- An update that keeps identities, and this row active. -/
theorem Standing.update (h : Standing d w) {q : TenantDomainRow → Bool}
    {f : TenantDomainRow → TenantDomainRow}
    (hrows : w'.db.tenantDomains = Table.update q f w.db.tenantDomains)
    (hkey : ∀ x, claimKey (f x) = claimKey x)
    (hstatus : ∀ x, q x = true → claimKey x = claimKey d → x.verificationStatus = .active →
      (f x).verificationStatus = .active) : Standing d w' := by
  obtain ⟨d', hd', hd'key, hactive⟩ := h
  rw [Standing, hrows]
  cases hq : q d' with
  | false => exact ⟨d', Table.mem_update.mpr (Or.inl ⟨hd', hq⟩), hd'key, hactive⟩
  | true =>
    refine ⟨f d', Table.mem_update.mpr (Or.inr ⟨d', hd', hq, rfl⟩), (hkey d').trans hd'key, ?_⟩
    exact hstatus d' hq hd'key hactive

theorem claimKey_parts {x : TenantDomainRow} (h : claimKey x = claimKey d) :
    x.id = d.id ∧ x.tenantId = d.tenantId ∧ x.hostname = d.hostname ∧
      x.cfHostnameId = d.cfHostnameId := by
  simpa only [claimKey, Prod.mk.injEq] using h

/-- Another row is written. -/
theorem Standing.update_other (h : Standing d w) {tenantId domainId : Uuid}
    {f : TenantDomainRow → TenantDomainRow} {db : Database}
    (hne : ¬(tenantId = d.tenantId ∧ domainId = d.id))
    (hupd : w.db.updateTenantDomain tenantId domainId f = .ok db) (hdb : w'.db = db)
    (hkey : ∀ x, claimKey (f x) = claimKey x) : Standing d w' := by
  obtain ⟨rfl, -⟩ := Database.updateTenantDomain_ok hupd
  refine h.update (congrArg Database.tenantDomains hdb) hkey fun x hq hx => ?_
  rw [Bool.and_eq_true, decide_eq_true_eq, decide_eq_true_eq] at hq
  obtain ⟨hid, htenant, -⟩ := claimKey_parts hx
  exact absurd ⟨hq.1.symm.trans htenant, hq.2.symm.trans hid⟩ hne

/-- Another row is checked. -/
theorem Standing.refresh_other (h : Standing d w) {tenantId domainId : Uuid}
    (hne : ¬(tenantId = d.tenantId ∧ domainId = d.id)) (answer : TransportResult) (now : Instant) :
    Standing d (refreshDomain p.env p.client w tenantId domainId answer now).2 := by
  rcases @refreshDomain_cases p.env p.client w tenantId domainId answer now with
    ⟨r, hr⟩ | ⟨message, db, r, -, hupd, hr⟩ | ⟨x, -, -, -, latest, db, r, -, hupd, hr⟩
  · rw [hr]
    exact h
  · rw [hr]
    exact h.update_other hne hupd rfl (claimKey_recordFailure message)
  · rw [hr]
    exact h.update_other hne hupd rfl (claimKey_recordAnswer latest now)

/-- Another row is removed. -/
theorem Standing.remove_other (h : Standing d w) {tenantId domainId : Uuid}
    (hne : ¬(tenantId = d.tenantId ∧ domainId = d.id)) (answer : TransportResult) :
    Standing d (removeDomain p.env p.client w tenantId domainId answer).2 := by
  rcases @removeDomain_cases p.env p.client w tenantId domainId answer with
    ⟨-, hr⟩ | ⟨x, -, -, -, ⟨e, -, hr⟩ | ⟨zone, -, ⟨e, -, hr⟩ | ⟨db, hdb, hr⟩⟩⟩
  · rw [hr]
    exact h
  · rw [hr]
    exact h
  · rw [hr]
    exact h.of_rows rfl
  · rw [hr]
    obtain ⟨d', hd', hkey, hactive⟩ := h
    refine ⟨d', ?_, hkey, hactive⟩
    show d' ∈ db.tenantDomains
    rw [(deleteClaim_ok hdb).1]
    refine Table.mem_delete.mpr ⟨hd', ?_⟩
    obtain ⟨hid, htenant, -⟩ := claimKey_parts hkey
    simp only [Bool.and_eq_false_iff, decide_eq_false_iff_not]
    by_contra hboth
    rw [not_or, not_not, not_not] at hboth
    exact hne ⟨hboth.1.symm.trans htenant, hboth.2.symm.trans hid⟩

/-- A domain that is listed as not active is another row. -/
theorem ne_of_listed (hb : Booked p.env w) (h : Standing d w) {tenantId : Uuid}
    {domain : DomainRecord} (hdomain : domain ∈ listDomains w.db tenantId)
    (hstatus : domain.status ≠ .active) : ¬(tenantId = d.tenantId ∧ domain.id = d.id) := by
  rintro ⟨-, hid⟩
  obtain ⟨d', hd', hkey, hactive⟩ := h
  obtain ⟨x, hx, -, rfl⟩ := mem_listDomains.mp hdomain
  have hsame : x = d' :=
    Table.eq_of_key_eq hb.registered.rows_pkey hx hd' (hid.trans (claimKey_parts hkey).1.symm)
  exact hstatus (hsame ▸ hactive)

/-! ### The operations about the row itself -/

/-- Without a record, or without a configuration, checking does nothing. -/
theorem refreshDomain_idle (hpkey : (w.db.tenantDomains.map (·.id)).Nodup)
    (hd : d ∈ w.db.tenantDomains)
    (hidle : recordOf d.cfHostnameId = none ∨ customHostnamesConfigured p.env = false)
    (answer : TransportResult) (now : Instant) :
    (refreshDomain p.env p.client w d.tenantId d.id answer now).2 = w := by
  rw [refreshDomain, findDomain_eq hpkey hd]
  simp only [show (toRecord d).cfHostnameId = d.cfHostnameId from rfl]
  rcases hidle with hrecord | hcfg
  · rw [if_pos hrecord]
  · rw [hcfg, Bool.not_false, if_pos rfl]
    split_ifs <;> rfl

theorem Standing.refresh_self (hb : Booked p.env w) (hd : d ∈ w.db.tenantDomains)
    (hactive : d.verificationStatus = .active) {answer : TransportResult}
    (hspared : recordOf d.cfHostnameId = none ∨ customHostnamesConfigured p.env = false ∨
      Unreachable answer ∨ Accepted answer ∧ ReportsActive answer) (now : Instant) :
    Standing d (refreshDomain p.env p.client w d.tenantId d.id answer now).2 := by
  have h : Standing d w := ⟨d, hd, rfl, hactive⟩
  have hpkey := hb.registered.rows_pkey
  rcases hspared with hrecord | hcfg | hunreachable | ⟨haccepted, hreports⟩
  · rw [refreshDomain_idle hpkey hd (Or.inl hrecord)]
    exact h
  · rw [refreshDomain_idle hpkey hd (Or.inr hcfg)]
    exact h
  · rcases get_cases p.client answer with ⟨haccepted, -⟩ | ⟨-, message, hget⟩ | ⟨hrefused, -⟩
    · exact absurd hunreachable (accepted_ne haccepted).1
    · rw [refreshDomain_unreachable hpkey hd hget]
      exact h
    · exact absurd hunreachable (refused_ne hrefused).1
  · obtain ⟨latest, hget⟩ : ∃ latest, get p.client answer = .ok latest := exists_get haccepted
    rcases @refreshDomain_cases p.env p.client w d.tenantId d.id answer now with
      ⟨r, hr⟩ | ⟨message, db, r, ⟨e, he⟩, -, hr⟩ | ⟨x, -, -, -, latest', db, r, hget', hupd, hr⟩
    · rw [hr]
      exact h
    · rw [hget] at he
      cases he
    · obtain rfl := Except.ok.inj (hget.symm.trans hget')
      obtain ⟨rfl, -⟩ := Database.updateTenantDomain_ok hupd
      rw [hr]
      refine h.update rfl (claimKey_recordAnswer latest now) fun x _ _ _ => ?_
      exact (get_ok hget).2.mpr hreports

/-- A hostname that no active row has serves nobody. -/
theorem lookupTenantByHost_eq_none {db : Database} {host : String}
    (hhost : d.hostname.toList = Js.toLowerCase host.toList)
    (hnone : ∀ x ∈ db.tenantDomains, x.verificationStatus = .active → x.hostname ≠ d.hostname) :
    lookupTenantByHost db host = none := by
  cases h : lookupTenantByHost db host with
  | none => rfl
  | some found =>
    obtain ⟨x, hx, -, -, -, hxhost, hxactive, -⟩ := lookupTenantByHost_eq_some h
    exact absurd (String.toList_inj.mp (hxhost.trans hhost.symm)) (hnone x hx hxactive)

/-- The row is rewritten, and not active afterwards. -/
theorem lookup_withDomain (hb : Booked p.env w) (hd : d ∈ w.db.tenantDomains)
    (hactive : d.verificationStatus = .active) {f : TenantDomainRow → TenantDomainRow}
    (hf : (f d).verificationStatus ≠ .active) {host : String}
    (hhost : d.hostname.toList = Js.toLowerCase host.toList) :
    lookupTenantByHost (w.db.withDomain d f) host = none := by
  refine lookupTenantByHost_eq_none hhost fun x hx hxactive hsame => ?_
  rcases Table.mem_update.mp hx with ⟨hx, hq⟩ | ⟨y, hy, hq, rfl⟩
  · obtain rfl := eq_of_activeHostnames hb.active hx hd hxactive hactive hsame
    simp at hq
  · rw [Bool.and_eq_true, decide_eq_true_eq, decide_eq_true_eq] at hq
    obtain rfl := Table.eq_of_key_eq hb.registered.rows_pkey hy hd hq.2
    exact hf hxactive

theorem lookup_refresh (hb : Booked p.env w) (hd : d ∈ w.db.tenantDomains)
    (hactive : d.verificationStatus = .active) (hrecord : recordOf d.cfHostnameId ≠ none)
    (hcfg : customHostnamesConfigured p.env = true) {answer : TransportResult}
    (hbad : ¬(Unreachable answer ∨ Accepted answer ∧ ReportsActive answer)) (now : Instant)
    {host : String} (hhost : d.hostname.toList = Js.toLowerCase host.toList) :
    lookupTenantByHost (refreshDomain p.env p.client w d.tenantId d.id answer now).2.db host
      = none := by
  have hpkey := hb.registered.rows_pkey
  rcases @get_cases p.client answer with ⟨haccepted, -⟩ | ⟨hunreachable, -⟩ |
    ⟨hrefused, e, hget, hne⟩
  · obtain ⟨latest, hget, hwrite⟩ :=
      @refreshDomain_accepted p.env p.client w hcfg hpkey d hd hrecord answer haccepted now
    have hupdate := updateTenantDomain_active (f := recordAnswer latest now) hpkey hb.active hd
      hactive fun _ => rfl
    rcases hwrite with ⟨e, hfailed, -⟩ | ⟨db', r, hwritten, hresult⟩
    · cases hupdate.symm.trans hfailed
    · obtain rfl := Except.ok.inj (hupdate.symm.trans hwritten)
      rw [hresult]
      refine lookup_withDomain hb hd hactive ?_ hhost
      intro hup
      exact hbad (Or.inr ⟨haccepted, (get_ok hget).2.mp hup⟩)
  · exact absurd (Or.inl hunreachable) hbad
  · rw [refreshDomain_recordError hcfg hpkey hd hrecord hget hne, recordError,
      updateTenantDomain_active (f := recordFailure (explain e)) hpkey hb.active hd hactive
        fun _ => rfl]
    exact lookup_withDomain hb hd hactive (by simp [recordFailure]) hhost

/-- Removing goes through unless Cloudflare cannot be told. -/
theorem removeDomain_self (hb : Booked p.env w) (hd : d ∈ w.db.tenantDomains)
    (answer : TransportResult) :
    ((recordOf d.cfHostnameId = none ∨ customHostnamesConfigured p.env = false ∨
        ¬Unreachable answer) ∧
      (removeDomain p.env p.client w d.tenantId d.id answer).2.db.tenantDomains
        = Table.delete (fun x => x.tenantId = d.tenantId && x.id = d.id) w.db.tenantDomains) ∨
    (¬(recordOf d.cfHostnameId = none ∨ customHostnamesConfigured p.env = false ∨
        ¬Unreachable answer) ∧
      (removeDomain p.env p.client w d.tenantId d.id answer).2 = w) := by
  have hpkey := hb.registered.rows_pkey
  have hrelease : (∃ zone, releaseRecord p.env p.client w.zone d.cfHostnameId answer = .ok zone) ∧
        (recordOf d.cfHostnameId = none ∨ customHostnamesConfigured p.env = false ∨
          ¬Unreachable answer) ∨
      (∃ e, releaseRecord p.env p.client w.zone d.cfHostnameId answer = .error e) ∧
        ¬(recordOf d.cfHostnameId = none ∨ customHostnamesConfigured p.env = false ∨
          ¬Unreachable answer) := by
    cases hcfg : customHostnamesConfigured p.env with
    | false =>
      refine Or.inl ⟨⟨w.zone, ?_⟩, Or.inr (Or.inl rfl)⟩
      rw [releaseRecord, hcfg]
      cases recordOf d.cfHostnameId <;> rfl
    | true =>
      rcases @releaseRecord_cases p.env p.client hcfg w.zone d.cfHostnameId answer with
        ⟨hnone, h⟩ | ⟨id, hid, ⟨haccepted, h⟩ | ⟨hunreachable, e, h⟩ | ⟨hrefused, h⟩⟩
      · exact Or.inl ⟨⟨_, h⟩, Or.inl hnone⟩
      · exact Or.inl ⟨⟨_, h⟩, Or.inr (Or.inr (accepted_ne haccepted).1)⟩
      · refine Or.inr ⟨⟨_, h⟩, ?_⟩
        simp [hid, hunreachable]
      · exact Or.inl ⟨⟨_, h⟩, Or.inr (Or.inr (refused_ne hrefused).1)⟩
  obtain ⟨db, hdelete⟩ := exists_deleteClaim (hb.registered.rows_tenant d hd) d.id d.hostname
  rw [removeDomain, findDomain_eq hpkey hd]
  simp only [show (toRecord d).cfHostnameId = d.cfHostnameId from rfl,
    show (toRecord d).hostname = d.hostname from rfl]
  rcases hrelease with ⟨⟨zone, h⟩, hdone⟩ | ⟨⟨e, h⟩, hnot⟩
  · refine Or.inl ⟨hdone, ?_⟩
    rw [h]
    dsimp only
    rw [hdelete]
    exact (deleteClaim_ok hdelete).1
  · refine Or.inr ⟨hnot, ?_⟩
    rw [h]

/-! ### One operation -/

/-- The row that stands, in place of the one it is compared with. -/
theorem takesDown_congr {env : Env} {d' : TenantDomainRow} (hkey : claimKey d' = claimKey d)
    {a : DomainAction} : TakesDown env d' a ↔ TakesDown env d a := by
  obtain ⟨hid, htenant, -, hcf⟩ := claimKey_parts hkey
  cases a <;> simp only [TakesDown, hid, htenant, hcf]

theorem standing_congr {d' : TenantDomainRow} (hkey : claimKey d' = claimKey d) :
    Standing d' w ↔ Standing d w := by
  rw [Standing, Standing, hkey]

theorem Standing.refreshAll (hb : Booked p.env w) (h : Standing d w) (tenantId : Uuid)
    (answers : Uuid → TransportResult) (clock : Uuid → Instant) :
    Standing d (step p w (.refreshAll tenantId answers clock)) := by
  show Standing d (Machine.discard (refreshAllDomains p.env p.client w tenantId answers clock)).2
  rw [Machine.discard_snd]
  refine Machine.forEach_invariant (I := Standing d) (fun s domain hdomain hs => ?_) h
  rw [refreshTurn]
  split_ifs with hstatus
  · exact hs
  · rw [Machine.discard_snd]
    exact hs.refresh_other (ne_of_listed hb h hdomain hstatus) _ _

theorem Standing.releaseLapsed (hb : Booked p.env w) (h : Standing d w) (tenantId : Uuid)
    (answers : Uuid → TransportResult) (clock : Uuid → Instant) :
    Standing d (step p w (.releaseLapsed tenantId answers clock)) := by
  show Standing d (Machine.discard (releaseLapsedClaims p.env p.client w tenantId answers clock)).2
  rw [Machine.discard_snd]
  refine Machine.forEach_invariant (I := Standing d) (fun s domain hdomain hs => ?_) h
  obtain ⟨hlisted, hlapsed⟩ := List.mem_filter.mp hdomain
  rw [lapsed, Bool.and_eq_true, decide_eq_true_eq] at hlapsed
  exact hs.remove_other (ne_of_listed hb h hlisted hlapsed.1) _

/-- An operation that does not take the row down leaves it standing. -/
theorem standing_step (hb : Booked p.env w) (h : Standing d w) {a : DomainAction}
    (hspared : ¬TakesDown p.env d a) : Standing d (step p w a) := by
  obtain ⟨d', hd', hkey, hactive⟩ := h
  have h : Standing d w := ⟨d', hd', hkey, hactive⟩
  obtain ⟨hid, htenant, -, -⟩ := claimKey_parts hkey
  cases a with
  | provision call =>
    show Standing d (Machine.discard (provisionTenant p.env p.hashToken w call)).2
    rw [Machine.discard_snd, provisionTenant]
    cases hinsert : insertInstitute p.env p.hashToken w.db call with
    | error e => split_ifs <;> exact h
    | ok db =>
      have hnew : Standing d { w with db := db } := h.append (insertInstitute_ok hinsert).1
      split_ifs <;> first | exact h | exact hnew
  | attach call =>
    show Standing d (Machine.discard (attachDomain p.env p.client w call)).2
    rw [Machine.discard_snd]
    rcases @attachDomain_cases p.env p.client w call with
      ⟨message, hr⟩ | ⟨hostname, created, -, -, -, ⟨e, -, hr⟩ | ⟨db, r, hins, hr⟩⟩
    · rw [hr]
      exact h
    · rw [hr]
      exact h.of_rows rfl
    · rw [hr]
      exact h.append (insertClaim_ok hins).rows
  | refresh tenantId domainId answer now =>
    show Standing d (Machine.discard
      (refreshDomain p.env p.client w tenantId domainId answer now)).2
    rw [Machine.discard_snd]
    by_cases hself : tenantId = d.tenantId ∧ domainId = d.id
    · rw [← takesDown_congr hkey] at hspared
      rw [hself.1, hself.2, ← htenant, ← hid]
      refine (standing_congr hkey).mp (Standing.refresh_self hb hd' hactive ?_ now)
      by_contra hnone
      simp only [not_or] at hnone
      refine hspared ⟨hself.1.trans htenant.symm, hself.2.trans hid.symm, hnone.1, ?_, ?_⟩
      · exact Bool.not_eq_false _ ▸ hnone.2.1
      · exact not_or.mpr hnone.2.2
    · exact h.refresh_other hself answer now
  | refreshAll tenantId answers clock => exact h.refreshAll hb tenantId answers clock
  | remove tenantId domainId answer =>
    by_cases hself : tenantId = d.tenantId ∧ domainId = d.id
    · rw [← takesDown_congr hkey] at hspared
      obtain ⟨rfl, rfl⟩ := hself
      show Standing d (removeDomain p.env p.client w d.tenantId d.id answer).2
      rw [← htenant, ← hid]
      rcases removeDomain_self hb hd' answer with ⟨hdone, -⟩ | ⟨-, hsame⟩
      · exact absurd ⟨htenant.symm, hid.symm, hdone⟩ hspared
      · rw [hsame]
        exact h
    · exact h.remove_other hself answer
  | setPrimary tenantId domainId =>
    show Standing d (Machine.discard (setPrimaryDomain w tenantId domainId)).2
    rw [Machine.discard_snd]
    rcases setPrimaryDomain_cases w tenantId domainId with
      ⟨-, hsame⟩ | ⟨-, target, -, -, -, -, hrows⟩
    · rw [hsame]
      exact h
    · have hdemoted : Standing d
          { w with
            db :=
              { w.db with
                tenantDomains :=
                  Table.update (fun x => x.tenantId = tenantId && x.id ≠ domainId)
                    (setIsPrimary false) w.db.tenantDomains } } :=
        h.update rfl (claimKey_setIsPrimary false) fun _ _ _ hup => hup
      exact hdemoted.update hrows (claimKey_setIsPrimary true) fun _ _ _ hup => hup
  | releaseLapsed tenantId answers clock => exact h.releaseLapsed hb tenantId answers clock
  | dropRecord id => exact h.of_rows rfl

/-- An operation that takes the row down leaves its hostname without a tenant. -/
theorem lookup_of_takesDown (hb : Booked p.env w) (h : Standing d w) {a : DomainAction}
    (hdown : TakesDown p.env d a) {host : String}
    (hhost : d.hostname.toList = Js.toLowerCase host.toList) :
    lookupTenantByHost (step p w a).db host = none := by
  obtain ⟨d', hd', hkey, hactive⟩ := h
  obtain ⟨hid, htenant, hname, hcf⟩ := claimKey_parts hkey
  rw [← hname] at hhost
  cases a with
  | refresh tenantId domainId answer now =>
    obtain ⟨rfl, rfl, hrecord, hcfg, hbad⟩ := hdown
    show lookupTenantByHost (Machine.discard
      (refreshDomain p.env p.client w d.tenantId d.id answer now)).2.db host = none
    rw [Machine.discard_snd, ← htenant, ← hid]
    exact lookup_refresh hb hd' hactive (hcf ▸ hrecord) hcfg hbad now hhost
  | remove tenantId domainId answer =>
    obtain ⟨rfl, rfl, hdone⟩ := hdown
    rw [← hcf] at hdone
    show lookupTenantByHost (removeDomain p.env p.client w d.tenantId d.id answer).2.db host = none
    rw [← htenant, ← hid]
    rcases removeDomain_self hb hd' answer with ⟨-, hrows⟩ | ⟨hnot, -⟩
    · refine lookupTenantByHost_eq_none hhost fun x hx hxactive hsame => ?_
      rw [hrows] at hx
      obtain ⟨hx, hother⟩ := Table.mem_delete.mp hx
      obtain rfl := eq_of_activeHostnames hb.active hx hd' hxactive hactive hsame
      simp at hother
    · exact absurd hdone hnot
  | _ => exact hdown.elim

/-! ### A turn of a sweep, and a run -/

theorem booked_swept (hb : Booked p.env w) (call : SweepCall) (tenantId : Uuid) :
    Booked p.env (sweptInvitations call w tenantId) :=
  booked_change (a := checkAll call tenantId) (sweptInvitations_change _ tenantId) hb

theorem standing_turn (hb : Booked p.env w) (h : Standing d w) (call : SweepCall)
    (tenantId : Uuid) : Standing d (turnWorld p call w tenantId) := by
  have hswept : Standing d (sweptInvitations call w tenantId) := h.of_rows rfl
  have hbswept := booked_swept hb call tenantId
  cases hcfg : customHostnamesConfigured p.env with
  | false =>
    rw [turnWorld, sweepTenant, hcfg]
    exact hswept
  | true =>
    have hchecked : Standing d (step p (sweptInvitations call w tenantId)
        (checkAll call tenantId)) := hswept.refreshAll hbswept tenantId _ _
    rcases @turnWorld_eq p w call hcfg tenantId with ⟨-, hturn⟩ | ⟨-, hturn⟩
    · rw [hturn]
      exact hchecked
    · rw [hturn]
      exact hchecked.releaseLapsed (booked_step _ hbswept) tenantId _ _

/-- What a run keeps of the tables, with the tenant a row belongs to. -/
structure Serving (p : Platform) (d : TenantDomainRow) (t : TenantRow) (w : World) : Prop where
  booked : Booked p.env w
  standing : Standing d w
  tenant : t ∈ w.db.tenants

variable {t : TenantRow}

theorem mem_tenants_change {a : DomainAction} (hc : Change p a w w') (ht : t ∈ w.db.tenants) :
    t ∈ w'.db.tenants := by
  cases hc with
  | provisioned call action valid rows tenants =>
    rw [tenants]
    exact List.mem_append_left _ ht
  | attached call action hostname created claim answer inserted recorded =>
    rw [inserted.tenants]
    exact ht
  | idle rows tenants => rwa [tenants]
  | refreshed current answer latest now action found live rows tenants => rwa [tenants]
  | failed tenantId domainId message rows tenants => rwa [tenants]
  | removed tenantId domainId action rows tenants => rwa [tenants]
  | primary target action found active rows tenants => rwa [tenants]

/-- Whom a standing row serves. -/
theorem Serving.lookup (h : Serving p d t w) (htenant : t.id = d.tenantId) {host : String}
    (hhost : d.hostname.toList = Js.toLowerCase host.toList) :
    lookupTenantByHost w.db host = some t.resolved := by
  obtain ⟨d', hd', hkey, hactive⟩ := h.standing
  obtain ⟨-, hd'tenant, hname, -⟩ := claimKey_parts hkey
  rw [← hname] at hhost
  obtain ⟨found, hfound⟩ := lookupTenantByHost_isSome hd' h.tenant (htenant.trans hd'tenant.symm)
    hhost hactive (h.booked.tenantsActive t h.tenant)
  obtain ⟨x, hx, t', ht', htx, hxhost, hxactive, -, rfl⟩ := lookupTenantByHost_eq_some hfound
  -- the index leaves no other row, and ids no other tenant
  have hrow : x = d' := eq_of_activeHostnames h.booked.active hx hd' hxactive hactive
    (String.toList_inj.mp (hxhost.trans hhost.symm))
  have hsame : t' = t := by
    refine Table.eq_of_key_eq h.booked.registered.tenants_pkey ht' h.tenant ?_
    rw [htx, hrow, hd'tenant, htenant]
  rw [hfound, hsame]

theorem Serving.step (h : Serving p d t w) {a : SweepAction}
    (hspared : ¬SweepTakesDown p.env d a) : Serving p d t (sweepStep p w a) := by
  refine ⟨?_, ?_, ?_⟩
  · exact sweepRun_invariant (p := p) (I := Booked p.env) (fun _ _ _ hc hb => booked_change hc hb)
      h.booked [a]
  · cases a with
    | domain a => exact standing_step h.booked h.standing hspared
    | sweep call =>
      cases hauth : authorised p call with
      | false =>
        rw [sweepStep, sweep_unauthorised hauth]
        exact h.standing
      | true =>
        rw [sweepStep, sweep_eq_run hauth]
        refine (Machine.run_invariant (I := fun v => Booked p.env v ∧ Standing d v)
          (fun v id hv => ⟨?_, standing_turn hv.1 hv.2 call id⟩) ⟨h.booked, h.standing⟩ _).2
        exact turnWorld_invariant (fun _ _ _ hc hb => booked_change hc hb) id hv.1
  · exact sweepRun_invariant (p := p) (I := fun v => t ∈ v.db.tenants)
      (fun _ _ _ hc ht => mem_tenants_change hc ht) h.tenant [a]

theorem booked_initial (users : List UserRow) : Booked p.env (initial users) where
  registered := registered_run users []
  active := List.nodup_nil
  tenantsActive t ht := by cases ht

/-- **A live hostname keeps its tenant.** Take any run, and an active row of the state it reaches.
The hostname serves the tenant of that row, and goes on to serve it in every state of any
continuation, whatever other tenants attach, whatever sweeps check and release and whatever is
provisioned, if and only if the continuation has no step that takes it down. -/
theorem hostname_stands (p : Platform) (users : List UserRow) (before after : List SweepAction)
    {d : TenantDomainRow} (hd : d ∈ (run (sweepStep p) (initial users) before).db.tenantDomains)
    (hactive : d.verificationStatus = .active) {host : String}
    (hhost : d.hostname.toList = Js.toLowerCase host.toList) :
    let w := run (sweepStep p) (initial users) before
    ∃ t ∈ w.db.tenants, t.id = d.tenantId ∧
      ((∀ mid, mid <+: after →
          lookupTenantByHost (run (sweepStep p) w mid).db host = some t.resolved) ↔
        Meets (sweepStep p) (fun _ a => ¬SweepTakesDown p.env d a) w after) := by
  intro w
  have hbooked : Booked p.env w :=
    sweepRun_invariant (p := p) (I := Booked p.env) (fun _ _ _ hc hb => booked_change hc hb)
      (booked_initial users) before
  obtain ⟨t, ht, htenant⟩ := hbooked.registered.rows_tenant d hd
  have hserving : Serving p d t w := ⟨hbooked, ⟨d, hd, rfl, hactive⟩, ht⟩
  refine ⟨t, ht, htenant, ?_⟩
  have hstates : (lookupTenantByHost w.db host = some t.resolved ∧ Meets (sweepStep p)
        (fun v a => lookupTenantByHost (sweepStep p v a).db host = some t.resolved) w after) ↔
      ∀ mid, mid <+: after →
        lookupTenantByHost (run (sweepStep p) w mid).db host = some t.resolved :=
    Machine.meets_step_iff (D := fun v : World => lookupTenantByHost v.db host = some t.resolved)
  have hsteps : Meets (sweepStep p)
        (fun v a => lookupTenantByHost (sweepStep p v a).db host = some t.resolved) w after ↔
      Meets (sweepStep p) (fun _ a => ¬SweepTakesDown p.env d a) w after := by
    refine Meets.iff_of_invariant (I := Serving p d t)
      (fun v a hv (_ : True) hspared => hv.step hspared)
      (fun v a hv _ => ⟨fun hup hdown => ?_, fun hspared => (hv.step hspared).lookup htenant hhost⟩)
      hserving (Machine.meets_true _ _ _)
    cases a with
    | domain a =>
      rw [sweepStep, lookup_of_takesDown hv.booked hv.standing hdown hhost] at hup
      cases hup
    | sweep call => exact hdown
  rw [← hstates, hsteps]
  exact and_iff_right (hserving.lookup htenant hhost)

/-- Another tenant claims the hostname and has it checked, and then the first one gives it up. -/
def rivalRun : List SweepAction :=
  [.domain (.provision (provisionCall "hope" "Hope" 2 21)),
    .domain (.attach ⟨2, "learn.institute.edu",
      answerAbout "cf-2" "learn.institute.edu" "pending" "initializing", 22, 20, 20⟩),
    .domain (.refresh 2 22 (answerAbout "cf-2" "learn.institute.edu" "active" "active") 30),
    .domain (.remove 1 12 (answerAbout "cf-1" "learn.institute.edu" "active" "active"))]

theorem hostname_stands_rival :
    let w := run (sweepStep lamplight) (initial [operator]) (learnRun.map .domain)
    let d := w.db.tenantDomains.get ⟨1, by decide⟩
    ∃ t ∈ w.db.tenants, t.id = d.tenantId ∧
      ((∀ mid, mid <+: rivalRun → lookupTenantByHost (run (sweepStep lamplight) w mid).db
          "learn.institute.edu" = some t.resolved) ↔
        Meets (sweepStep lamplight) (fun _ a => ¬SweepTakesDown lamplight.env d a) w rivalRun) :=
  hostname_stands lamplight [operator] (learnRun.map .domain) rivalRun (List.get_mem _ _)
    (by decide) (by decide)

end LampLight
