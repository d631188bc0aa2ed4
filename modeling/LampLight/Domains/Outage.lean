import LampLight.Domains.Lifecycle
import Mathlib.Data.List.Find

/-!
# An outage at Cloudflare

Checking an active domain asks Cloudflare about it. A read that never arrives, or that Cloudflare
fails on its own side, leaves the row alone. Every other failure is written into the row, among them
a rejected token and a rate limit, which say nothing about the hostname, and so is an accepted
answer that leaves out a status.

## Main definitions

* `SaysDown` — Cloudflare answered that the hostname or its certificate is not active, or not there
* `Unclear` — it answered, and said neither that nor that both are active
* `StaysUp` — the row stays active and its hostname serves whom it served before

## Main results

* `refreshDomain_staysUp` — which reads leave an active domain up
* `refreshDomain_outage_iff` — a domain only goes down on Cloudflare's word, except after an unclear
  answer
-/

namespace LampLight

open Cloudflare
open Js (Json)

variable {env : Env} {client : Client} {w : World} {d : TenantDomainRow} {answer : TransportResult}
  {now : Instant}

/-! ### What an answer says -/

/-- One of the two states is given, and it is not active. -/
def StatesInactive (raw : Json) : Prop :=
  (∃ status, stringAt raw "status" = some status ∧ status ≠ "active") ∨
    ∃ status, ((raw.get? "ssl").bind fun ssl => stringAt ssl "status") = some status ∧
      status ≠ "active"

/-- There is no such record. -/
def NotFound (answer : TransportResult) : Prop :=
  Refused answer ∧ ∃ response, answer = .ok response ∧ response.status = 404

/-- Cloudflare does not know the hostname, or says that it is not active. -/
def SaysDown (answer : TransportResult) : Prop :=
  NotFound answer ∨ Accepted answer ∧ StatesInactive (rawResult answer)

/-- A refusal that is not about the record, or a record without one of its states. -/
def Unclear (answer : TransportResult) : Prop :=
  (Refused answer ∧ ¬ NotFound answer) ∨
    (Accepted answer ∧ ¬ ReportsActive answer ∧ ¬ StatesInactive (rawResult answer))

/-- Every answer is unreachable, says that both states are active, says otherwise, or is unclear. -/
theorem unclear_cases (answer : TransportResult) :
    (Unreachable answer ∨ Accepted answer ∧ ReportsActive answer) ∨ SaysDown answer ∨
      Unclear answer := by
  rcases call_cases ⟨"", fun _ => ""⟩ answer with ⟨haccepted, -⟩ | ⟨hunreachable, -⟩ | ⟨hrefused, -⟩
  · by_cases hactive : ReportsActive answer
    · exact Or.inl (Or.inr ⟨haccepted, hactive⟩)
    · by_cases hdown : StatesInactive (rawResult answer)
      · exact Or.inr (Or.inl (Or.inr ⟨haccepted, hdown⟩))
      · exact Or.inr (Or.inr (Or.inr ⟨haccepted, hactive, hdown⟩))
  · exact Or.inl (Or.inl hunreachable)
  · by_cases hfound : NotFound answer
    · exact Or.inr (Or.inl (Or.inl hfound))
    · exact Or.inr (Or.inr (Or.inl ⟨hrefused, hfound⟩))

/-- An unclear answer is none of the others. -/
theorem Unclear.ne (h : Unclear answer) :
    ¬ (Unreachable answer ∨ Accepted answer ∧ ReportsActive answer) ∧ ¬ SaysDown answer := by
  rcases h with ⟨hrefused, hfound⟩ | ⟨haccepted, hactive, hdown⟩
  · obtain ⟨hunreachable, haccepted⟩ := refused_ne hrefused
    refine ⟨?_, ?_⟩
    · rintro (h | ⟨h, -⟩)
      · exact hunreachable h
      · exact haccepted h
    · rintro (h | ⟨h, -⟩)
      · exact hfound h
      · exact haccepted h
  · obtain ⟨hunreachable, hrefused⟩ := accepted_ne haccepted
    refine ⟨?_, ?_⟩
    · rintro (h | ⟨-, h⟩)
      · exact hunreachable h
      · exact hactive h
    · rintro (⟨h, -⟩ | ⟨-, h⟩)
      · exact hrefused h
      · exact hdown h

/-! ### What a check leaves up -/

/-- The row is active, and its hostname serves whom it served before. -/
structure StaysUp (w w' : World) (d : TenantDomainRow) : Prop where
  active : ∃ d' ∈ w'.db.tenantDomains, d'.id = d.id ∧ d'.verificationStatus = .active
  serves : lookupTenantByHost w'.db d.hostname = lookupTenantByHost w.db d.hostname

/-- A change of active rows that leaves them active is not seen by visitors. -/
theorem lookupTenantByHost_update {db : Database} {p : TenantDomainRow → Bool}
    {f : TenantDomainRow → TenantDomainRow}
    (hf : ∀ d, (f d).tenantId = d.tenantId ∧ (f d).hostname = d.hostname)
    (hstatus : ∀ d ∈ db.tenantDomains, p d = true →
      (f d).verificationStatus = d.verificationStatus) (host : String) :
    lookupTenantByHost { db with tenantDomains := Table.update p f db.tenantDomains } host
      = lookupTenantByHost db host := by
  let g (d : TenantDomainRow) : TenantDomainRow := if p d = true then f d else d
  have hkeep : ∀ d, (g d).tenantId = d.tenantId ∧ (g d).hostname = d.hostname := by
    intro d
    by_cases hp : p d = true
    · simpa [g, hp] using hf d
    · simp [g, hp]
  have hsame : ∀ d ∈ db.tenantDomains, (g d).verificationStatus = d.verificationStatus := by
    intro d hd
    by_cases hp : p d = true
    · simpa [g, hp] using hstatus d hd hp
    · simp [g, hp]
  have hjoin : Table.innerJoin (fun (d : TenantDomainRow) (t : TenantRow) => t.id = d.tenantId)
        (Table.update p f db.tenantDomains) db.tenants
      = (Table.innerJoin (fun (d : TenantDomainRow) (t : TenantRow) => t.id = d.tenantId)
        db.tenantDomains db.tenants).map fun x => (g x.1, x.2) :=
    Table.innerJoin_map_left (f := g) (fun d => by funext t; rw [(hkeep d).1]) _ _
  have hfind : (Table.innerJoin (fun (d : TenantDomainRow) (t : TenantRow) => t.id = d.tenantId)
        db.tenantDomains db.tenants).find? (fun x => (g x.1).hostname.toList
          = Js.toLowerCase host.toList && (g x.1).verificationStatus = .active &&
            x.2.status = .active)
      = (Table.innerJoin (fun (d : TenantDomainRow) (t : TenantRow) => t.id = d.tenantId)
        db.tenantDomains db.tenants).find? fun x => x.1.hostname.toList
          = Js.toLowerCase host.toList && x.1.verificationStatus = .active &&
            x.2.status = .active :=
    List.find?_congr fun x hx => by
      rw [(hkeep x.1).2, hsame x.1 (Table.mem_innerJoin.mp hx).1]
  rw [lookupTenantByHost, lookupTenantByHost, hjoin, List.find?_map, Option.map_map]
  exact congrArg (Option.map fun x => x.2.resolved) hfind

/-- The database with one row rewritten. -/
def Database.withDomain (db : Database) (d : TenantDomainRow)
    (f : TenantDomainRow → TenantDomainRow) : Database :=
  { db with tenantDomains :=
      Table.update (fun x => x.tenantId = d.tenantId && x.id = d.id) f db.tenantDomains }

variable {f : TenantDomainRow → TenantDomainRow}

/-- The row that was meant is the only one that is written. -/
theorem mem_withDomain (hpkey : (w.db.tenantDomains.map (·.id)).Nodup) (hd : d ∈ w.db.tenantDomains)
    (hid : ∀ d, (f d).id = d.id) {d' : TenantDomainRow}
    (hd' : d' ∈ (w.db.withDomain d f).tenantDomains) (hsame : d'.id = d.id) : d' = f d := by
  rcases Table.mem_update.mp hd' with ⟨hmem, hp⟩ | ⟨x, hx, hp, rfl⟩
  · obtain rfl := Table.eq_of_key_eq hpkey hmem hd hsame
    simp at hp
  · rw [hid x] at hsame
    rw [Table.eq_of_key_eq hpkey hx hd hsame]

theorem staysUp_refl (hd : d ∈ w.db.tenantDomains) (hactive : d.verificationStatus = .active) :
    StaysUp w w d where
  active := ⟨d, hd, rfl, hactive⟩
  serves := rfl

/-- A domain is up after its row is rewritten if and only if the row is active then. -/
theorem staysUp_withDomain (hpkey : (w.db.tenantDomains.map (·.id)).Nodup)
    (hd : d ∈ w.db.tenantDomains) (hactive : d.verificationStatus = .active)
    (hf : ∀ d, (f d).id = d.id ∧ (f d).tenantId = d.tenantId ∧ (f d).hostname = d.hostname)
    {w' : World} (hw' : w'.db = w.db.withDomain d f) :
    StaysUp w w' d ↔ (f d).verificationStatus = .active := by
  constructor
  · rintro ⟨⟨d', hd', hid, hup⟩, -⟩
    rw [hw'] at hd'
    rwa [mem_withDomain hpkey hd (fun x => (hf x).1) hd' hid] at hup
  · intro hup
    refine ⟨⟨f d, ?_, (hf d).1, hup⟩, ?_⟩
    · rw [hw']
      exact Table.mem_update.mpr (Or.inr ⟨d, hd, by simp, rfl⟩)
    · rw [hw']
      refine lookupTenantByHost_update (fun x => (hf x).2) (fun x hx hp => ?_) _
      rw [Bool.and_eq_true, decide_eq_true_eq, decide_eq_true_eq] at hp
      obtain rfl := Table.eq_of_key_eq hpkey hx hd hp.2
      exact hup.trans hactive.symm

/-- The statement that ends a check of an active row cannot fail. -/
theorem updateTenantDomain_active (hpkey : (w.db.tenantDomains.map (·.id)).Nodup)
    (hunique : (activeHostnames w.db.tenantDomains).Nodup) (hd : d ∈ w.db.tenantDomains)
    (hactive : d.verificationStatus = .active) (hhost : ∀ d, (f d).hostname = d.hostname) :
    w.db.updateTenantDomain d.tenantId d.id f = .ok (w.db.withDomain d f) := by
  obtain ⟨db', hupdate⟩ : ∃ db', w.db.updateTenantDomain d.tenantId d.id f = .ok db' := by
    refine Database.updateTenantDomain_of_nodup
      (nodup_activeHostnames_update hhost hpkey hunique ?_)
    rintro x hx - hid - d' hd' hne hup hsame
    obtain rfl := Table.eq_of_key_eq hpkey hx hd hid
    exact hne (by rw [eq_of_activeHostnames hunique hd' hx hup hactive hsame])
  rw [hupdate, (Database.updateTenantDomain_ok hupdate).1]
  rfl

theorem refreshDomain_unreachable (hpkey : (w.db.tenantDomains.map (·.id)).Nodup)
    (hd : d ∈ w.db.tenantDomains) {message : String}
    (hget : get client answer = .error (.cloudflare .unavailable message)) :
    (refreshDomain env client w d.tenantId d.id answer now).2 = w := by
  rw [refreshDomain, findDomain_eq hpkey hd]
  dsimp only
  split_ifs
  · rfl
  · rfl
  · rw [hget]

/-- **Which reads leave an active domain up**, when there is a record to read. -/
theorem refreshDomain_staysUp (hcfg : customHostnamesConfigured env = true)
    (hpkey : (w.db.tenantDomains.map (·.id)).Nodup)
    (hunique : (activeHostnames w.db.tenantDomains).Nodup) (hd : d ∈ w.db.tenantDomains)
    (hactive : d.verificationStatus = .active) (hrecord : recordOf d.cfHostnameId ≠ none) :
    StaysUp w (refreshDomain env client w d.tenantId d.id answer now).2 d ↔
      Unreachable answer ∨ Accepted answer ∧ ReportsActive answer := by
  rcases @get_cases client answer with ⟨haccepted, -⟩ | ⟨hunreachable, message, hget⟩ |
    ⟨hrefused, e, hget, hne⟩
  · obtain ⟨latest, hget, hwrite⟩ :=
      @refreshDomain_accepted env client w hcfg hpkey d hd hrecord answer haccepted now
    have hupdate := updateTenantDomain_active
      (f := recordAnswer latest now) hpkey hunique hd hactive
      fun _ => rfl
    rcases hwrite with ⟨e, hfailed, -⟩ | ⟨db', r, hwritten, hresult⟩
    · cases hupdate.symm.trans hfailed
    · obtain rfl := Except.ok.inj (hupdate.symm.trans hwritten)
      rw [hresult, staysUp_withDomain (f := recordAnswer latest now) hpkey hd hactive
        (fun _ => ⟨rfl, rfl, rfl⟩) rfl]
      show latest.status = .active ↔ _
      rw [(get_ok hget).2]
      constructor
      · exact fun hreports => Or.inr ⟨haccepted, hreports⟩
      · rintro (hunreachable | ⟨-, hreports⟩)
        · exact absurd hunreachable (accepted_ne haccepted).1
        · exact hreports
  · rw [refreshDomain_unreachable hpkey hd hget]
    exact iff_of_true (staysUp_refl hd hactive) (Or.inl hunreachable)
  · rw [refreshDomain_recordError hcfg hpkey hd hrecord hget hne, recordError,
      updateTenantDomain_active (f := recordFailure (explain e)) hpkey hunique hd hactive
        fun _ => rfl]
    refine iff_of_false ?_ ?_
    · rw [staysUp_withDomain (f := recordFailure (explain e)) hpkey hd hactive
        (fun _ => ⟨rfl, rfl, rfl⟩) rfl]
      simp [recordFailure]
    · rintro (hunreachable | ⟨haccepted, -⟩)
      · exact (refused_ne hrefused).1 hunreachable
      · exact (refused_ne hrefused).2 haccepted

/-- **An active domain only goes down on Cloudflare's word, except after an unclear answer about a
record it has.** -/
theorem refreshDomain_outage_iff (env : Env) (client : Client) (w : World)
    (hpkey : (w.db.tenantDomains.map (·.id)).Nodup)
    (hunique : (activeHostnames w.db.tenantDomains).Nodup) {d : TenantDomainRow}
    (hd : d ∈ w.db.tenantDomains) (hactive : d.verificationStatus = .active)
    (answer : TransportResult) (now : Instant) :
    (¬ SaysDown answer →
        StaysUp w (refreshDomain env client w d.tenantId d.id answer now).2 d) ↔
      recordOf d.cfHostnameId = none ∨ customHostnamesConfigured env = false ∨
        ¬ Unclear answer := by
  have hidle : recordOf d.cfHostnameId = none ∨ customHostnamesConfigured env = false →
      (refreshDomain env client w d.tenantId d.id answer now).2 = w := by
    intro h
    rw [refreshDomain, findDomain_eq hpkey hd]
    simp only [show (toRecord d).cfHostnameId = d.cfHostnameId from rfl]
    rcases h with h | h
    · rw [if_pos h]
    · split_ifs
      · rfl
      · rfl
      · simp_all
  by_cases hread : recordOf d.cfHostnameId = none ∨ customHostnamesConfigured env = false
  · rw [hidle hread]
    exact iff_of_true (fun _ => staysUp_refl hd hactive) (by tauto)
  · rw [not_or, Bool.not_eq_false] at hread
    rw [refreshDomain_staysUp hread.2 hpkey hunique hd hactive hread.1]
    constructor
    · intro h
      refine Or.inr (Or.inr fun hunclear => ?_)
      exact hunclear.ne.1 (h hunclear.ne.2)
    · rintro (hnone | hconfigured | hclear) hdown
      · exact absurd hnone hread.1
      · exact absurd (hconfigured.symm.trans hread.2) Bool.false_ne_true
      · rcases unclear_cases answer with h | h | h
        · exact h
        · exact absurd h hdown
        · exact absurd h hclear

/-- A tenant whose own domain is live. -/
def liveDomain : TenantDomainRow where
  id := 12
  tenantId := 1
  hostname := "learn.grace.edu"
  isPrimary := true
  verificationStatus := .active
  cfHostnameId := some "cf-1"
  dnsRecords := []
  claimExpiresAt := none
  lastError := none
  verifiedAt := some 10
  createdAt := 5

/-- An institute with an active domain of its own. -/
def liveWorld : World where
  db :=
    { tenants := [⟨1, "grace", "Grace", .active, 0⟩]
      tenantDomains := [liveDomain] }
  zone := ["cf-1"]

/-- A timeout, which is not unclear. -/
theorem refreshDomain_outage_iff_timeout :
    (¬ SaysDown (.error "TimeoutError") →
        StaysUp liveWorld (refreshDomain lamplightEnv lamplight.client liveWorld 1 12
          (.error "TimeoutError") 20).2 liveDomain) ↔
      recordOf liveDomain.cfHostnameId = none ∨ customHostnamesConfigured lamplightEnv = false ∨
        ¬ Unclear (.error "TimeoutError") :=
  refreshDomain_outage_iff lamplightEnv lamplight.client liveWorld (by decide) (by decide)
    (List.mem_singleton_self _) rfl (.error "TimeoutError") 20

/-- The API token is rejected, and the site is gone. -/
theorem outage_takes_site_down :
    let w := (refreshDomain lamplightEnv lamplight.client liveWorld 1 12 (refusal 401) 20).2
    lookupTenantByHost liveWorld.db "learn.grace.edu" = some ⟨1, "grace", "Grace"⟩ ∧
      lookupTenantByHost w.db "learn.grace.edu" = none ∧
      ¬ (¬ SaysDown (refusal 401) → StaysUp liveWorld w liveDomain) := by
  have hup : lookupTenantByHost liveWorld.db "learn.grace.edu" = some ⟨1, "grace", "Grace"⟩ := by
    decide
  have hdown : lookupTenantByHost (refreshDomain lamplightEnv lamplight.client liveWorld 1 12
      (refusal 401) 20).2.db "learn.grace.edu" = none := by decide
  refine ⟨hup, hdown, fun hclaim => ?_⟩
  have hsilent : ¬ SaysDown (refusal 401) := by
    rintro (⟨-, response, hresponse, hstatus⟩ | ⟨haccepted, -⟩)
    · obtain rfl := Except.ok.inj hresponse
      exact absurd hstatus (by decide)
    · exact absurd haccepted (by decide)
  have hserves := (hclaim hsilent).serves
  rw [show liveDomain.hostname = "learn.grace.edu" from rfl, hup, hdown] at hserves
  cases hserves

end LampLight
