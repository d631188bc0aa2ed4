import LampLight.Domains.Orphans

/-!
# The deadline of a claim

A claim that is not verified has a deadline, and a verified one has none; the instant of the
verification is stored exactly while the hostname is live. Three columns say this together, and they
are written by two statements that do not set the same ones: a successful check writes all three,
the recording of an error the status only. `Settled` is the agreement of the columns, for the rows
that came about by attaching.

## Main definitions

* `Agrees`, `Settled` — the columns of a row, of all rows
* `AttachedLive`, `FailsLive` — the two ways to break it: a hostname that is reported active already
  when it is attached, and a refused check of a live one

## Main results

* `settled_step` — one step from a settled state ends in one unless it is one of the two
* `settled_iff` — a run stays settled exactly when no step of it is one of the two
-/

namespace LampLight

open Cloudflare
open Machine (run Meets forEach)

/-! ### The columns -/

/-- No deadline exactly while live, and an instant of verification exactly while live. -/
def Agrees (d : TenantDomainRow) : Prop :=
  (d.claimExpiresAt = none ↔ d.verificationStatus = .active) ∧
    (d.verifiedAt.isSome ↔ d.verificationStatus = .active)

instance : DecidablePred Agrees := fun _ => inferInstanceAs (Decidable (_ ∧ _))

/-- The rows that came about by attaching agree. -/
def Settled (rows : List TenantDomainRow) : Prop := ∀ d ∈ rows, d.cfHostnameId ≠ none → Agrees d

instance : DecidablePred Settled := fun rows =>
  inferInstanceAs (Decidable (∀ d ∈ rows, d.cfHostnameId ≠ none → Agrees d))

theorem agrees_recordAnswer (latest : CustomHostname) (now : Instant) (d : TenantDomainRow) :
    Agrees (recordAnswer latest now d) := by
  by_cases h : latest.status = .active <;> simp [Agrees, recordAnswer, h]

theorem agrees_recordFailure_iff {message : String} {d : TenantDomainRow} (h : Agrees d) :
    Agrees (recordFailure message d) ↔ d.verificationStatus ≠ .active := by
  have hdeadline : d.claimExpiresAt = none ↔ d.verificationStatus = .active := h.1
  have hverified : d.verifiedAt.isSome ↔ d.verificationStatus = .active := h.2
  by_cases hactive : d.verificationStatus = .active
  · simp [Agrees, recordFailure, hactive, hdeadline]
  · have hnone : d.verifiedAt = none := by
      rw [← Option.not_isSome_iff_eq_none, hverified]
      exact hactive
    simp [Agrees, recordFailure, hactive, hdeadline, hnone]

theorem agrees_claimRow_iff {call : AttachCall} {hostname : String} {created : CustomHostname} :
    Agrees (claimRow call hostname created) ↔ created.status ≠ .active := by
  simp [Agrees, claimRow]

theorem Settled.update {rows : List TenantDomainRow} {q : TenantDomainRow → Bool}
    {f : TenantDomainRow → TenantDomainRow} (h : Settled rows)
    (hf : ∀ d ∈ rows, q d = true → (f d).cfHostnameId ≠ none → Agrees (f d)) :
    Settled (Table.update q f rows) := by
  intro d hd hrec
  rcases Table.mem_update.mp hd with ⟨hd, -⟩ | ⟨b, hb, hq, rfl⟩
  · exact h d hd hrec
  · exact hf b hb hq hrec

theorem Settled.subset {rows rows' : List TenantDomainRow} (h : Settled rows)
    (hsub : rows' ⊆ rows) : Settled rows' := fun d hd => h d (hsub hd)

theorem settled_append {rows : List TenantDomainRow} {d : TenantDomainRow} :
    Settled (rows ++ [d]) ↔ Settled rows ∧ (d.cfHostnameId ≠ none → Agrees d) := by
  constructor
  · intro h
    exact ⟨h.subset (List.subset_append_left _ _), h d (List.mem_append_right _ (by simp))⟩
  · rintro ⟨h, hd⟩ d' hd'
    rcases List.mem_append.mp hd' with hd' | hd'
    · exact h d' hd'
    · rw [List.mem_singleton.mp hd']
      exact hd

theorem settled_choosePrimary {rows : List TenantDomainRow} (h : Settled rows)
    (tenantId domainId : Uuid) : Settled (choosePrimary rows tenantId domainId) := by
  have hdemoted : Settled (Table.update (fun d => d.tenantId = tenantId && d.id ≠ domainId)
      (setIsPrimary false) rows) := h.update fun d hd _ hrec => h d hd hrec
  exact hdemoted.update fun d hd _ hrec => hdemoted d hd hrec

/-! ### Statements that go through -/

/-- Marking a row failed cannot break the index on active hostnames. -/
theorem updateTenantDomain_recordFailure {db : Database} {tenantId id : Uuid} {message : String}
    (hpkey : (db.tenantDomains.map (·.id)).Nodup)
    (hactive : (activeHostnames db.tenantDomains).Nodup) :
    db.updateTenantDomain tenantId id (recordFailure message) = .ok { db with
      tenantDomains := Table.update (fun d => d.tenantId = tenantId && d.id = id)
        (recordFailure message) db.tenantDomains } := by
  have hnd : (activeHostnames (Table.update (fun d => d.tenantId = tenantId && d.id = id)
      (recordFailure message) db.tenantDomains)).Nodup :=
    nodup_activeHostnames_update (fun _ => rfl) hpkey hactive
      fun d _ _ _ h => absurd h (by simp [recordFailure])
  exact Database.checked_ok.mpr ⟨by simpa using hnd, rfl⟩

/-- When a claim goes in. -/
theorem insertClaim_isOk_iff {db : Database} {call : AttachCall} {hostname : String}
    {created : CustomHostname} (h : (activeHostnames db.tenantDomains).Nodup) :
    (∃ db', insertClaim db call hostname created = .ok db') ↔
      (∀ d ∈ db.tenantDomains, d.id ≠ call.rowId) ∧ (∃ t ∈ db.tenants, t.id = call.tenantId) ∧
        (∀ d ∈ db.tenantDomains, d.tenantId = call.tenantId → d.hostname ≠ hostname) ∧
        (created.status = .active → ∀ d ∈ db.tenantDomains, d.verificationStatus = .active →
          d.hostname ≠ hostname) := by
  have hactive : (activeHostnames (db.tenantDomains ++ [claimRow call hostname created])).Nodup ↔
      (created.status = .active → ∀ d ∈ db.tenantDomains, d.verificationStatus = .active →
        d.hostname ≠ hostname) := by
    rw [nodup_activeHostnames] at h
    rw [nodup_activeHostnames, List.pairwise_append]
    simp only [h, List.pairwise_singleton, List.mem_singleton, forall_eq, true_and]
    exact ⟨fun h hc d hd hd' => h d hd hd' hc, fun h d hd hd' hc => h hc d hd hd'⟩
  constructor
  · rintro ⟨db', h'⟩
    have hin := insertClaim_ok h'
    refine ⟨hin.fresh, hin.tenant, hin.hostname, hactive.mp ?_⟩
    rw [← hin.rows]
    exact hin.active
  · rintro ⟨hfresh, htenant, hhostname, hfree⟩
    have hno : db.noTenant call.tenantId = false := by
      simpa [Database.noTenant] using htenant
    have hinsert : ∃ db₁, db.insertTenantDomain (claimRow call hostname created) = .ok db₁ := by
      refine ⟨_, Database.checked_ok.mpr ⟨?_, rfl⟩⟩
      have hnd := hactive.mpr hfree
      have hid : (db.tenantDomains.any fun d => d.id = call.rowId) = false := by
        simpa using hfresh
      have hhost : (db.tenantDomains.any fun d =>
          d.tenantId = call.tenantId && d.hostname = hostname) = false := by
        simpa using hhostname
      simp only [List.mem_cons, List.not_mem_nil, or_false, forall_eq_or_imp, forall_eq]
      exact ⟨hid, hno, hhost, by simpa using hnd⟩
    obtain ⟨db₁, h₁⟩ := hinsert
    have hin := Database.insertTenantDomain_ok h₁
    refine ⟨_, Machine.bind_eq_ok.mpr ⟨db₁, h₁, Database.checked_ok.mpr ⟨?_, rfl⟩⟩⟩
    have hno₁ : db₁.noTenant call.tenantId = false := by
      simpa [Database.noTenant, hin.tenants] using htenant
    simp [hno₁]

variable {p : Platform} {w : World}

/-- The check of this domain gets as far as asking Cloudflare. -/
def Asks (p : Platform) (d : TenantDomainRow) : Prop :=
  customHostnamesConfigured p.env = true ∧ recordOf d.cfHostnameId ≠ none

instance (p : Platform) : DecidablePred (Asks p) := fun _ => inferInstanceAs (Decidable (_ ∧ _))

/-- A check leaves the rows alone, or records the answer it was given, or, when it asked and was
refused, marks the row failed. -/
theorem refreshDomain_rows (tenantId domainId : Uuid) (answer : TransportResult) (now : Instant) :
    let rows := (refreshDomain p.env p.client w tenantId domainId answer now).2.db.tenantDomains
    rows = w.db.tenantDomains ∨
      (∃ latest, rows = Table.update (fun d => d.tenantId = tenantId && d.id = domainId)
        (recordAnswer latest now) w.db.tenantDomains) ∨
      (Refused answer ∧ (∃ d ∈ w.db.tenantDomains, d.tenantId = tenantId ∧ d.id = domainId ∧
          Asks p d) ∧
        ∃ message, rows = Table.update (fun d => d.tenantId = tenantId && d.id = domainId)
          (recordFailure message) w.db.tenantDomains) := by
  intro rows
  cases hfind : findDomain w.db tenantId domainId with
  | none =>
    left
    simp only [rows, refreshDomain, hfind]
  | some current =>
    obtain ⟨d, hd, ht, hid, rfl⟩ := findDomain_eq_some hfind
    by_cases hrec : recordOf d.cfHostnameId = none
    · left
      simp only [rows, refreshDomain, hfind, toRecord, if_pos hrec]
    by_cases hcfg : customHostnamesConfigured p.env = true
    · rcases get_cases p.client answer with
        ⟨-, latest, hget⟩ | ⟨-, message, hget⟩ | ⟨hrefused, e, hget, hne⟩
      · simp only [rows, refreshDomain, hfind, toRecord, if_neg hrec, hcfg, hget, Bool.not_true,
          Bool.false_eq_true, if_false]
        split
        · exact Or.inl rfl
        · next db hupd =>
          obtain ⟨rfl, -⟩ := Database.updateTenantDomain_ok hupd
          exact Or.inr (Or.inl ⟨latest, rfl⟩)
      · left
        simp only [rows, refreshDomain, hfind, toRecord, if_neg hrec, hcfg, hget, Bool.not_true,
          Bool.false_eq_true, if_false]
      · have hrows : rows = (recordError w tenantId domainId (explain e)).2.db.tenantDomains := by
          simp only [rows, refreshDomain, hfind, toRecord, if_neg hrec, hcfg, hget, Bool.not_true,
            Bool.false_eq_true, if_false]
        rw [hrows, recordError]
        split
        · exact Or.inl rfl
        · next db hupd =>
          obtain ⟨rfl, -⟩ := Database.updateTenantDomain_ok hupd
          exact Or.inr (Or.inr ⟨hrefused, ⟨d, hd, ht, hid, hcfg, hrec⟩, explain e, rfl⟩)
    · left
      simp only [rows, refreshDomain, hfind, toRecord, if_neg hrec, hcfg, Bool.not_false, if_true]

/-- A check that asked and was refused marks the row failed. -/
theorem refreshDomain_refused {d : TenantDomainRow} {answer : TransportResult} {now : Instant}
    (hpkey : (w.db.tenantDomains.map (·.id)).Nodup)
    (hactive : (activeHostnames w.db.tenantDomains).Nodup) (hd : d ∈ w.db.tenantDomains)
    (hasks : Asks p d) (hrefused : Refused answer) :
    ∃ message, (refreshDomain p.env p.client w d.tenantId d.id answer now).2.db.tenantDomains
      = Table.update (fun x => x.tenantId = d.tenantId && x.id = d.id) (recordFailure message)
        w.db.tenantDomains := by
  rcases get_cases p.client answer with ⟨h, -⟩ | ⟨h, -⟩ | ⟨-, e, hget, hne⟩
  · exact absurd h (refused_ne hrefused).2
  · exact absurd h (refused_ne hrefused).1
  · refine ⟨explain e, ?_⟩
    rw [refreshDomain_recordError hasks.1 hpkey hd hasks.2 hget hne, recordError,
      updateTenantDomain_recordFailure hpkey hactive]

/-! ### The two ways to break the agreement -/

/-- The hostname is reported active in the answer that creates its record, and the claim goes in. -/
def AttachedLive (p : Platform) (w : World) (call : AttachCall) : Prop :=
  match claimableHostname call.rawHostname p.env.platformApexDomain,
      create p.client call.answer with
  | .ok hostname, .ok created =>
    customHostnamesConfigured p.env = true ∧ created.status = .active ∧
      (∃ t ∈ w.db.tenants, t.id = call.tenantId) ∧
      ∀ d ∈ w.db.tenantDomains, d.id ≠ call.rowId ∧
        (d.tenantId = call.tenantId ∨ d.verificationStatus = .active → d.hostname ≠ hostname)
  | _, _ => False

instance (p : Platform) (w : World) (call : AttachCall) : Decidable (AttachedLive p w call) := by
  rw [AttachedLive]
  split <;> infer_instance

/-- A live claim is marked failed. -/
def FailsLive (w : World) (tenantId domainId : Uuid) : Prop :=
  ∃ d ∈ w.db.tenantDomains, d.tenantId = tenantId ∧ d.id = domainId ∧ d.cfHostnameId ≠ none ∧
    d.verificationStatus = .active

instance (w : World) (tenantId domainId : Uuid) : Decidable (FailsLive w tenantId domainId) :=
  inferInstanceAs (Decidable (∃ d ∈ w.db.tenantDomains, _ ∧ _ ∧ _ ∧ _))

/-- The operations on domains, and the recording of an error by itself. -/
inductive RowAction where
  | operation (a : DomainAction)
  | recordError (tenantId domainId : Uuid) (message : String)

/-- One operation, or one failure that is recorded in a row. -/
def rowStep (p : Platform) (w : World) : RowAction → World
  | .operation a => step p w a
  | .recordError tenantId domainId message => (recordError w tenantId domainId message).2

/-- The step neither attaches a hostname that is live already nor marks a live one failed. -/
def Careful (p : Platform) (w : World) : RowAction → Prop
  | .operation (.attach call) => ¬ AttachedLive p w call
  | .operation (.refresh tenantId domainId answer _) =>
    ¬ (Refused answer ∧ ∃ d ∈ w.db.tenantDomains, d.tenantId = tenantId ∧ d.id = domainId ∧
      Asks p d ∧ d.verificationStatus = .active)
  | .operation _ => True
  | .recordError tenantId domainId _ => ¬ FailsLive w tenantId domainId

/-! ### One step -/

/-- What the statements of a lifecycle rely on. -/
structure Indexed (p : Platform) (w : World) : Prop where
  registered : Registered p.env w.db.tenants w.db.tenantDomains
  active : (activeHostnames w.db.tenantDomains).Nodup

theorem indexed_change {a : DomainAction} {w' : World} (hc : Change p a w w') (h : Indexed p w) :
    Indexed p w' :=
  ⟨registered_change hc h.registered, activeHostnames_change hc h.active⟩

theorem recordError_rows (h : Indexed p w) (tenantId domainId : Uuid) (message : String) :
    (recordError w tenantId domainId message).2.db = { w.db with
      tenantDomains := Table.update (fun d => d.tenantId = tenantId && d.id = domainId)
        (recordFailure message) w.db.tenantDomains } := by
  rw [recordError, updateTenantDomain_recordFailure h.registered.rows_pkey h.active]

/-- Marking one row failed keeps the rows settled exactly when the row is not live. -/
theorem settled_recordFailure_iff {rows : List TenantDomainRow} {tenantId domainId : Uuid}
    {message : String} (h : Settled rows) :
    Settled (Table.update (fun d => d.tenantId = tenantId && d.id = domainId)
        (recordFailure message) rows) ↔
      ∀ d ∈ rows, d.tenantId = tenantId → d.id = domainId → d.cfHostnameId ≠ none →
        d.verificationStatus ≠ .active := by
  constructor
  · intro hafter d hd ht hid hrec
    have hmem : recordFailure message d ∈ Table.update
        (fun d => d.tenantId = tenantId && d.id = domainId) (recordFailure message) rows :=
      Table.mem_update.mpr (Or.inr ⟨d, hd, by simp [ht, hid], rfl⟩)
    exact (agrees_recordFailure_iff (h d hd hrec)).mp (hafter _ hmem hrec)
  · intro hidle
    refine h.update fun d hd hq hrec => ?_
    simp only [Bool.and_eq_true, decide_eq_true_eq] at hq
    exact (agrees_recordFailure_iff (h d hd hrec)).mpr (hidle d hd hq.1 hq.2 hrec)

/-- A claim that is live when it is attached goes in with its deadline. -/
theorem attachDomain_live (h : Indexed p w) {call : AttachCall} (hlive : AttachedLive p w call) :
    ∃ hostname created, created.status = .active ∧
      (attachDomain p.env p.client w call).2.db.tenantDomains
        = w.db.tenantDomains ++ [claimRow call hostname created] := by
  rw [AttachedLive] at hlive
  split at hlive
  · next hostname created hclaim hcreate =>
    obtain ⟨hcfg, hstatus, htenant, hfree⟩ := hlive
    have hexisting : (w.db.tenantDomains.any fun d =>
        d.tenantId = call.tenantId && d.hostname = hostname) = false := by
      simp only [List.any_eq_false, Bool.and_eq_true, decide_eq_true_eq]
      rintro d hd ⟨ht, hh⟩
      exact (hfree d hd).2 (Or.inl ht) hh
    obtain ⟨db, hins⟩ := (@insertClaim_isOk_iff w.db call hostname created h.active).mpr
      ⟨fun d hd => (hfree d hd).1, htenant, fun d hd ht => (hfree d hd).2 (Or.inl ht),
        fun _ d hd hd' => (hfree d hd).2 (Or.inr hd')⟩
    refine ⟨hostname, created, hstatus, ?_⟩
    simp only [attachDomain, hcfg, hclaim, hcreate, hexisting, hins, Bool.not_true,
      Bool.false_eq_true, if_false]
    exact (insertClaim_ok hins).rows
  · exact hlive.elim

theorem settled_attach_iff (h : Indexed p w) (hs : Settled w.db.tenantDomains)
    (call : AttachCall) :
    Settled (attachDomain p.env p.client w call).2.db.tenantDomains ↔
      ¬ AttachedLive p w call := by
  constructor
  · intro hafter hlive
    obtain ⟨hostname, created, hstatus, hrows⟩ := attachDomain_live h hlive
    rw [hrows, settled_append] at hafter
    exact agrees_claimRow_iff.mp (hafter.2 (by simp [claimRow])) hstatus
  · intro hcareful
    rcases @attachDomain_cases p.env p.client w call with
      ⟨message, hr⟩ | ⟨hostname, created, hcfg, hclaim, hcreate, ⟨e, -, hr⟩ | ⟨db, r, hins, hr⟩⟩
    · rw [hr]
      exact hs
    · rw [hr]
      exact hs
    · rw [hr]
      have hrows : db.tenantDomains = w.db.tenantDomains ++ [claimRow call hostname created] :=
        (insertClaim_ok hins).rows
      show Settled db.tenantDomains
      rw [hrows, settled_append, agrees_claimRow_iff]
      refine ⟨hs, fun _ hstatus => hcareful ?_⟩
      obtain ⟨hfresh, htenant, hown, hfree⟩ := (insertClaim_isOk_iff h.active).mp ⟨db, hins⟩
      simp only [AttachedLive, hclaim, hcreate]
      exact ⟨hcfg, hstatus, htenant, fun d hd =>
        ⟨hfresh d hd, fun hor => hor.elim (hown d hd) (hfree hstatus d hd)⟩⟩

theorem settled_refreshDomain {tenantId domainId : Uuid} {answer : TransportResult} {now : Instant}
    (hs : Settled w.db.tenantDomains)
    (hidle : Refused answer → ∀ d ∈ w.db.tenantDomains, d.tenantId = tenantId → d.id = domainId →
      Asks p d → d.verificationStatus ≠ .active) (hpkey : (w.db.tenantDomains.map (·.id)).Nodup) :
    Settled (refreshDomain p.env p.client w tenantId domainId answer now).2.db.tenantDomains := by
  rcases @refreshDomain_rows p w tenantId domainId answer now with
    hr | ⟨latest, hr⟩ | ⟨hrefused, ⟨d, hd, ht, hid, hasks⟩, message, hr⟩
  · rw [hr]
    exact hs
  · rw [hr]
    exact hs.update fun d _ _ _ => agrees_recordAnswer latest now d
  · rw [hr, settled_recordFailure_iff hs]
    intro d' hd' ht' hid' _
    obtain rfl := Table.eq_of_key_eq hpkey hd' hd (hid'.trans hid.symm)
    exact hidle hrefused d' hd' ht hid hasks

theorem settled_refresh_iff (h : Indexed p w) (hs : Settled w.db.tenantDomains)
    (tenantId domainId : Uuid) (answer : TransportResult) (now : Instant) :
    Settled (refreshDomain p.env p.client w tenantId domainId answer now).2.db.tenantDomains ↔
      ¬ (Refused answer ∧ ∃ d ∈ w.db.tenantDomains, d.tenantId = tenantId ∧ d.id = domainId ∧
        Asks p d ∧ d.verificationStatus = .active) := by
  constructor
  · rintro hafter ⟨hrefused, d, hd, rfl, rfl, hasks, hactive⟩
    obtain ⟨message, hr⟩ :=
      @refreshDomain_refused p w d answer now h.registered.rows_pkey h.active hd hasks hrefused
    rw [hr, settled_recordFailure_iff hs] at hafter
    refine hafter d hd rfl rfl (fun hnone => hasks.2 ?_) hactive
    rw [hnone]
    rfl
  · intro hcareful
    refine settled_refreshDomain hs (fun hrefused d hd ht hid hasks hactive => hcareful ?_)
      h.registered.rows_pkey
    exact ⟨hrefused, d, hd, ht, hid, hasks, hactive⟩

theorem settled_recordError_iff (h : Indexed p w) (hs : Settled w.db.tenantDomains)
    (tenantId domainId : Uuid) (message : String) :
    Settled (recordError w tenantId domainId message).2.db.tenantDomains ↔
      ¬ FailsLive w tenantId domainId := by
  rw [recordError_rows h, settled_recordFailure_iff hs]
  constructor
  · rintro hidle ⟨d, hd, ht, hid, hrec, hactive⟩
    exact hidle d hd ht hid hrec hactive
  · intro hcareful d hd ht hid hrec hactive
    exact hcareful ⟨d, hd, ht, hid, hrec, hactive⟩

/-- An update of one row leaves the others where they are. -/
theorem mem_of_mem_update {rows : List TenantDomainRow} {tenantId id : Uuid}
    {f : TenantDomainRow → TenantDomainRow} (hf : ∀ d, (f d).id = d.id) {d : TenantDomainRow}
    (hd : d ∈ Table.update (fun d => d.tenantId = tenantId && d.id = id) f rows)
    (hne : d.id ≠ id) : d ∈ rows := by
  rcases Table.mem_update.mp hd with ⟨hd, -⟩ | ⟨b, -, hq, rfl⟩
  · exact hd
  · simp only [Bool.and_eq_true, decide_eq_true_eq] at hq
    exact absurd ((hf b).trans hq.2) hne

/-- A loop over domains of which none was live when it was read. Each is checked once, so each is
as it was when its turn comes. -/
theorem settled_refreshLoop {tenantId : Uuid} {answers : Uuid → TransportResult}
    {clock : Uuid → Instant} {ds : List DomainRecord} (hids : (ds.map (·.id)).Nodup)
    (h : Indexed p w)
    (hs : Settled w.db.tenantDomains)
    (hidle : ∀ x ∈ ds, x.status ≠ .active → ∀ d ∈ w.db.tenantDomains, d.id = x.id →
      d.verificationStatus ≠ .active) :
    Settled
      (forEach (refreshTurn p.env p.client tenantId answers clock) w ds).2.db.tenantDomains := by
  induction ds generalizing w with
  | nil => exact hs
  | cons x ds ih =>
    obtain ⟨hx, hids⟩ := List.nodup_cons.mp hids
    have hturn : Indexed p (refreshTurn p.env p.client tenantId answers clock w x).2 ∧
        Settled (refreshTurn p.env p.client tenantId answers clock w x).2.db.tenantDomains ∧
        ∀ d ∈ (refreshTurn p.env p.client tenantId answers clock w x).2.db.tenantDomains,
          d.id ≠ x.id → d ∈ w.db.tenantDomains := by
      rw [refreshTurn]
      split_ifs with hactive
      · exact ⟨h, hs, fun d hd _ => hd⟩
      · rw [Machine.discard_snd]
        refine ⟨indexed_change (refreshDomain_change (a := .refreshAll tenantId answers clock)
          tenantId x.id (answers x.id) (clock x.id) rfl) h, ?_, fun d hd hne => ?_⟩
        · exact settled_refreshDomain hs
            (fun _ d hd _ hid _ => hidle x (List.mem_cons_self ..) hactive d hd hid)
            h.registered.rows_pkey
        · rcases @refreshDomain_rows p w tenantId x.id (answers x.id) (clock x.id) with
            hr | ⟨latest, hr⟩ | ⟨-, -, message, hr⟩
          · exact hr ▸ hd
          · rw [hr] at hd
            exact mem_of_mem_update (f := recordAnswer latest (clock x.id)) (fun _ => rfl) hd hne
          · rw [hr] at hd
            exact mem_of_mem_update (f := recordFailure message) (fun _ => rfl) hd hne
    obtain ⟨hindexed, hsettled, hkept⟩ := hturn
    have hrest : ∀ y ∈ ds, y.status ≠ .active →
        ∀ d ∈ (refreshTurn p.env p.client tenantId answers clock w x).2.db.tenantDomains,
          d.id = y.id → d.verificationStatus ≠ .active := by
      intro y hy hactive d hd hid
      have hne : d.id ≠ x.id := by
        intro hdx
        exact hx (List.mem_map.mpr ⟨y, hy, hid.symm.trans hdx⟩)
      exact hidle y (List.mem_cons_of_mem _ hy) hactive d (hkept d hd hne) hid
    rw [forEach]
    cases hbody : refreshTurn p.env p.client tenantId answers clock w x with
    | mk result w' =>
      rw [hbody] at hindexed hsettled hrest
      cases result with
      | error e => exact hsettled
      | ok _ => exact ih hids hindexed hsettled hrest

theorem settled_refreshAll (h : Indexed p w) (hs : Settled w.db.tenantDomains) (tenantId : Uuid)
    (answers : Uuid → TransportResult) (clock : Uuid → Instant) :
    Settled (refreshAllDomains p.env p.client w tenantId answers clock).2.db.tenantDomains := by
  refine settled_refreshLoop (nodup_listDomains h.registered.rows_pkey tenantId) h hs ?_
  intro x hx hactive d hd hid
  obtain ⟨d', hd', -, rfl⟩ := mem_listDomains.mp hx
  obtain rfl := Table.eq_of_key_eq h.registered.rows_pkey hd hd' hid
  exact hactive

theorem settled_provision (hs : Settled w.db.tenantDomains) (call : ProvisionCall) :
    Settled (provisionTenant p.env p.hashToken w call).2.db.tenantDomains := by
  rw [provisionTenant]
  cases h : insertInstitute p.env p.hashToken w.db call with
  | error e => split_ifs <;> exact hs
  | ok db =>
    have hafter : Settled db.tenantDomains := by
      rw [(insertInstitute_ok h).1, settled_append]
      exact ⟨hs, fun hrec => absurd rfl hrec⟩
    split_ifs <;> first | exact hs | exact hafter

theorem settled_removeDomain (hs : Settled w.db.tenantDomains) (tenantId domainId : Uuid)
    (answer : TransportResult) :
    Settled (removeDomain p.env p.client w tenantId domainId answer).2.db.tenantDomains := by
  rcases @removeDomain_cases p.env p.client w tenantId domainId answer with
    ⟨-, hr⟩ | ⟨d, -, -, -, ⟨e, -, hr⟩ | ⟨zone, -, ⟨e, -, hr⟩ | ⟨db, hdb, hr⟩⟩⟩
  · rw [hr]
    exact hs
  · rw [hr]
    exact hs
  · rw [hr]
    exact hs
  · rw [hr]
    show Settled db.tenantDomains
    rw [(deleteClaim_ok hdb).1]
    exact hs.subset (Table.delete_sublist _ _).subset

theorem settled_releaseLapsed (hs : Settled w.db.tenantDomains) (tenantId : Uuid)
    (answers : Uuid → TransportResult) (clock : Uuid → Instant) :
    Settled (releaseLapsedClaims p.env p.client w tenantId answers clock).2.db.tenantDomains := by
  have hturn : ∀ s : World, ∀ x ∈ (listDomains w.db tenantId).filter (lapsed clock),
      Settled s.db.tenantDomains →
      Settled (removeDomain p.env p.client s tenantId x.id (answers x.id)).2.db.tenantDomains :=
    fun s x _ hs => settled_removeDomain hs tenantId x.id (answers x.id)
  exact Machine.forEach_invariant (I := fun s : World => Settled s.db.tenantDomains) hturn hs

theorem settled_setPrimary (hs : Settled w.db.tenantDomains) (tenantId domainId : Uuid) :
    Settled (setPrimaryDomain w tenantId domainId).2.db.tenantDomains := by
  rw [setPrimaryDomain]
  cases findDomain w.db tenantId domainId with
  | none => exact hs
  | some target =>
    dsimp only
    split_ifs
    · exact hs
    · split
      · exact hs
      · next db hlog =>
        obtain rfl := Database.insertAuditLog_ok hlog
        exact settled_choosePrimary hs tenantId domainId

/-- One step from a settled state ends in a settled state exactly when it is careful. -/
theorem settled_step (h : Indexed p w) (hs : Settled w.db.tenantDomains) (a : RowAction) :
    Settled (rowStep p w a).db.tenantDomains ↔ Careful p w a := by
  cases a with
  | recordError tenantId domainId message =>
    exact settled_recordError_iff h hs tenantId domainId message
  | operation a =>
    show Settled (exec p w a).2.db.tenantDomains ↔ _
    cases a with
    | attach call =>
      rw [exec, Machine.discard_snd]
      exact settled_attach_iff h hs call
    | refresh tenantId domainId answer now =>
      rw [exec, Machine.discard_snd]
      exact settled_refresh_iff h hs tenantId domainId answer now
    | provision call =>
      rw [exec, Machine.discard_snd]
      exact iff_of_true (settled_provision hs call) trivial
    | refreshAll tenantId answers clock =>
      rw [exec, Machine.discard_snd]
      exact iff_of_true (settled_refreshAll h hs tenantId answers clock) trivial
    | remove tenantId domainId answer =>
      rw [exec]
      exact iff_of_true (settled_removeDomain hs tenantId domainId answer) trivial
    | setPrimary tenantId domainId =>
      rw [exec, Machine.discard_snd]
      exact iff_of_true (settled_setPrimary hs tenantId domainId) trivial
    | releaseLapsed tenantId answers clock =>
      rw [exec, Machine.discard_snd]
      exact iff_of_true (settled_releaseLapsed hs tenantId answers clock) trivial
    | dropRecord id => exact iff_of_true hs trivial

theorem recordError_change {a : DomainAction} (tenantId domainId : Uuid) (message : String) :
    Change p a w (recordError w tenantId domainId message).2 := by
  rw [recordError]
  cases hupd : w.db.updateTenantDomain tenantId domainId (recordFailure message) with
  | error e => exact .refl _ _
  | ok db =>
    obtain ⟨rfl, hactive⟩ := Database.updateTenantDomain_ok hupd
    exact .failed tenantId domainId message rfl rfl hactive rfl

theorem indexed_step (h : Indexed p w) (a : RowAction) : Indexed p (rowStep p w a) := by
  cases a with
  | operation a =>
    show Indexed p (step p w a)
    exact changes_invariant (p := p) (I := Indexed p) (fun _ _ hc h => indexed_change hc h)
      (exec_changes a) h
  | recordError tenantId domainId message =>
    exact indexed_change (a := .dropRecord "") (recordError_change tenantId domainId message) h

/-! ### Runs -/

/-- **The columns of a claim agree in every state of a run exactly when no step of the run attaches
a hostname that is live already or marks a live one failed.** -/
theorem settled_iff (p : Platform) (users : List UserRow) (as : List RowAction) :
    Meets (rowStep p) (fun w a => Settled (rowStep p w a).db.tenantDomains) (initial users) as ↔
      Meets (rowStep p) (Careful p) (initial users) as := by
  have hstart : Indexed p (initial users) ∧ Settled (initial users).db.tenantDomains :=
    ⟨⟨registered_run users [], @activeHostnames_run p users []⟩, fun _ hd => nomatch hd⟩
  refine Machine.Meets.iff_of_invariant
    (I := fun w => Indexed p w ∧ Settled w.db.tenantDomains) (fun w a hw _ hcareful => ?_)
    (fun w a hw _ => settled_step hw.1 hw.2 a) hstart (Machine.meets_true _ _ _)
  exact ⟨indexed_step hw.1 a, (settled_step hw.1 hw.2 a).mpr hcareful⟩

/-- A tenant attaches a hostname, Cloudflare confirms it, and a later check is answered with 403. -/
def refusedRun : List RowAction :=
  (learnRun ++ [DomainAction.refresh 1 12 (refusal 403) 20]).map .operation

/-- The row is failed with no deadline, and still says when it was verified. -/
theorem claim_without_deadline :
    ∃ d ∈ (run (rowStep lamplight) (initial [operator]) refusedRun).db.tenantDomains,
      d.cfHostnameId ≠ none ∧ d.verificationStatus = .failed ∧ d.claimExpiresAt = none ∧
        d.verifiedAt = some 10 ∧ ¬ Agrees d := by
  decide +kernel

end LampLight
