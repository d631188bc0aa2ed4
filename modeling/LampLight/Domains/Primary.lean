import LampLight.Domains.Lifecycle

/-!
# The primary domain

A tenant's other domains redirect to its primary one. A new tenant comes with a primary row, and
`setPrimaryDomain` is the only operation that marks one later: it demotes the tenant's other rows
and promotes the chosen one in one transaction, and checks before that the chosen row is there and
active.

## Main results

* `primaryTenants_change` — no change of the tables gives a tenant a second primary row
* `primary_run` — at most one primary row for each tenant in every run, and what choosing it does
-/

namespace LampLight

open Machine (run)

variable {p : Platform} {w : World} {a : DomainAction} {rows : List TenantDomainRow}

/-- The tenants of the primary rows, one entry for each row. -/
def primaryTenants (rows : List TenantDomainRow) : List Uuid :=
  (rows.filter fun d => d.isPrimary).map (·.tenantId)

theorem nodup_primaryTenants :
    (primaryTenants rows).Nodup ↔ rows.Pairwise fun d d' =>
      d.isPrimary = true → d'.isPrimary = true → d.tenantId ≠ d'.tenantId := by
  rw [primaryTenants, List.Nodup, List.pairwise_map, List.pairwise_filter]

/-! ### Choosing -/

/-- The two updates in one: the tenant's rows are primary or not by their id. -/
theorem choosePrimary_eq_map (rows : List TenantDomainRow) (tenantId domainId : Uuid) :
    choosePrimary rows tenantId domainId = rows.map fun d =>
      if d.tenantId = tenantId then setIsPrimary (d.id = domainId) d else d := by
  simp only [choosePrimary, Table.update, List.map_map]
  refine List.map_congr_left fun d _ => ?_
  by_cases ht : d.tenantId = tenantId
  · by_cases hid : d.id = domainId
    · simp [ht, hid]
    · simp [ht, hid, setIsPrimary]
  · simp [ht]

/-- Two rows of one tenant that are both primary have the same id. -/
theorem nodup_primaryTenants_choosePrimary (hpkey : (rows.map (·.id)).Nodup)
    (h : (primaryTenants rows).Nodup) (tenantId domainId : Uuid) :
    (primaryTenants (choosePrimary rows tenantId domainId)).Nodup := by
  rw [nodup_primaryTenants] at h ⊢
  rw [List.Nodup, List.pairwise_map] at hpkey
  rw [choosePrimary_eq_map, List.pairwise_map]
  refine (h.and hpkey).imp fun {d d'} hpair => ?_
  obtain ⟨honce, hids⟩ := hpair
  by_cases ht : d.tenantId = tenantId
  · by_cases ht' : d'.tenantId = tenantId
    · simp only [if_pos ht, if_pos ht', setIsPrimary, decide_eq_true_eq]
      intro hid hid'
      exact absurd (hid.trans hid'.symm) hids
    · simp only [if_pos ht, if_neg ht', setIsPrimary]
      intro _ _ heq
      exact ht' (heq.symm.trans ht)
  · by_cases ht' : d'.tenantId = tenantId
    · simp only [if_neg ht, if_pos ht', setIsPrimary]
      intro _ _ heq
      exact ht (heq.trans ht')
    · simp only [if_neg ht, if_neg ht']
      exact honce

/-- The target becomes the tenant's only primary row. -/
theorem filter_choosePrimary (hpkey : (rows.map (·.id)).Nodup) {target : TenantDomainRow}
    (htarget : target ∈ rows) :
    (choosePrimary rows target.tenantId target.id).filter
        (fun d => d.tenantId = target.tenantId && d.isPrimary) = [setIsPrimary true target] := by
  have hids : ((choosePrimary rows target.tenantId target.id).map (·.id)).Nodup := by
    have hkeys := congrArg (List.map Prod.fst)
      (map_claimKey_choosePrimary rows target.tenantId target.id)
    simp only [List.map_map] at hkeys
    exact (show (choosePrimary rows target.tenantId target.id).map (·.id) = rows.map (·.id)
      from hkeys) ▸ hpkey
  have hmem : setIsPrimary true target ∈ choosePrimary rows target.tenantId target.id := by
    rw [choosePrimary_eq_map, List.mem_map]
    exact ⟨target, htarget, by simp⟩
  refine Table.filter_eq_singleton hids.of_map hmem fun d hd => ?_
  constructor
  · intro hd'
    simp only [Bool.and_eq_true, decide_eq_true_eq] at hd'
    rw [choosePrimary_eq_map, List.mem_map] at hd
    obtain ⟨d₀, hd₀, rfl⟩ := hd
    split_ifs at hd' ⊢ with ht
    · have hid : d₀.id = target.id := by simpa [setIsPrimary] using hd'.2
      rw [Table.eq_of_key_eq hpkey hd₀ htarget hid]
      simp
    · exact absurd hd'.1 ht
  · rintro rfl
    simp [setIsPrimary]

theorem others_choosePrimary (rows : List TenantDomainRow) (tenantId domainId : Uuid) :
    Table.others TenantDomainRow.tenantId tenantId (choosePrimary rows tenantId domainId)
      = Table.others TenantDomainRow.tenantId tenantId rows := by
  rw [choosePrimary, Table.others_update (by simp +contextual) (by exact fun _ => rfl),
    Table.others_update (by simp +contextual) (by exact fun _ => rfl)]

/-- Choosing answers `false` or throws and leaves everything, or finds an active row of the tenant
and marks it. -/
theorem setPrimaryDomain_cases (w : World) (tenantId domainId : Uuid) :
    ((setPrimaryDomain w tenantId domainId).1 ≠ .ok true ∧
        (setPrimaryDomain w tenantId domainId).2 = w) ∨
      (setPrimaryDomain w tenantId domainId).1 = .ok true ∧
        ∃ target ∈ w.db.tenantDomains, target.tenantId = tenantId ∧ target.id = domainId ∧
          target.verificationStatus = .active ∧
          (setPrimaryDomain w tenantId domainId).2.db.tenantDomains
            = choosePrimary w.db.tenantDomains tenantId domainId := by
  rw [setPrimaryDomain]
  cases hfind : findDomain w.db tenantId domainId with
  | none => exact Or.inl ⟨by simp, rfl⟩
  | some target =>
    obtain ⟨d, hd, ht, hid, rfl⟩ := findDomain_eq_some hfind
    dsimp only
    split_ifs with hstatus
    · exact Or.inl ⟨by simp, rfl⟩
    · split
      · exact Or.inl ⟨by simp, rfl⟩
      · next db hlog =>
        obtain rfl := Database.insertAuditLog_ok hlog
        exact Or.inr ⟨rfl, d, hd, ht, hid, by simpa [toRecord] using hstatus, rfl⟩

/-! ### At most one -/

theorem primaryTenants_change {w' : World} (hc : Change p a w w')
    (hreg : Registered p.env w.db.tenants w.db.tenantDomains)
    (h : (primaryTenants w.db.tenantDomains).Nodup) :
    (primaryTenants w'.db.tenantDomains).Nodup := by
  cases hc with
  | idle rows tenants recorded => exact rows ▸ h
  | provisioned call action valid rows tenants newId newTenant newSlug active recorded =>
    have hnew : call.tenantId ∉ primaryTenants w.db.tenantDomains := by
      intro hmem
      obtain ⟨d, hd, ht⟩ := List.mem_map.mp hmem
      obtain ⟨t, htenant, hid⟩ := hreg.rows_tenant d (List.mem_filter.mp hd).1
      exact newTenant t htenant (hid.trans ht)
    have happend : primaryTenants w'.db.tenantDomains
        = primaryTenants w.db.tenantDomains ++ [call.tenantId] := by
      rw [rows, primaryTenants, List.filter_append, List.map_append]
      rfl
    rw [happend, List.nodup_append']
    exact ⟨h, List.nodup_singleton _, by simpa [List.disjoint_singleton] using hnew⟩
  | attached call action hostname created claim answer inserted recorded =>
    have hsame : primaryTenants w'.db.tenantDomains = primaryTenants w.db.tenantDomains := by
      rw [inserted.rows, primaryTenants, List.filter_append, List.map_append]
      exact List.append_nil _
    exact hsame ▸ h
  | refreshed current answer latest now action found live rows tenants active recorded =>
    rw [rows, primaryTenants,
      Table.map_filter_update (f := recordAnswer latest now) (fun _ => rfl) (fun _ => rfl)]
    exact h
  | failed tenantId domainId message rows tenants active recorded =>
    rw [rows, primaryTenants,
      Table.map_filter_update (f := recordFailure message) (fun _ => rfl) (fun _ => rfl)]
    exact h
  | removed tenantId domainId action rows tenants recorded =>
    rw [rows]
    exact h.sublist (((Table.delete_sublist _ _).filter _).map _)
  | primary target action found active rows tenants recorded =>
    rw [rows]
    exact nodup_primaryTenants_choosePrimary hreg.rows_pkey h _ _

theorem primaryTenants_run (users : List UserRow) (as : List DomainAction) :
    (primaryTenants (run (step p) (initial users) as).db.tenantDomains).Nodup :=
  (run_invariant (p := p) (w := initial users)
    (I := fun w => Registered p.env w.db.tenants w.db.tenantDomains ∧
      (primaryTenants w.db.tenantDomains).Nodup)
    (fun _ _ _ hc h => ⟨registered_change hc h.1, primaryTenants_change hc h.1 h.2⟩)
    ⟨registered_run users [], List.nodup_nil⟩ as).2

/-- **At most one primary domain, and changing it is atomic.** After any run no tenant has two
primary rows. A further `setPrimaryDomain` that does not return `true` leaves the world as it was;
one that does found the target among the tenant's active rows, leaves it as the tenant's only
primary row, changes no other column, and leaves every other tenant's rows alone. -/
theorem primary_run (p : Platform) (users : List UserRow) (as : List DomainAction)
    (tenantId domainId : Uuid) :
    let w := run (step p) (initial users) as
    let result := setPrimaryDomain w tenantId domainId
    (primaryTenants w.db.tenantDomains).Nodup ∧
      (result.1 ≠ .ok true → result.2 = w) ∧
      (result.1 = .ok true → ∃ target ∈ w.db.tenantDomains,
        target.tenantId = tenantId ∧ target.id = domainId ∧
          target.verificationStatus = .active ∧
        result.2.db.tenantDomains.filter (fun d => d.tenantId = tenantId && d.isPrimary)
          = [setIsPrimary true target] ∧
        (result.2.db.tenantDomains.map fun d => { d with isPrimary := false })
          = (w.db.tenantDomains.map fun d => { d with isPrimary := false }) ∧
        Table.others TenantDomainRow.tenantId tenantId result.2.db.tenantDomains
          = Table.others TenantDomainRow.tenantId tenantId w.db.tenantDomains) := by
  intro w result
  have hcases := setPrimaryDomain_cases w tenantId domainId
  refine ⟨primaryTenants_run users as, fun hfalse => ?_, fun htrue => ?_⟩
  · rcases hcases with ⟨-, hsame⟩ | ⟨htrue, -⟩
    · exact hsame
    · exact absurd htrue hfalse
  · rcases hcases with ⟨hfalse, -⟩ | ⟨-, target, hmem, rfl, rfl, hactive, hrows⟩
    · exact absurd htrue hfalse
    · refine ⟨target, hmem, rfl, rfl, hactive, ?_, ?_, ?_⟩
      · rw [hrows]
        exact filter_choosePrimary (registered_run users as).rows_pkey hmem
      · rw [hrows, choosePrimary, Table.map_update (f := setIsPrimary true) (by exact fun _ => rfl),
          Table.map_update (f := setIsPrimary false) (by exact fun _ => rfl)]
      · rw [hrows]
        exact others_choosePrimary _ _ _

end LampLight
