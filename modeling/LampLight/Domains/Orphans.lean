import LampLight.Domains.Lifecycle

/-!
# Records without a row

Cloudflare's records and the platform's rows are kept in step without a common transaction.
Attaching creates the record first and removing deletes it first, so a record outlives its row only
where a delete did not happen and the row was deleted all the same. That is what a refused delete
comes to: `releaseRecord` takes every failure but an unreachable Cloudflare for the record being
gone, and a refusal for a bad token, a rate limit or a malformed request is such a failure.

## The loop

`removeDomain` and `releaseLapsedClaims` are both the loop `forEach (removeTurn p tenantId)` over
`removals`, the domains to delete with the answers about them. `removals_spec` says what is left of
the rows and of the zone after it, in terms of the removals it `reached`.

## Main results

* `noOrphan_iff` — no step orphans a record exactly when no delete of a record that is still there
  is refused
-/

namespace LampLight

open Cloudflare
open Machine (run Meets forEach)

/-- Every record Cloudflare holds is referenced by a row. -/
def NoOrphan (w : World) : Prop :=
  ∀ id ∈ w.zone, ∃ d ∈ w.db.tenantDomains, d.cfHostnameId = some id

instance : DecidablePred NoOrphan := fun w =>
  inferInstanceAs (Decidable (∀ id ∈ w.zone, ∃ d ∈ w.db.tenantDomains, d.cfHostnameId = some id))

/-- A row went only when Cloudflare no longer had its record. -/
def Released (w w' : World) : Prop :=
  ∀ d ∈ w.db.tenantDomains, (∀ d' ∈ w'.db.tenantDomains, d'.id ≠ d.id) →
    ∀ id ∈ w'.zone, d.cfHostnameId ≠ some id

instance (w w' : World) : Decidable (Released w w') :=
  inferInstanceAs (Decidable (∀ d ∈ w.db.tenantDomains, (∀ d' ∈ w'.db.tenantDomains, d'.id ≠ d.id) →
    ∀ id ∈ w'.zone, d.cfHostnameId ≠ some id))

/-! ### What an action removes -/

/-- The domains an action sets out to delete, in order, each with the answer to its `DELETE`. -/
def removals (w : World) : DomainAction → List (DomainRecord × TransportResult)
  | .remove tenantId domainId answer =>
    (findDomain w.db tenantId domainId).toList.map fun domain => (domain, answer)
  | .releaseLapsed tenantId answers clock =>
    ((listDomains w.db tenantId).filter (lapsed clock)).map fun domain =>
      (domain, answers domain.id)
  | _ => []

/-- The tenant whose domains an action sets out to delete. -/
def removesOf : DomainAction → Option Uuid
  | .remove tenantId _ _ => some tenantId
  | .releaseLapsed tenantId _ _ => some tenantId
  | _ => none

/-- The loop goes on after this removal: no call was made, or Cloudflare answered. -/
def goesOn (x : DomainRecord × TransportResult) : Bool :=
  decide (recordOf x.1.cfHostnameId = none) || !decide (Unreachable x.2)

/-- The removals an action gets to. -/
def reached (w : World) (a : DomainAction) : List (DomainRecord × TransportResult) :=
  (removals w a).takeWhile goesOn

/-- No delete is refused for a record that Cloudflare still holds. -/
def DeletesHeeded (w : World) (a : DomainAction) : Prop :=
  ∀ x ∈ reached w a, ∀ id ∈ w.zone, x.1.cfHostnameId = some id → ¬ Refused x.2

instance (w : World) (a : DomainAction) : Decidable (DeletesHeeded w a) :=
  inferInstanceAs (Decidable (∀ x ∈ reached w a, ∀ id ∈ w.zone, x.1.cfHostnameId = some id →
    ¬ Refused x.2))

/-- No statement failed. -/
def StatementsSucceed {β : Type} : Except Thrown β → Prop
  | .error (.db _) => False
  | _ => True

instance {β : Type} : DecidablePred (StatementsSucceed (β := β))
  | .ok _ => isTrue trivial
  | .error (.db _) => isFalse id
  | .error (.cloudflare _) => isTrue trivial
  | .error .mail => isTrue trivial

theorem statementsSucceed_map {β γ : Type} {r : Except Thrown β} {f : β → γ} :
    StatementsSucceed (r.map f) ↔ StatementsSucceed r := by
  cases r with
  | ok _ => exact Iff.rfl
  | error e => cases e <;> exact Iff.rfl

variable (p : Platform)

/-- The record Cloudflare answers an attach request with. -/
def createdRecord : DomainAction → Option CustomHostname
  | .attach call => (create p.client call.answer).toOption
  | _ => none

/-- The statements of the operation succeed, and a record that Cloudflare creates has an id of its
own. -/
def Orderly (w : World) (a : DomainAction) : Prop :=
  StatementsSucceed (exec p w a).1 ∧ ∀ created ∈ createdRecord p a, created.id ≠ "" ∧
    created.id ∉ w.zone ∧ ∀ d ∈ w.db.tenantDomains, d.cfHostnameId ≠ some created.id

instance (w : World) (a : DomainAction) : Decidable (Orderly p w a) :=
  inferInstanceAs (Decidable (StatementsSucceed (exec p w a).1 ∧ ∀ created ∈ createdRecord p a,
    created.id ≠ "" ∧ created.id ∉ w.zone ∧
      ∀ d ∈ w.db.tenantDomains, d.cfHostnameId ≠ some created.id))

variable {p} {w : World}

/-! ### One removal -/

/-- One turn of the removal loop. -/
def removeTurn (p : Platform) (tenantId : Uuid) (w : World)
    (x : DomainRecord × TransportResult) : Except Thrown Unit × World :=
  removeDomain p.env p.client w tenantId x.1.id x.2

/-- What removals that went through leave behind. -/
structure Removed (w w' : World) (xs : List (DomainRecord × TransportResult)) : Prop where
  rows : ∀ d, d ∈ w'.db.tenantDomains ↔
    d ∈ w.db.tenantDomains ∧ ∀ x ∈ xs, d.id ≠ x.1.id
  sub : w'.db.tenantDomains.Sublist w.db.tenantDomains
  zone : ∀ id, id ∈ w'.zone ↔
    id ∈ w.zone ∧ ∀ x ∈ xs, recordOf x.1.cfHostnameId = some id → ¬ Accepted x.2

theorem Removed.refl (w : World) : Removed w w [] :=
  ⟨by simp, List.Sublist.refl _, by simp⟩

theorem Removed.cons {w₁ w₂ w₃ : World} {x : DomainRecord × TransportResult}
    {xs : List (DomainRecord × TransportResult)} (h₁ : Removed w₁ w₂ [x])
    (h₂ : Removed w₂ w₃ xs) : Removed w₁ w₃ (x :: xs) where
  rows d := by
    rw [h₂.rows, h₁.rows, List.forall_mem_singleton, List.forall_mem_cons, and_assoc]
  sub := h₂.sub.trans h₁.sub
  zone id := by
    rw [h₂.zone, h₁.zone, List.forall_mem_singleton, List.forall_mem_cons, and_assoc]

/-- A removal whose domain is there throws at an unreachable Cloudflare, or removes. -/
theorem removeTurn_cases (hcfg : customHostnamesConfigured p.env = true)
    (hpkey : (w.db.tenantDomains.map (·.id)).Nodup) {d : TenantDomainRow}
    (hd : d ∈ w.db.tenantDomains) (answer : TransportResult) :
    (goesOn (toRecord d, answer) = false ∧
        ∃ e, removeTurn p d.tenantId w (toRecord d, answer) = (.error (.cloudflare e), w)) ∨
      (∃ e w', removeTurn p d.tenantId w (toRecord d, answer) = (.error (.db e), w')) ∨
      (goesOn (toRecord d, answer) = true ∧
        ∃ w', removeTurn p d.tenantId w (toRecord d, answer) = (.ok (), w') ∧
          Removed w w' [(toRecord d, answer)]) := by
  rcases @removeDomain_cases p.env p.client w d.tenantId d.id answer with
    ⟨hnone, -⟩ | ⟨d', hd', -, hid, h⟩
  · exact absurd (findDomain_eq hpkey hd) (by simp [hnone])
  obtain rfl := Table.eq_of_key_eq hpkey hd' hd hid
  have hrows : ∀ {db : Database}, deleteClaim w.db d'.tenantId d'.id d'.hostname = .ok db →
      (∀ r, r ∈ db.tenantDomains ↔ r ∈ w.db.tenantDomains ∧ r.id ≠ d'.id) ∧
        db.tenantDomains.Sublist w.db.tenantDomains := by
    intro db hdb
    rw [(deleteClaim_ok hdb).1]
    refine ⟨fun r => ?_, Table.delete_sublist _ _⟩
    rw [Table.mem_delete]
    refine and_congr_right fun hr => ?_
    rw [Bool.and_eq_false_iff, decide_eq_false_iff_not, decide_eq_false_iff_not]
    refine ⟨?_, Or.inr⟩
    rintro (htenant | hne)
    · exact fun heq => htenant (by rw [Table.eq_of_key_eq hpkey hr hd heq])
    · exact hne
  -- The transaction, once it is settled what the zone becomes.
  have hfinish : ∀ {zone : List String},
      releaseRecord p.env p.client w.zone d'.cfHostnameId answer = .ok zone →
      (∀ id, id ∈ zone ↔
        id ∈ w.zone ∧ (recordOf d'.cfHostnameId = some id → ¬ Accepted answer)) →
      (∃ e w', removeTurn p d'.tenantId w (toRecord d', answer) = (.error (.db e), w')) ∨
        ∃ w', removeTurn p d'.tenantId w (toRecord d', answer) = (.ok (), w') ∧
          Removed w w' [(toRecord d', answer)] := by
    intro zone hzone hmem
    rcases h with ⟨e, he, -⟩ | ⟨zone', hzone', ⟨e, -, h⟩ | ⟨db, hdb, h⟩⟩
    · rw [hzone] at he
      cases he
    · exact Or.inl ⟨e, _, h⟩
    · obtain rfl := Except.ok.inj (hzone.symm.trans hzone')
      refine Or.inr ⟨_, h, fun r => ?_, (hrows hdb).2, fun held => ?_⟩
      · rw [(hrows hdb).1 r, List.forall_mem_singleton]
        rfl
      · rw [List.forall_mem_singleton]
        exact hmem held
  have hgoes : recordOf d'.cfHostnameId = none ∨ ¬ Unreachable answer →
      goesOn (toRecord d', answer) = true := by
    intro hor
    rw [goesOn, Bool.or_eq_true, Bool.not_eq_true', decide_eq_true_eq, decide_eq_false_iff_not]
    exact hor
  rcases @releaseRecord_cases p.env p.client hcfg w.zone d'.cfHostnameId answer with
    ⟨hrec, hr⟩ | ⟨id, hrec, ⟨ha, hr⟩ | ⟨hu, e, hr⟩ | ⟨href, hr⟩⟩
  · rcases hfinish hr (by simp [hrec]) with hdb | hok
    · exact Or.inr (Or.inl hdb)
    · exact Or.inr (Or.inr ⟨hgoes (Or.inl hrec), hok⟩)
  · have hzone : ∀ held, held ∈ w.zone.filter (fun held => held ≠ id) ↔ held ∈ w.zone ∧
        (recordOf d'.cfHostnameId = some held → ¬ Accepted answer) := by
      intro held
      rw [hrec, List.mem_filter, decide_eq_true_eq]
      refine and_congr_right fun _ => ⟨fun hne heq => absurd (Option.some.inj heq).symm hne, ?_⟩
      exact fun hnot heq => hnot (by rw [heq]) ha
    rcases hfinish hr hzone with hdb | hok
    · exact Or.inr (Or.inl hdb)
    · exact Or.inr (Or.inr ⟨hgoes (Or.inr (accepted_ne ha).1), hok⟩)
  · refine Or.inl ⟨by simp [goesOn, toRecord, hrec, hu], ?_⟩
    rcases h with ⟨e', -, h⟩ | ⟨zone', hzone', -⟩
    · exact ⟨e', h⟩
    · rw [hr] at hzone'
      cases hzone'
  · rcases hfinish hr (by simp [(refused_ne href).2]) with hdb | hok
    · exact Or.inr (Or.inl hdb)
    · exact Or.inr (Or.inr ⟨hgoes (Or.inr (refused_ne href).1), hok⟩)

/-! ### The loop over the removals -/

/-- The domains are rows of the tenant as they are now, each once. -/
structure Snapshot (tenantId : Uuid) (w : World)
    (xs : List (DomainRecord × TransportResult)) : Prop where
  ids : (xs.map (·.1.id)).Nodup
  rows : ∀ x ∈ xs, ∃ d ∈ w.db.tenantDomains, d.tenantId = tenantId ∧ toRecord d = x.1

/-- The loop removes exactly what it gets to before it meets an unreachable Cloudflare. -/
theorem forEach_removeTurn (hcfg : customHostnamesConfigured p.env = true) {tenantId : Uuid}
    {xs : List (DomainRecord × TransportResult)}
    (hpkey : (w.db.tenantDomains.map (·.id)).Nodup) (hsnap : Snapshot tenantId w xs)
    (hok : StatementsSucceed (forEach (removeTurn p tenantId) w xs).1) :
    Removed w (forEach (removeTurn p tenantId) w xs).2 (xs.takeWhile goesOn) := by
  induction xs generalizing w with
  | nil => exact .refl w
  | cons x xs ih =>
    obtain ⟨domain, answer⟩ := x
    obtain ⟨d, hd, rfl, hdomain⟩ := hsnap.rows _ (List.mem_cons_self ..)
    obtain rfl : toRecord d = domain := hdomain
    have hids := List.nodup_cons.mp hsnap.ids
    rcases removeTurn_cases hcfg hpkey hd answer with
      ⟨hstop, e, hturn⟩ | ⟨e, w', hturn⟩ | ⟨hgo, w', hturn, hremoved⟩
    · rw [Machine.forEach_cons_error hturn, List.takeWhile_cons_of_neg (by simp [hstop])]
      exact .refl w
    · rw [Machine.forEach_cons_error hturn] at hok
      exact hok.elim
    · rw [Machine.forEach_cons_ok hturn] at hok ⊢
      rw [List.takeWhile_cons_of_pos hgo]
      refine hremoved.cons (ih (hpkey.sublist (hremoved.sub.map _)) ⟨hids.2, ?_⟩ hok)
      intro x hx
      obtain ⟨d', hd', htenant, hx'⟩ := hsnap.rows x (List.mem_cons_of_mem _ hx)
      refine ⟨d', (hremoved.rows d').mpr ⟨hd', ?_⟩, htenant, hx'⟩
      rw [List.forall_mem_singleton]
      intro hid
      refine hids.1 (List.mem_map.mpr ⟨x, hx, ?_⟩)
      rw [← hx']
      exact hid

theorem nodup_listDomains {db : Database} (h : (db.tenantDomains.map (·.id)).Nodup)
    (tenantId : Uuid) : ((listDomains db tenantId).map (·.id)).Nodup := by
  have hmap : (listDomains db tenantId).map (·.id)
      = (Table.orderBy TenantDomainRow.createdAt
          (db.tenantDomains.filter fun d => d.tenantId = tenantId)).map (·.id) := by
    rw [listDomains, List.map_map]
    rfl
  rw [hmap, ((Table.perm_orderBy _ _).map _).nodup_iff]
  exact h.sublist (List.filter_sublist.map _)

theorem snapshot_removals {a : DomainAction} {tenantId : Uuid} (ha : removesOf a = some tenantId)
    (hpkey : (w.db.tenantDomains.map (·.id)).Nodup) : Snapshot tenantId w (removals w a) := by
  cases a with
  | remove tenantId domainId answer =>
    obtain rfl := Option.some.inj ha
    rw [removals]
    cases hfind : findDomain w.db tenantId domainId with
    | none => exact ⟨List.nodup_nil, by simp⟩
    | some domain =>
      obtain ⟨d, hd, htenant, rfl, rfl⟩ := findDomain_eq_some hfind
      refine ⟨List.nodup_singleton _, fun x hx => ?_⟩
      obtain rfl := List.mem_singleton.mp hx
      exact ⟨d, hd, htenant, rfl⟩
  | releaseLapsed tenantId answers clock =>
    obtain rfl := Option.some.inj ha
    refine ⟨?_, fun x hx => ?_⟩
    · rw [removals, List.map_map]
      exact (nodup_listDomains hpkey tenantId).sublist (List.filter_sublist.map _)
    · obtain ⟨domain, hdomain, rfl⟩ := List.mem_map.mp hx
      exact mem_listDomains.mp (List.mem_filter.mp hdomain).1
  | _ => cases ha

/-- Both removing operations are the loop over their removals. -/
theorem exec_removals {a : DomainAction} {tenantId : Uuid} (ha : removesOf a = some tenantId) :
    step p w a = (forEach (removeTurn p tenantId) w (removals w a)).2 ∧
      (StatementsSucceed (exec p w a).1 →
        StatementsSucceed (forEach (removeTurn p tenantId) w (removals w a)).1) := by
  cases a with
  | remove tenantId domainId answer =>
    obtain rfl := Option.some.inj ha
    rw [step, exec, removals]
    cases hfind : findDomain w.db tenantId domainId with
    | none =>
      rw [removeDomain, hfind]
      exact ⟨rfl, id⟩
    | some domain =>
      obtain ⟨d, -, -, rfl, rfl⟩ := findDomain_eq_some hfind
      rw [Option.toList_some, List.map_singleton, Machine.forEach_singleton]
      exact ⟨rfl, id⟩
  | releaseLapsed tenantId answers clock =>
    obtain rfl := Option.some.inj ha
    rw [removals, Machine.forEach_map]
    exact ⟨rfl, fun h => statementsSucceed_map.mp (statementsSucceed_map.mp h)⟩
  | _ => cases ha

/-- **What is left after removing.** -/
theorem step_removed (hcfg : customHostnamesConfigured p.env = true) {a : DomainAction}
    {tenantId : Uuid} (ha : removesOf a = some tenantId)
    (hpkey : (w.db.tenantDomains.map (·.id)).Nodup) (hok : StatementsSucceed (exec p w a).1) :
    Removed w (step p w a) (reached w a) := by
  obtain ⟨hstep, hsucceed⟩ := exec_removals (p := p) (w := w) ha
  rw [hstep]
  exact forEach_removeTurn hcfg hpkey (snapshot_removals ha hpkey) (hsucceed hok)

/-! ### Actions that remove nothing -/

theorem not_removes {a : DomainAction} (ha : removesOf a = none) : ¬ a.Removes := by
  cases a with
  | remove tenantId domainId answer => cases ha
  | releaseLapsed tenantId answers clock => cases ha
  | _ => exact id

theorem reached_eq_nil {a : DomainAction} (ha : removesOf a = none) : reached w a = [] := by
  cases a with
  | remove tenantId domainId answer => cases ha
  | releaseLapsed tenantId answers clock => cases ha
  | _ => rfl

/-- The rows stay, as far as identity and record go. -/
theorem claimKey_subset {a : DomainAction} (ha : removesOf a = none) :
    w.db.tenantDomains.map claimKey ⊆ (step p w a).db.tenantDomains.map claimKey := by
  refine changes_invariant (p := p) (a := a)
    (I := fun w' => w.db.tenantDomains.map claimKey ⊆ w'.db.tenantDomains.map claimKey)
    (fun w₁ w₂ hc h => List.Subset.trans h ?_) (exec_changes a) (List.Subset.refl _)
  cases hc with
  | idle rows tenants recorded => rw [rows]; exact List.Subset.refl _
  | provisioned call action valid rows tenants newId newTenant newSlug active recorded =>
    rw [rows, List.map_append]
    exact List.subset_append_left _ _
  | attached call action hostname created claim answer inserted recorded =>
    rw [inserted.rows, List.map_append]
    exact List.subset_append_left _ _
  | refreshed current answer latest now action found live rows tenants active recorded =>
    rw [rows, Table.map_update (claimKey_recordAnswer latest now)]
    exact List.Subset.refl _
  | failed tenantId domainId message rows tenants active recorded =>
    rw [rows, Table.map_update (claimKey_recordFailure message)]
    exact List.Subset.refl _
  | removed tenantId domainId action rows tenants recorded => exact absurd action (not_removes ha)
  | primary target action found active rows tenants recorded =>
    rw [rows, map_claimKey_choosePrimary]
    exact List.Subset.refl _

/-- A record in the zone afterwards was there before, or has just been created for a row. -/
theorem mem_zone {a : DomainAction} (ha : removesOf a = none) (hok : Orderly p w a) {id : String}
    (hid : id ∈ (step p w a).zone) :
    id ∈ w.zone ∨ ∃ d ∈ (step p w a).db.tenantDomains, d.cfHostnameId = some id := by
  cases a with
  | provision call =>
    rw [step, exec, Machine.discard_snd, provisionTenant_zone] at hid
    exact Or.inl hid
  | attach call =>
    rw [step, exec, Machine.discard_snd] at hid ⊢
    rcases @attachDomain_cases p.env p.client w call with
      ⟨message, hr⟩ | ⟨hostname, created, -, -, hcreate, ⟨e, -, hr⟩ | ⟨db, r, hins, hr⟩⟩
    · rw [hr] at hid
      exact Or.inl hid
    · have hfailed := hok.1
      rw [exec, Machine.discard, hr] at hfailed
      exact hfailed.elim
    · rw [hr] at hid ⊢
      rcases List.mem_cons.mp hid with rfl | hid
      · refine Or.inr ⟨claimRow call hostname created, ?_, rfl⟩
        rw [(insertClaim_ok hins).rows]
        exact List.mem_append_right _ (List.mem_singleton_self _)
      · exact Or.inl hid
  | refresh tenantId domainId answer now =>
    rw [step, exec, Machine.discard_snd, refreshDomain_zone] at hid
    exact Or.inl hid
  | refreshAll tenantId answers clock =>
    rw [step, exec, Machine.discard_snd, refreshAllDomains_zone] at hid
    exact Or.inl hid
  | remove tenantId domainId answer => cases ha
  | setPrimary tenantId domainId =>
    rw [step, exec, Machine.discard_snd, setPrimaryDomain_zone] at hid
    exact Or.inl hid
  | releaseLapsed tenantId answers clock => cases ha
  | dropRecord id => exact Or.inl (List.mem_filter.mp hid).1

/-! ### Records of their own -/

/-- No two rows share a record, and no record has an empty id. -/
structure OwnRecords (rows : List TenantDomainRow) : Prop where
  unique : ∀ d ∈ rows, ∀ d' ∈ rows, ∀ id, d.cfHostnameId = some id →
    d'.cfHostnameId = some id → d.id = d'.id
  nonempty : ∀ d ∈ rows, d.cfHostnameId ≠ some ""

theorem OwnRecords.of_keys {rows rows' : List TenantDomainRow} (h : OwnRecords rows)
    (hkeys : rows'.map claimKey ⊆ rows.map claimKey) : OwnRecords rows' := by
  have hmem : ∀ d' ∈ rows', ∃ d ∈ rows, d.id = d'.id ∧ d.cfHostnameId = d'.cfHostnameId := by
    intro d' hd'
    obtain ⟨d, hd, hkey⟩ := List.mem_map.mp (hkeys (List.mem_map_of_mem hd'))
    simp only [claimKey, Prod.mk.injEq] at hkey
    exact ⟨d, hd, hkey.1, hkey.2.2.2⟩
  refine ⟨fun d₁ h₁ d₂ h₂ id hid₁ hid₂ => ?_, fun d₁ h₁ => ?_⟩
  · obtain ⟨e₁, he₁, hi₁, hc₁⟩ := hmem d₁ h₁
    obtain ⟨e₂, he₂, hi₂, hc₂⟩ := hmem d₂ h₂
    rw [← hi₁, ← hi₂]
    exact h.unique e₁ he₁ e₂ he₂ id (hc₁.trans hid₁) (hc₂.trans hid₂)
  · obtain ⟨e₁, he₁, -, hc₁⟩ := hmem d₁ h₁
    rw [← hc₁]
    exact h.nonempty e₁ he₁

theorem OwnRecords.append {rows : List TenantDomainRow} {d : TenantDomainRow} (h : OwnRecords rows)
    (hne : d.cfHostnameId ≠ some "")
    (hfresh : ∀ d' ∈ rows, ∀ id, d.cfHostnameId = some id → d'.cfHostnameId ≠ some id) :
    OwnRecords (rows ++ [d]) where
  unique d₁ h₁ d₂ h₂ id hid₁ hid₂ := by
    rw [List.mem_append, List.mem_singleton] at h₁ h₂
    rcases h₁ with h₁ | rfl <;> rcases h₂ with h₂ | rfl
    · exact h.unique d₁ h₁ d₂ h₂ id hid₁ hid₂
    · exact absurd hid₁ (hfresh d₁ h₁ id hid₂)
    · exact absurd hid₂ (hfresh d₂ h₂ id hid₁)
    · rfl
  nonempty d₁ h₁ := by
    rw [List.mem_append, List.mem_singleton] at h₁
    rcases h₁ with h₁ | rfl
    · exact h.nonempty d₁ h₁
    · exact hne

theorem ownRecords_change {a : DomainAction} {w' : World} (hc : Change p a w w')
    (hfresh : ∀ created ∈ createdRecord p a, created.id ≠ "" ∧
      ∀ d ∈ w.db.tenantDomains, d.cfHostnameId ≠ some created.id)
    (h : OwnRecords w.db.tenantDomains) : OwnRecords w'.db.tenantDomains := by
  cases hc with
  | idle rows tenants recorded => rw [rows]; exact h
  | provisioned call action valid rows tenants newId newTenant newSlug active recorded =>
    rw [rows]
    exact h.append (by simp [subdomainRow]) (by simp [subdomainRow])
  | attached call action hostname created claim answer inserted recorded =>
    have hcreated : created ∈ createdRecord p a := by
      rw [action, createdRecord, answer]
      rfl
    obtain ⟨hne, hnew⟩ := hfresh created hcreated
    rw [inserted.rows]
    refine h.append (fun heq => hne (Option.some.inj heq)) fun d hd id hid => ?_
    obtain rfl := Option.some.inj hid
    exact hnew d hd
  | refreshed current answer latest now action found live rows tenants active recorded =>
    rw [rows]
    exact h.of_keys (by rw [Table.map_update (claimKey_recordAnswer latest now)]; exact fun _ => id)
  | failed tenantId domainId message rows tenants active recorded =>
    rw [rows]
    exact h.of_keys (by rw [Table.map_update (claimKey_recordFailure message)]; exact fun _ => id)
  | removed tenantId domainId action rows tenants recorded =>
    rw [rows]
    exact h.of_keys (List.map_subset _ (Table.delete_sublist _ _).subset)
  | primary target action found active rows tenants recorded =>
    rw [rows]
    exact h.of_keys (by rw [map_claimKey_choosePrimary]; exact fun _ => id)

theorem ownRecords_step {a : DomainAction} (hok : Orderly p w a)
    (h : OwnRecords w.db.tenantDomains) : OwnRecords (step p w a).db.tenantDomains := by
  have hother : createdRecord p a = none → OwnRecords (step p w a).db.tenantDomains := by
    intro hnone
    refine changes_invariant (p := p) (a := a) (I := fun w => OwnRecords w.db.tenantDomains)
      (fun w₁ w₂ hc h => ownRecords_change hc ?_ h) (exec_changes a) h
    rw [hnone]
    simp
  cases a with
  | attach call =>
    refine ownRecords_change (attachDomain_change call) (fun created hcreated => ?_) h
    obtain ⟨hne, -, hnew⟩ := hok.2 created hcreated
    exact ⟨hne, hnew⟩
  | _ => exact hother rfl

/-! ### Orphans -/

/-- What holds as long as no delete of a live record is refused. -/
structure InStep (env : Env) (w : World) : Prop where
  registered : Registered env w.db.tenants w.db.tenantDomains
  records : OwnRecords w.db.tenantDomains
  noOrphan : NoOrphan w

theorem accepted_or_refused {x : DomainRecord × TransportResult} {id : String}
    (hgo : goesOn x = true) (hrec : recordOf x.1.cfHostnameId = some id) :
    Accepted x.2 ∨ Refused x.2 := by
  have hreachable : ¬ Unreachable x.2 := by simpa [goesOn, hrec] using hgo
  rcases call_cases ⟨"", fun _ => ""⟩ x.2 with ⟨h, -⟩ | ⟨h, -⟩ | ⟨h, -⟩
  · exact Or.inl h
  · exact absurd h hreachable
  · exact Or.inr h

theorem recordOf_eq_some {cfHostnameId : Option String} {id : String}
    (h : cfHostnameId = some id) (hne : cfHostnameId ≠ some "") :
    recordOf cfHostnameId = some id := by
  subst h
  rw [recordOf, Option.filter_some, if_pos]
  exact decide_eq_true fun h => hne (congrArg some h)

section Removing

variable {a : DomainAction} {tenantId : Uuid}

/-- A removal that was reached and whose record is still there afterwards was refused. -/
theorem refused_of_mem_zone (ha : removesOf a = some tenantId) (hin : InStep p.env w)
    (hremoved : Removed w (step p w a) (reached w a)) {x : DomainRecord × TransportResult}
    (hx : x ∈ reached w a) {id : String} (hid : id ∈ (step p w a).zone)
    (hrec : x.1.cfHostnameId = some id) : id ∈ w.zone ∧ Refused x.2 := by
  obtain ⟨hzone, hkept⟩ := (hremoved.zone id).mp hid
  obtain ⟨d, hd, -, hdx⟩ := (snapshot_removals ha hin.registered.rows_pkey).rows x
    ((List.takeWhile_sublist _).subset hx)
  have hrec' : recordOf x.1.cfHostnameId = some id := by
    refine recordOf_eq_some hrec ?_
    rw [← hdx]
    exact hin.records.nonempty d hd
  rcases accepted_or_refused (List.mem_takeWhile_imp hx) hrec' with h | h
  · exact absurd h (hkept x hx hrec')
  · exact ⟨hzone, h⟩

/-- A refused removal leaves its record. -/
theorem mem_zone_of_refused (ha : removesOf a = some tenantId) (hin : InStep p.env w)
    (hremoved : Removed w (step p w a) (reached w a)) {x : DomainRecord × TransportResult}
    (hx : x ∈ reached w a) {id : String} (hid : id ∈ w.zone) (hrec : x.1.cfHostnameId = some id)
    (hrefused : Refused x.2) : id ∈ (step p w a).zone := by
  have hsnap := snapshot_removals ha hin.registered.rows_pkey
  have hsub := List.takeWhile_sublist (l := removals w a) goesOn
  refine (hremoved.zone id).mpr ⟨hid, fun y hy hy' => ?_⟩
  obtain ⟨d, hd, -, hdx⟩ := hsnap.rows x (hsub.subset hx)
  obtain ⟨e, he, -, hey⟩ := hsnap.rows y (hsub.subset hy)
  have hsame : x.1.id = y.1.id := by
    rw [← hdx, ← hey]
    refine hin.records.unique d hd e he id ?_ ?_
    · rw [← hdx] at hrec
      exact hrec
    · rw [← hey] at hy'
      exact (Option.filter_eq_some_iff.mp hy').1
  obtain rfl := Table.eq_of_key_eq (g := fun x : DomainRecord × TransportResult => x.1.id)
    hsnap.ids (hsub.subset hx) (hsub.subset hy) hsame
  exact (refused_ne hrefused).2

/-- A row whose record is still there afterwards is still there, when no live delete is refused. -/
theorem mem_of_heeded (ha : removesOf a = some tenantId) (hin : InStep p.env w)
    (hremoved : Removed w (step p w a) (reached w a)) (hheeded : DeletesHeeded w a) :
    ∀ d ∈ w.db.tenantDomains, ∀ id ∈ (step p w a).zone, d.cfHostnameId = some id →
      d ∈ (step p w a).db.tenantDomains := by
  intro d hd id hid hrec
  refine (hremoved.rows d).mpr ⟨hd, fun x hx heq => ?_⟩
  obtain ⟨e, he, -, hex⟩ := (snapshot_removals ha hin.registered.rows_pkey).rows x
    ((List.takeWhile_sublist _).subset hx)
  have hed : e = d := Table.eq_of_key_eq hin.registered.rows_pkey he hd (by rw [heq, ← hex]; rfl)
  have hxrec : x.1.cfHostnameId = some id := by
    rw [← hex, hed]
    exact hrec
  obtain ⟨hzone, hrefused⟩ := refused_of_mem_zone ha hin hremoved hx hid hxrec
  exact hheeded x hx id hzone hxrec hrefused

end Removing

/-- For one action: nothing is orphaned exactly when no delete of a live record is refused. -/
theorem noOrphan_step (hcfg : customHostnamesConfigured p.env = true) {a : DomainAction}
    (hin : InStep p.env w) (hok : Orderly p w a) :
    NoOrphan (step p w a) ∧ Released w (step p w a) ↔ DeletesHeeded w a := by
  cases ha : removesOf a with
  | none =>
    have hkeys := claimKey_subset (p := p) (w := w) ha
    have hheeded : DeletesHeeded w a := by
      rw [DeletesHeeded, reached_eq_nil ha]
      simp
    refine iff_of_true ⟨fun id hid => ?_, fun d hd hgone => ?_⟩ hheeded
    · rcases mem_zone ha hok hid with hid | hrow
      · obtain ⟨d, hd, hrec⟩ := hin.noOrphan id hid
        obtain ⟨d', hd', hkey⟩ := List.mem_map.mp (hkeys (List.mem_map_of_mem hd))
        simp only [claimKey, Prod.mk.injEq] at hkey
        exact ⟨d', hd', hkey.2.2.2.trans hrec⟩
      · exact hrow
    · obtain ⟨d', hd', hkey⟩ := List.mem_map.mp (hkeys (List.mem_map_of_mem hd))
      simp only [claimKey, Prod.mk.injEq] at hkey
      exact absurd hkey.1 (hgone d' hd')
  | some tenantId =>
    have hremoved := step_removed hcfg ha hin.registered.rows_pkey hok.1
    constructor
    · rintro ⟨-, hreleased⟩ x hx id hid hrec hrefused
      obtain ⟨d, hd, -, hdx⟩ := (snapshot_removals ha hin.registered.rows_pkey).rows x
        ((List.takeWhile_sublist _).subset hx)
      refine hreleased d hd (fun d' hd' heq => ?_) id
        (mem_zone_of_refused ha hin hremoved hx hid hrec hrefused) (by rw [← hrec, ← hdx]; rfl)
      refine ((hremoved.rows d').mp hd').2 x hx ?_
      rw [heq, ← hdx]
      rfl
    · intro hheeded
      have hkept := mem_of_heeded ha hin hremoved hheeded
      refine ⟨fun id hid => ?_, fun d hd hgone id hid hrec => ?_⟩
      · obtain ⟨d, hd, hrec⟩ := hin.noOrphan id ((hremoved.zone id).mp hid).1
        exact ⟨d, hkept d hd id hid hrec, hrec⟩
      · exact hgone d (hkept d hd id hid hrec) rfl

/-! ### Runs -/

theorem inStep_initial (users : List UserRow) : InStep p.env (initial users) :=
  ⟨registered_run users [], ⟨by simp [initial], by simp [initial]⟩, by simp [NoOrphan, initial]⟩

theorem inStep_step (hcfg : customHostnamesConfigured p.env = true) {a : DomainAction}
    (hin : InStep p.env w) (hok : Orderly p w a) (hheeded : DeletesHeeded w a) :
    InStep p.env (step p w a) where
  registered := changes_invariant (p := p) (a := a)
    (I := fun w => Registered p.env w.db.tenants w.db.tenantDomains)
    (fun _ _ hc h => registered_change hc h) (exec_changes a) hin.registered
  records := ownRecords_step hok hin.records
  noOrphan := ((noOrphan_step hcfg hin hok).mpr hheeded).1

/-- **When records are orphaned.** On a configured platform whose statements succeed, every step of
a run leaves each record referenced by a row, and deletes a row only when its record is gone,
exactly when in no step a delete is refused for a record that Cloudflare still holds. -/
theorem noOrphan_iff (p : Platform) (hcfg : customHostnamesConfigured p.env = true)
    (users : List UserRow) (as : List DomainAction)
    (horderly : Meets (step p) (Orderly p) (initial users) as) :
    Meets (step p) (fun w a => NoOrphan (step p w a) ∧ Released w (step p w a)) (initial users) as ↔
      Meets (step p) DeletesHeeded (initial users) as :=
  Meets.iff_of_invariant (I := InStep p.env) (fun _ _ hin hok => inStep_step hcfg hin hok)
    (fun _ _ hin hok => noOrphan_step hcfg hin hok) (inStep_initial users) horderly

/-- A tenant attaches a hostname and removes it again. -/
def removeRun (answer : TransportResult) : List DomainAction :=
  [.provision (provisionCall "grace" "Grace" 1 11),
    .attach ⟨1, "learn.institute.edu",
      answerAbout "cf-1" "learn.institute.edu" "pending" "initializing", 12, 5, 5⟩,
    .remove 1 12 answer]

theorem noOrphan_iff_accepted :
    Meets (step lamplight) (fun w a => NoOrphan (step lamplight w a) ∧
        Released w (step lamplight w a)) (initial [operator])
      (removeRun (.ok { status := 200, json := .obj [("success", .bool true)] })) :=
  (noOrphan_iff lamplight (by decide) [operator] _ (by decide)).mpr (by decide)

/-- A token without the scope to delete: the row goes and the record stays. -/
theorem orphan_forbidden :
    customHostnamesConfigured lamplight.env = true ∧
      Meets (step lamplight) (Orderly lamplight) (initial [operator]) (removeRun (refusal 403)) ∧
      ¬ NoOrphan (run (step lamplight) (initial [operator]) (removeRun (refusal 403))) := by
  decide

end LampLight
