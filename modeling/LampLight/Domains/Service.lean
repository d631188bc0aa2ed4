import LampLight.Cloudflare
import LampLight.Foundation.Machine
import LampLight.Repositories.Entitlements
import LampLight.Tenancy.Host

/-!
# Attaching, checking and removing a tenant's own domains

The operations work on two stores without a common transaction: the database, and the records
Cloudflare holds. `World` has both, with a log of the answers that were recorded in a row.

What the environment decides is an argument of each operation: what each call to Cloudflare came
back with, the readings of the clocks, the id of a new row. An operation returns its result or what
it threw, next to the world it leaves behind, since an exception undoes only its own transaction.

## Main definitions

* `attachDomain`, `refreshDomain`, `refreshAllDomains`, `removeDomain`, `setPrimaryDomain`,
  `releaseLapsedClaims`
-/

namespace LampLight

open Js (Json)
open Cloudflare

/-! ### Reads -/

/-- A domain as the settings page shows it. -/
structure DomainRecord where
  id : Uuid
  hostname : String
  isPrimary : Bool
  status : DomainStatus
  dnsRecords : List DnsRecord
  lastError : Option String
  verifiedAt : Option Instant
  claimExpiresAt : Option Instant
  cfHostnameId : Option String
deriving DecidableEq

/-- What is shown of a row. -/
def toRecord (row : TenantDomainRow) : DomainRecord where
  id := row.id
  hostname := row.hostname
  isPrimary := row.isPrimary
  status := row.verificationStatus
  dnsRecords := row.dnsRecords
  lastError := row.lastError
  verifiedAt := row.verifiedAt
  claimExpiresAt := row.claimExpiresAt
  cfHostnameId := row.cfHostnameId

/-- The domains of an institute, the oldest first. -/
def listDomains (db : Database) (tenantId : Uuid) : List DomainRecord :=
  (Table.orderBy TenantDomainRow.createdAt
    (db.tenantDomains.filter fun d => d.tenantId = tenantId)).map toRecord

/-- One domain of an institute. -/
def findDomain (db : Database) (tenantId id : Uuid) : Option DomainRecord :=
  (db.tenantDomains.find? fun d => d.tenantId = tenantId && d.id = id).map toRecord

/-- The tenant's primary hostname. Only an active domain can be primary as far as this goes. -/
def findPrimaryDomain (db : Database) (tenantId : Uuid) : Option DomainRecord :=
  (db.tenantDomains.find? fun d =>
    d.tenantId = tenantId && d.isPrimary && d.verificationStatus = .active).map toRecord

/-! ### Writes -/

/-- The hostnames of the rows that resolve. -/
def activeHostnames (rows : List TenantDomainRow) : List String :=
  (rows.filter fun d => d.verificationStatus = .active).map (·.hostname)

namespace Database

/-- `insert into tenant_domains`. -/
def insertTenantDomain (db : Database) (row : TenantDomainRow) : Except DbError Database :=
  checked
    [(.uniqueViolation "tenant_domains_pkey", db.tenantDomains.any fun d => d.id = row.id),
      (.foreignKeyViolation "tenant_domains_tenant_id_tenants_id_fk", db.noTenant row.tenantId),
      (.uniqueViolation "tenant_domains_tenant_id_hostname_key", db.tenantDomains.any fun d =>
        d.tenantId = row.tenantId && d.hostname = row.hostname),
      (.uniqueViolation "tenant_domains_active_hostname_key",
        !decide (activeHostnames (db.tenantDomains ++ [row])).Nodup)]
    { db with tenantDomains := db.tenantDomains ++ [row] }

/-- `update tenant_domains set … where tenant_id = … and id = …`, with columns that only the index
on active hostnames constrains. -/
def updateTenantDomain (db : Database) (tenantId id : Uuid)
    (set : TenantDomainRow → TenantDomainRow) : Except DbError Database :=
  let rows := Table.update (fun d => d.tenantId = tenantId && d.id = id) set db.tenantDomains
  checked
    [(.uniqueViolation "tenant_domains_active_hostname_key",
      !decide (activeHostnames rows).Nodup)]
    { db with tenantDomains := rows }

/-- `delete from tenant_domains`. -/
def deleteTenantDomain (db : Database) (tenantId id : Uuid) : Database :=
  { db with
    tenantDomains := Table.delete (fun d => d.tenantId = tenantId && d.id = id) db.tenantDomains }

end Database

/-! ### What the writes do -/

section Writes

variable {db db' : Database} {row : TenantDomainRow} {tenantId id : Uuid}

/-- A row that went in is new, belongs to a tenant, is the tenant's only row of its hostname, and
leaves the active hostnames unique. -/
structure Inserted (db db' : Database) (row : TenantDomainRow) : Prop where
  rows : db'.tenantDomains = db.tenantDomains ++ [row]
  tenants : db'.tenants = db.tenants
  fresh : ∀ d ∈ db.tenantDomains, d.id ≠ row.id
  tenant : ∃ t ∈ db.tenants, t.id = row.tenantId
  hostname : ∀ d ∈ db.tenantDomains, d.tenantId = row.tenantId → d.hostname ≠ row.hostname
  active : (activeHostnames db'.tenantDomains).Nodup

theorem Database.insertTenantDomain_ok (h : db.insertTenantDomain row = .ok db') :
    Inserted db db' row := by
  obtain ⟨hcs, rfl⟩ := Database.checked_ok.mp h
  simp only [List.mem_cons, List.not_mem_nil, or_false, forall_eq_or_imp, forall_eq,
    Database.noTenant, Bool.not_eq_false', List.any_eq_true, List.any_eq_false, decide_eq_true_eq,
    Bool.and_eq_true] at hcs
  obtain ⟨hfresh, htenant, hhostname, hactive⟩ := hcs
  exact ⟨rfl, rfl, hfresh, htenant, fun d hd ht hh => hhostname d hd ⟨ht, hh⟩, hactive⟩

theorem Database.updateTenantDomain_ok {set : TenantDomainRow → TenantDomainRow}
    (h : db.updateTenantDomain tenantId id set = .ok db') :
    db' = { db with
      tenantDomains :=
        Table.update (fun d => d.tenantId = tenantId && d.id = id) set db.tenantDomains } ∧
      (activeHostnames db'.tenantDomains).Nodup := by
  obtain ⟨hcs, rfl⟩ := Database.checked_ok.mp h
  refine ⟨rfl, ?_⟩
  simpa using hcs _ (List.mem_cons_self ..)

theorem Database.updateTenantDomain_of_nodup {set : TenantDomainRow → TenantDomainRow}
    (h : (activeHostnames (Table.update (fun d => d.tenantId = tenantId && d.id = id) set
      db.tenantDomains)).Nodup) : ∃ db', db.updateTenantDomain tenantId id set = .ok db' := by
  refine ⟨_, Database.checked_ok.mpr ⟨?_, rfl⟩⟩
  simpa using h

theorem findDomain_eq_some {domain : DomainRecord} (h : findDomain db tenantId id = some domain) :
    ∃ d ∈ db.tenantDomains, d.tenantId = tenantId ∧ d.id = id ∧ domain = toRecord d := by
  obtain ⟨d, hd, rfl⟩ := Option.map_eq_some_iff.mp h
  have hp := List.find?_some hd
  simp only [Bool.and_eq_true, decide_eq_true_eq] at hp
  exact ⟨d, List.mem_of_find?_eq_some hd, hp.1, hp.2, rfl⟩

theorem mem_listDomains {domain : DomainRecord} :
    domain ∈ listDomains db tenantId ↔
      ∃ d ∈ db.tenantDomains, d.tenantId = tenantId ∧ toRecord d = domain := by
  simp [listDomains, and_assoc]

end Writes

/-- The active hostnames are distinct when two active rows never share one. -/
theorem nodup_activeHostnames {rows : List TenantDomainRow} :
    (activeHostnames rows).Nodup ↔ rows.Pairwise fun d d' =>
      d.verificationStatus = .active → d'.verificationStatus = .active →
        d.hostname ≠ d'.hostname := by
  rw [activeHostnames, List.Nodup, List.pairwise_map, List.pairwise_filter]
  simp only [decide_eq_true_eq, ne_eq]

/-- An update of one row keeps the active hostnames distinct when no other active row has the
hostname of the row, or the row is not active afterwards. -/
theorem nodup_activeHostnames_update {rows : List TenantDomainRow} {tenantId id : Uuid}
    {f : TenantDomainRow → TenantDomainRow} (hf : ∀ d, (f d).hostname = d.hostname)
    (hpkey : (rows.map (·.id)).Nodup) (hnd : (activeHostnames rows).Nodup)
    (hfree : ∀ d ∈ rows, d.tenantId = tenantId → d.id = id → (f d).verificationStatus = .active →
      ∀ d' ∈ rows, d'.id ≠ id → d'.verificationStatus = .active → d'.hostname ≠ d.hostname) :
    (activeHostnames
      (Table.update (fun d => d.tenantId = tenantId && d.id = id) f rows)).Nodup := by
  rw [nodup_activeHostnames] at hnd ⊢
  rw [List.Nodup, List.pairwise_map] at hpkey
  rw [Table.update, List.pairwise_map]
  refine (hnd.and hpkey).imp_of_mem fun {a b} ha hb hab => ?_
  obtain ⟨hdistinct, hne⟩ := hab
  by_cases hqa : a.tenantId = tenantId ∧ a.id = id
  · have hqb : ¬ (b.tenantId = tenantId ∧ b.id = id) := fun h => hne (hqa.2.trans h.2.symm)
    simp only [← Bool.decide_and, decide_eq_true_eq, if_pos hqa, if_neg hqb, hf]
    intro hactive hactive'
    exact (hfree a ha hqa.1 hqa.2 hactive b hb (fun h => hne (hqa.2.trans h.symm)) hactive').symm
  · by_cases hqb : b.tenantId = tenantId ∧ b.id = id
    · simp only [← Bool.decide_and, decide_eq_true_eq, if_neg hqa, if_pos hqb, hf]
      intro hactive hactive'
      exact hfree b hb hqb.1 hqb.2 hactive' a ha (fun h => hne (h.trans hqb.2.symm)) hactive
    · simp only [← Bool.decide_and, decide_eq_true_eq, if_neg hqa, if_neg hqb]
      exact hdistinct

/-! ### The world of the domain lifecycle -/

/-- The database, what Cloudflare holds, and a record of its answers. -/
structure World where
  db : Database := {}
  /-- The custom-hostname records Cloudflare holds for the platform. -/
  zone : List String := []
  /-- Which answer was recorded in which row, the latest first. -/
  recorded : List (Uuid × TransportResult) := []

/-- What escapes an operation. -/
inductive Thrown where
  | db (e : DbError)
  | cloudflare (e : ClientError)
  | mail
deriving DecidableEq

/-- The last answer recorded in a row. -/
def World.lastRecorded (w : World) (rowId : Uuid) : Option TransportResult :=
  w.recorded.lookup rowId

/-- How long an unverified claim lives before the sweep releases it. -/
def CLAIM_TTL_MS : ℤ := 14 * 24 * 60 * 60 * 1000

/-- A Cloudflare failure as something the reader can act on. -/
def explain : ClientError → String
  | .cloudflare .taken _ => "That hostname is already managed elsewhere. " ++
      "If it is yours, remove it from the other provider first."
  | .cloudflare .auth _ =>
      "Custom domains are misconfigured on this instance. Ask the operator."
  | .cloudflare .unavailable _ =>
      "Could not reach Cloudflare just now. Try again in a moment."
  | .cloudflare .invalid message => "Cloudflare would not accept that hostname: " ++ message
  | .other => "Something went wrong adding that domain."

/-- The id of a row's record at Cloudflare, when the row has one. -/
def recordOf (cfHostnameId : Option String) : Option String :=
  cfHostnameId.filter fun id => id ≠ ""

/-! ### Attaching -/

/-- What an admin who attaches a domain is told. -/
inductive AttachResult where
  | ok (domain : DomainRecord)
  | error (message : String)
deriving DecidableEq

/-- One request to attach a domain, with what the environment answers during it. -/
structure AttachCall where
  tenantId : Uuid
  rawHostname : String
  answer : TransportResult
  rowId : Uuid
  now : Instant
  createdAt : Instant

/-- The row a claim starts as. -/
def claimRow (call : AttachCall) (hostname : String) (created : CustomHostname) :
    TenantDomainRow where
  id := call.rowId
  tenantId := call.tenantId
  hostname := hostname
  isPrimary := false
  verificationStatus := created.status
  cfHostnameId := some created.id
  dnsRecords := created.records
  claimExpiresAt := some (call.now + CLAIM_TTL_MS)
  lastError := none
  verifiedAt := none
  createdAt := call.createdAt

/-- The transaction that records a claim. -/
def insertClaim (db : Database) (call : AttachCall) (hostname : String)
    (created : CustomHostname) : Except DbError Database := do
  let inserted ← db.insertTenantDomain (claimRow call hostname created)
  inserted.insertAuditLog
    { tenantId := call.tenantId
      actorUserId := none
      action := "domain.attached"
      targetType := "tenant_domain"
      targetId := some call.rowId
      metadataJson := [("hostname", .str hostname)] }

/-- Claims a hostname for an institute and registers it with Cloudflare. -/
def attachDomain (env : Env) (client : Client) (w : World) (call : AttachCall) :
    Except Thrown AttachResult × World :=
  if !customHostnamesConfigured env then
    (.ok (.error "Custom domains are not configured on this instance. Ask the operator."), w)
  else
    match claimableHostname call.rawHostname env.platformApexDomain with
    | .refused .platform =>
      (.ok (.error ("Names under " ++ env.platformApexDomain ++
        " belong to the platform. Use a domain you own.")), w)
    | .refused .malformed => (.ok (.error "That does not look like a domain name."), w)
    | .ok hostname =>
      if w.db.tenantDomains.any fun d =>
          d.tenantId = call.tenantId && d.hostname = hostname then
        (.ok (.error "You have already added that domain."), w)
      else
        match create client call.answer with
        | .error e => (.ok (.error (explain e)), w)
        | .ok created =>
          let held := { w with zone := created.id :: w.zone }
          match insertClaim w.db call hostname created with
          | .error e => (.error (.db e), held)
          | .ok db =>
            let saved := match findDomain db call.tenantId call.rowId with
              | some domain => .ok domain
              | none => .error "Could not save that domain."
            (.ok saved, { held with
              db := db
              recorded := (call.rowId, call.answer) :: w.recorded })

/-! ### Checking -/

/-- What an answer about a hostname writes into its row. A live domain does not expire. -/
def recordAnswer (latest : CustomHostname) (now : Instant) (row : TenantDomainRow) :
    TenantDomainRow :=
  { row with
    verificationStatus := latest.status
    dnsRecords := latest.records
    lastError := latest.message
    verifiedAt := if latest.status = .active then some now else none
    claimExpiresAt := if latest.status = .active then none else some (now + CLAIM_TTL_MS) }

/-- What a failed check writes into the row. -/
def recordFailure (message : String) (row : TenantDomainRow) : TenantDomainRow :=
  { row with verificationStatus := .failed, lastError := some message }

/-- Marks a domain as failed, with the reason. -/
def recordError (w : World) (tenantId domainId : Uuid) (message : String) :
    Except Thrown (Option DomainRecord) × World :=
  match w.db.updateTenantDomain tenantId domainId (recordFailure message) with
  | .error e => (.error (.db e), w)
  | .ok db => (.ok (findDomain db tenantId domainId), { w with db := db })

/-- Re-reads one domain's status from Cloudflare and records it. Cloudflare being unreachable is not
the domain failing. -/
def refreshDomain (env : Env) (client : Client) (w : World) (tenantId domainId : Uuid)
    (answer : TransportResult) (now : Instant) : Except Thrown (Option DomainRecord) × World :=
  match findDomain w.db tenantId domainId with
  | none => (.ok none, w)
  | some current =>
    if recordOf current.cfHostnameId = none then (.ok (some current), w)
    else if !customHostnamesConfigured env then (.ok (some current), w)
    else
      match get client answer with
      | .error (.cloudflare .unavailable _) => (.ok (some current), w)
      | .error e => recordError w tenantId domainId (explain e)
      | .ok latest =>
        match w.db.updateTenantDomain tenantId domainId (recordAnswer latest now) with
        | .error e => (.error (.db e), w)
        | .ok db =>
          (.ok (findDomain db tenantId domainId),
            { w with db := db, recorded := (domainId, answer) :: w.recorded })

/-- One turn of the loop over a tenant's domains. Active domains are not re-checked. -/
def refreshTurn (env : Env) (client : Client) (tenantId : Uuid)
    (answers : Uuid → TransportResult) (clock : Uuid → Instant) (w : World)
    (domain : DomainRecord) : Except Thrown Unit × World :=
  if domain.status = .active then (.ok (), w)
  else Machine.discard (refreshDomain env client w tenantId domain.id (answers domain.id)
    (clock domain.id))

/-- Refreshes every domain of one tenant. -/
def refreshAllDomains (env : Env) (client : Client) (w : World) (tenantId : Uuid)
    (answers : Uuid → TransportResult) (clock : Uuid → Instant) :
    Except Thrown (List DomainRecord) × World :=
  let r := Machine.forEach (refreshTurn env client tenantId answers clock) w
    (listDomains w.db tenantId)
  (r.1.map fun _ => listDomains r.2.db tenantId, r.2)

/-! ### Removing -/

/-- The transaction that forgets a domain. -/
def deleteClaim (db : Database) (tenantId domainId : Uuid) (hostname : String) :
    Except DbError Database :=
  (db.deleteTenantDomain tenantId domainId).insertAuditLog
    { tenantId := tenantId
      actorUserId := none
      action := "domain.removed"
      targetType := "tenant_domain"
      targetId := some domainId
      metadataJson := [("hostname", .str hostname)] }

/-- What the call to Cloudflare at the start of a removal leaves of the zone, or what it throws.
Every failure but an unreachable Cloudflare is taken for the record being gone. -/
def releaseRecord (env : Env) (client : Client) (zone : List String)
    (cfHostnameId : Option String) (answer : TransportResult) : Except ClientError (List String) :=
  match recordOf cfHostnameId with
  | none => .ok zone
  | some id =>
    if !customHostnamesConfigured env then .ok zone
    else
      match remove client answer with
      | .ok () => .ok (zone.filter fun held => held ≠ id)
      | .error (.cloudflare .unavailable message) => .error (.cloudflare .unavailable message)
      | .error _ => .ok zone

/-- Cloudflare first, then the row. -/
def removeDomain (env : Env) (client : Client) (w : World) (tenantId domainId : Uuid)
    (answer : TransportResult) : Except Thrown Unit × World :=
  match findDomain w.db tenantId domainId with
  | none => (.ok (), w)
  | some domain =>
    match releaseRecord env client w.zone domain.cfHostnameId answer with
    | .error e => (.error (.cloudflare e), w)
    | .ok zone =>
      match deleteClaim w.db tenantId domainId domain.hostname with
      | .error e => (.error (.db e), { w with zone := zone })
      | .ok db => (.ok (), { w with db := db, zone := zone })

/-- The claim was never verified and has run out. -/
def lapsed (clock : Uuid → Instant) (domain : DomainRecord) : Bool :=
  domain.status ≠ .active && domain.claimExpiresAt.any fun at_ => at_ ≤ clock domain.id

/-- Deletes claims that were never verified before they lapsed, and counts them. -/
def releaseLapsedClaims (env : Env) (client : Client) (w : World) (tenantId : Uuid)
    (answers : Uuid → TransportResult) (clock : Uuid → Instant) : Except Thrown ℕ × World :=
  let domains := (listDomains w.db tenantId).filter (lapsed clock)
  let r := Machine.forEach
    (fun w domain => removeDomain env client w tenantId domain.id (answers domain.id)) w domains
  (r.1.map fun _ => domains.length, r.2)

/-! ### Choosing the primary domain -/

/-- `set is_primary = …`. -/
def setIsPrimary (value : Bool) (row : TenantDomainRow) : TenantDomainRow :=
  { row with isPrimary := value }

/-- The two updates: every other row of the tenant is demoted, then the chosen one promoted. -/
def choosePrimary (rows : List TenantDomainRow) (tenantId domainId : Uuid) :
    List TenantDomainRow :=
  Table.update (fun d => d.tenantId = tenantId && d.id = domainId) (setIsPrimary true)
    (Table.update (fun d => d.tenantId = tenantId && d.id ≠ domainId) (setIsPrimary false) rows)

/-- Makes an active domain the one address of its institute. -/
def setPrimaryDomain (w : World) (tenantId domainId : Uuid) : Except Thrown Bool × World :=
  match findDomain w.db tenantId domainId with
  | none => (.ok false, w)
  | some target =>
    if target.status ≠ .active then (.ok false, w)
    else
      let chosen := choosePrimary w.db.tenantDomains tenantId domainId
      match ({ w.db with tenantDomains := chosen } : Database).insertAuditLog
          { tenantId := tenantId
            actorUserId := none
            action := "domain.primary_changed"
            targetType := "tenant_domain"
            targetId := some domainId
            metadataJson := [("hostname", .str target.hostname)] } with
      | .error e => (.error (.db e), w)
      | .ok db => (.ok true, { w with db := db })

/-! ### What attaching and removing come to -/

section Outcomes

variable {env : Env} {client : Client} {w : World}

/-- Attaching is refused and leaves the world alone, or Cloudflare has created a record and then the
transaction either failed or recorded the claim. -/
theorem attachDomain_cases (call : AttachCall) :
    (∃ message, attachDomain env client w call = (.ok (.error message), w)) ∨
    ∃ hostname created, customHostnamesConfigured env = true ∧
      claimableHostname call.rawHostname env.platformApexDomain = .ok hostname ∧
      create client call.answer = .ok created ∧
      ((∃ e, insertClaim w.db call hostname created = .error e ∧
          attachDomain env client w call
            = (.error (.db e), { w with zone := created.id :: w.zone })) ∨
        ∃ db r, insertClaim w.db call hostname created = .ok db ∧
          attachDomain env client w call = (.ok r,
            { db := db
              zone := created.id :: w.zone
              recorded := (call.rowId, call.answer) :: w.recorded })) := by
  rw [attachDomain]
  split_ifs with hcfg
  · exact Or.inl ⟨_, rfl⟩
  cases hclaim : claimableHostname call.rawHostname env.platformApexDomain with
  | refused reason => cases reason <;> exact Or.inl ⟨_, rfl⟩
  | ok hostname =>
    dsimp only
    split_ifs with hexisting
    · exact Or.inl ⟨_, rfl⟩
    cases hcreate : create client call.answer with
    | error e => exact Or.inl ⟨_, rfl⟩
    | ok created =>
      dsimp only
      refine Or.inr ⟨hostname, created, by simpa using hcfg, rfl, rfl, ?_⟩
      cases hins : insertClaim w.db call hostname created with
      | error e => exact Or.inl ⟨e, rfl, rfl⟩
      | ok db => exact Or.inr ⟨db, _, rfl, rfl⟩

/-- Removing finds nothing, or stops at Cloudflare, or goes on to the transaction. -/
theorem removeDomain_cases (tenantId domainId : Uuid) (answer : TransportResult) :
    (findDomain w.db tenantId domainId = none ∧
      removeDomain env client w tenantId domainId answer = (.ok (), w)) ∨
    ∃ d ∈ w.db.tenantDomains, d.tenantId = tenantId ∧ d.id = domainId ∧
      ((∃ e, releaseRecord env client w.zone d.cfHostnameId answer = .error e ∧
          removeDomain env client w tenantId domainId answer = (.error (.cloudflare e), w)) ∨
        ∃ zone, releaseRecord env client w.zone d.cfHostnameId answer = .ok zone ∧
          ((∃ e, deleteClaim w.db tenantId domainId d.hostname = .error e ∧
              removeDomain env client w tenantId domainId answer
                = (.error (.db e), { w with zone := zone })) ∨
            ∃ db, deleteClaim w.db tenantId domainId d.hostname = .ok db ∧
              removeDomain env client w tenantId domainId answer
                = (.ok (), { w with db := db, zone := zone }))) := by
  rw [removeDomain]
  cases hfind : findDomain w.db tenantId domainId with
  | none => exact Or.inl ⟨rfl, rfl⟩
  | some domain =>
    obtain ⟨d, hd, ht, hid, rfl⟩ := findDomain_eq_some hfind
    refine Or.inr ⟨d, hd, ht, hid, ?_⟩
    dsimp only [toRecord]
    cases hrelease : releaseRecord env client w.zone d.cfHostnameId answer with
    | error e => exact Or.inl ⟨e, rfl, rfl⟩
    | ok zone =>
      refine Or.inr ⟨zone, rfl, ?_⟩
      dsimp only
      cases hdelete : deleteClaim w.db tenantId domainId d.hostname with
      | error e => exact Or.inl ⟨e, rfl, rfl⟩
      | ok db => exact Or.inr ⟨db, rfl, rfl⟩

/-- What the call at the start of a removal leaves of the zone, by the answer. -/
theorem releaseRecord_cases (hcfg : customHostnamesConfigured env = true) (zone : List String)
    (cfHostnameId : Option String) (answer : TransportResult) :
    (recordOf cfHostnameId = none ∧
      releaseRecord env client zone cfHostnameId answer = .ok zone) ∨
    ∃ id, recordOf cfHostnameId = some id ∧
      ((Accepted answer ∧ releaseRecord env client zone cfHostnameId answer
          = .ok (zone.filter fun held => held ≠ id)) ∨
        (Unreachable answer ∧ ∃ e, releaseRecord env client zone cfHostnameId answer = .error e) ∨
        (Refused answer ∧ releaseRecord env client zone cfHostnameId answer = .ok zone)) := by
  rw [releaseRecord]
  cases hid : recordOf cfHostnameId with
  | none => exact Or.inl ⟨rfl, rfl⟩
  | some id =>
    refine Or.inr ⟨id, rfl, ?_⟩
    rw [hcfg, remove]
    rcases call_cases client answer with ⟨h, envelope, hc⟩ | ⟨h, message, hc⟩ | ⟨h, e, hc, hne⟩
    · rw [hc]
      exact Or.inl ⟨h, rfl⟩
    · rw [hc]
      exact Or.inr (Or.inl ⟨h, _, rfl⟩)
    · rw [hc]
      refine Or.inr (Or.inr ⟨h, ?_⟩)
      -- The branch that takes a refusal for the record being gone.
      cases e with
      | other => rfl
      | cloudflare kind message =>
        cases kind with
        | unavailable => exact absurd rfl (hne message)
        | auth => rfl
        | taken => rfl
        | invalid => rfl

theorem findDomain_eq (hpkey : (w.db.tenantDomains.map (·.id)).Nodup) {d : TenantDomainRow}
    (hd : d ∈ w.db.tenantDomains) : findDomain w.db d.tenantId d.id = some (toRecord d) := by
  rw [findDomain, Table.find?_eq_some_of_unique hd (by simp) fun b hb hq => ?_, Option.map_some]
  rw [Bool.and_eq_true, decide_eq_true_eq, decide_eq_true_eq] at hq
  exact Table.eq_of_key_eq hpkey hb hd hq.2

theorem deleteClaim_ok {db db' : Database} {tenantId domainId : Uuid} {hostname : String}
    (h : deleteClaim db tenantId domainId hostname = .ok db') :
    db'.tenantDomains
        = Table.delete (fun d => d.tenantId = tenantId && d.id = domainId) db.tenantDomains ∧
      db'.tenants = db.tenants := by
  obtain rfl := Database.insertAuditLog_ok h
  exact ⟨rfl, rfl⟩

/-- The transaction that forgets a domain of a tenant there is cannot fail. -/
theorem exists_deleteClaim {db : Database} {tenantId : Uuid}
    (ht : ∃ t ∈ db.tenants, t.id = tenantId) (domainId : Uuid) (hostname : String) :
    ∃ db', deleteClaim db tenantId domainId hostname = .ok db' := by
  obtain ⟨t, ht, rfl⟩ := ht
  refine ⟨_, Database.checked_ok.mpr ⟨?_, rfl⟩⟩
  have htenant : ((db.deleteTenantDomain t.id domainId).tenants.any fun x => x.id = t.id) = true :=
    List.any_eq_true.mpr ⟨t, ht, decide_eq_true rfl⟩
  simp only [List.mem_cons, List.not_mem_nil, or_false, forall_eq_or_imp, forall_eq,
    Database.noTenant, htenant]
  exact ⟨rfl, rfl⟩

/-- Checking leaves the world alone, marks the row failed, or records in it the answer it was given.
Only the index on active hostnames can stop the statement. -/
theorem refreshDomain_cases (tenantId domainId : Uuid) (answer : TransportResult) (now : Instant) :
    (∃ r, refreshDomain env client w tenantId domainId answer now = (r, w)) ∨
    (∃ message db r, (∃ e, get client answer = .error e) ∧
      w.db.updateTenantDomain tenantId domainId (recordFailure message) = .ok db ∧
      refreshDomain env client w tenantId domainId answer now = (.ok r, { w with db := db })) ∨
    ∃ d ∈ w.db.tenantDomains, d.tenantId = tenantId ∧ d.id = domainId ∧ ∃ latest db r,
      get client answer = .ok latest ∧
      w.db.updateTenantDomain tenantId domainId (recordAnswer latest now) = .ok db ∧
      refreshDomain env client w tenantId domainId answer now = (.ok r,
        { w with db := db, recorded := (domainId, answer) :: w.recorded }) := by
  rw [refreshDomain]
  cases hfind : findDomain w.db tenantId domainId with
  | none => exact Or.inl ⟨_, rfl⟩
  | some current =>
    obtain ⟨d, hd, ht, hid, rfl⟩ := findDomain_eq_some hfind
    dsimp only
    split_ifs
    · exact Or.inl ⟨_, rfl⟩
    · exact Or.inl ⟨_, rfl⟩
    have hfail : ∀ (e : ClientError) (message : String),
        (∃ r, recordError w tenantId domainId message = (r, w)) ∨
          ∃ written db r, (∃ e', (.error e : Except ClientError CustomHostname) = .error e') ∧
            w.db.updateTenantDomain tenantId domainId (recordFailure written) = .ok db ∧
            recordError w tenantId domainId message = (.ok r, { w with db := db }) := by
      intro e message
      rw [recordError]
      cases hupd : w.db.updateTenantDomain tenantId domainId (recordFailure message) with
      | error e => exact Or.inl ⟨_, rfl⟩
      | ok db => exact Or.inr ⟨message, db, _, ⟨e, rfl⟩, hupd, rfl⟩
    cases hget : get client answer with
    | ok latest =>
      dsimp only
      cases hupd : w.db.updateTenantDomain tenantId domainId (recordAnswer latest now) with
      | error e => exact Or.inl ⟨_, rfl⟩
      | ok db => exact Or.inr (Or.inr ⟨d, hd, ht, hid, latest, db, _, rfl, hupd, rfl⟩)
    | error e =>
      cases e with
      | other => exact (hfail _ _).imp_right Or.inl
      | cloudflare kind message =>
        cases kind with
        | unavailable => exact Or.inl ⟨_, rfl⟩
        | auth => exact (hfail _ _).imp_right Or.inl
        | taken => exact (hfail _ _).imp_right Or.inl
        | invalid => exact (hfail _ _).imp_right Or.inl

/-- Checking a domain that has a record, with an accepted answer, comes down to one statement. -/
theorem refreshDomain_accepted (hcfg : customHostnamesConfigured env = true)
    (hpkey : (w.db.tenantDomains.map (·.id)).Nodup) {d : TenantDomainRow}
    (hd : d ∈ w.db.tenantDomains) (hrec : recordOf d.cfHostnameId ≠ none)
    {answer : TransportResult} (hanswer : Accepted answer) (now : Instant) :
    ∃ latest, get client answer = .ok latest ∧
      ((∃ e, w.db.updateTenantDomain d.tenantId d.id (recordAnswer latest now) = .error e ∧
          refreshDomain env client w d.tenantId d.id answer now = (.error (.db e), w)) ∨
        ∃ db r, w.db.updateTenantDomain d.tenantId d.id (recordAnswer latest now) = .ok db ∧
          refreshDomain env client w d.tenantId d.id answer now = (.ok r,
            { w with db := db, recorded := (d.id, answer) :: w.recorded })) := by
  obtain ⟨latest, hget⟩ := @exists_get client answer hanswer
  refine ⟨latest, hget, ?_⟩
  rw [refreshDomain, findDomain_eq hpkey hd]
  simp only [show (toRecord d).cfHostnameId = d.cfHostnameId from rfl, if_neg hrec, hcfg,
    Bool.not_true, Bool.false_eq_true, if_false, hget]
  cases w.db.updateTenantDomain d.tenantId d.id (recordAnswer latest now) with
  | error e => exact Or.inl ⟨e, rfl, rfl⟩
  | ok db => exact Or.inr ⟨db, _, rfl, rfl⟩

/-- A check that failed for another reason than that Cloudflare was out of reach. -/
theorem refreshDomain_recordError (hcfg : customHostnamesConfigured env = true)
    (hpkey : (w.db.tenantDomains.map (·.id)).Nodup) {d : TenantDomainRow}
    (hd : d ∈ w.db.tenantDomains) (hrec : recordOf d.cfHostnameId ≠ none) {answer : TransportResult}
    {now : Instant} {e : ClientError} (hget : get client answer = .error e)
    (hne : ∀ message, e ≠ .cloudflare .unavailable message) :
    refreshDomain env client w d.tenantId d.id answer now
      = recordError w d.tenantId d.id (explain e) := by
  rw [refreshDomain, findDomain_eq hpkey hd]
  simp only [show (toRecord d).cfHostnameId = d.cfHostnameId from rfl, if_neg hrec, hcfg,
    Bool.not_true, Bool.false_eq_true, if_false, hget]

/-- The other operations never speak to Cloudflare's records. -/
theorem refreshDomain_zone (tenantId domainId : Uuid) (answer : TransportResult) (now : Instant) :
    (refreshDomain env client w tenantId domainId answer now).2.zone = w.zone := by
  rcases @refreshDomain_cases env client w tenantId domainId answer now with
    ⟨r, hr⟩ | ⟨message, db, r, -, -, hr⟩ | ⟨d, -, -, -, latest, db, r, -, -, hr⟩ <;> rw [hr]

theorem refreshAllDomains_zone (tenantId : Uuid) (answers : Uuid → TransportResult)
    (clock : Uuid → Instant) :
    (refreshAllDomains env client w tenantId answers clock).2.zone = w.zone := by
  refine Machine.forEach_invariant (I := fun w' : World => w'.zone = w.zone)
    (fun s d _ hs => ?_) rfl
  rw [refreshTurn]
  split_ifs
  · exact hs
  · exact (refreshDomain_zone tenantId d.id _ _).trans hs

theorem setPrimaryDomain_zone (tenantId domainId : Uuid) :
    (setPrimaryDomain w tenantId domainId).2.zone = w.zone := by
  rw [setPrimaryDomain]
  split
  · rfl
  · split_ifs
    · rfl
    · dsimp only
      split <;> rfl

end Outcomes

end LampLight
