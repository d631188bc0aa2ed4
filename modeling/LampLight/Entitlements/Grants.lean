import LampLight.Foundation.JsDate
import LampLight.Foundation.Machine
import LampLight.Repositories.Entitlements
import LampLight.Storage.Keys

/-!
# Manual enrollment

An admin grants and takes away access by hand. Each of the two operations is one transaction that
changes the enrollments and writes one audit row about it, or does neither.

Any statement may fail for reasons outside the program, the commit included; which ones do is an
argument. A failure ends the operation and undoes what it has done.

## Main definitions

* `grantEnrollment`, `revokeEnrollment`

## Main results

* `grantEnrollment_ok`, `revokeEnrollment_ok` — what an operation that returns has done
-/

namespace LampLight

open Js

/-! ### Statements -/

/-- The statements of the two transactions, any of which can fail. -/
inductive EnrollmentStatement
  | membership | programs | courses | existing | insert | delete | audit | commit
deriving DecidableEq

/-- Why a transaction failed. -/
inductive EnrollmentFailure where
  | db (e : DbError)
  /-- A date that has no text cannot be sent to the database. -/
  | invalidDate
deriving DecidableEq

/-- A statement that the environment may make fail. -/
def statement {α : Type} (fault : Option DbError) (result : Except DbError α) :
    Except EnrollmentFailure α :=
  match fault with
  | some e => .error (.db e)
  | none => result.mapError .db

theorem statement_ok {α : Type} {fault : Option DbError} {result : Except DbError α} {a : α}
    (h : statement fault result = .ok a) : result = .ok a := by
  rw [statement.eq_def] at h
  split at h
  · cases h
  · cases result with
    | error e => cases h
    | ok b => exact congrArg Except.ok (Except.ok.inj h)

namespace Database

/-- `insert into enrollments`. -/
def insertEnrollment (db : Database) (row : EnrollmentRow) : Except DbError Database :=
  checked
    [(.uniqueViolation "enrollments_pkey", db.enrollments.any fun e => e.id = row.id),
      (.uniqueViolation "enrollments_tenant_id_user_id_source_key", db.enrollments.any fun e =>
        e.tenantId = row.tenantId && e.userId = row.userId && e.sourceKind = row.sourceKind &&
          e.sourceId = row.sourceId),
      (.foreignKeyViolation "enrollments_tenant_id_tenants_id_fk", db.noTenant row.tenantId),
      (.foreignKeyViolation "enrollments_user_id_users_id_fk", db.noUser row.userId),
      (.foreignKeyViolation "enrollments_tenant_id_user_id_fk",
        db.noMember row.tenantId row.userId),
      (.foreignKeyViolation "enrollments_tenant_id_granted_by_fk",
        row.grantedBy.any fun u => db.noMember row.tenantId u)]
    { db with enrollments := db.enrollments ++ [row] }

end Database

/-! ### Granting -/

/-- The kind of a source as the database spells it. -/
def SourceKind.text : SourceKind → String
  | .program => "program"
  | .course => "course"

/-- What granting came to. -/
inductive GrantOutcome where
  | granted (enrollmentId : Uuid)
  | already
  | error (message : String)
deriving DecidableEq

/-- Who grants what to whom, until when and why. -/
structure GrantRequest where
  tenantId : Uuid
  actorUserId : Uuid
  userId : Uuid
  sourceKind : SourceKind
  sourceId : Uuid
  expiresAt : Option DateValue
  reason : Option String

/-- What the environment decides during an operation on enrollments: the reading of the clock, the
instant the transaction starts, the id of a new row, and which statements fail. -/
structure EnrollmentDraw where
  clock : Instant
  startedAt : Instant
  rowId : Uuid
  faults : EnrollmentStatement → Option DbError

/-- `request.expiresAt && request.expiresAt.getTime() <= Date.now()`. Nothing compares with an
invalid date. -/
def isPast (clock : Instant) : Option DateValue → Bool
  | some (.valid date) => date.time ≤ clock
  | _ => false

/-- The expiry as it is sent to the database. -/
def storedExpiry : Option DateValue → Except EnrollmentFailure (Option Date)
  | none => .ok none
  | some (.valid date) => .ok (some date)
  | some .invalid => .error .invalidDate

/-- The institute offers this program or course. -/
def sourceExists (scope : TenantScope) (collate : Collation) (db : Database) (kind : SourceKind)
    (id : Uuid) : Bool :=
  (listGrantableSources scope collate db).any fun source => source.kind = kind && source.id = id

/-- The enrollment is one of this person for exactly this source. -/
def GrantRequest.matches (request : GrantRequest) (e : EnrollmentRow) : Bool :=
  e.tenantId = request.tenantId && e.userId = request.userId &&
    e.sourceKind = request.sourceKind && e.sourceId = request.sourceId

/-- The row of a grant. -/
def grantedRow (request : GrantRequest) (rowId : Uuid) (expiresAt : Option Date) :
    EnrollmentRow where
  id := rowId
  tenantId := request.tenantId
  userId := request.userId
  sourceKind := request.sourceKind
  sourceId := request.sourceId
  expiresAt := expiresAt.map Date.time
  grantedBy := some request.actorUserId

/-- A text that may be missing, as JSON. -/
def textOrNull (text : Option String) : Json := (text.map Json.str).getD .null

/-- The entry of a grant in the audit log. -/
def grantedAudit (request : GrantRequest) (rowId : Uuid) (expiresAt : Option Date) :
    AuditRow where
  tenantId := request.tenantId
  actorUserId := some request.actorUserId
  action := "enrollment.granted"
  targetType := "enrollment"
  targetId := some rowId
  metadataJson :=
    [("userId", .str (uuidText request.userId)),
      ("sourceKind", .str request.sourceKind.text),
      ("sourceId", .str (uuidText request.sourceId)),
      ("expiresAt", textOrNull (expiresAt.map Date.toISOString)),
      ("reason", textOrNull request.reason)]

/-- The two writes of a grant. -/
def writeGrant (db : Database) (request : GrantRequest) (draw : EnrollmentDraw) :
    Except EnrollmentFailure (GrantOutcome × Database) := do
  let expiresAt ← storedExpiry request.expiresAt
  let inserted ← statement (draw.faults .insert)
    (db.insertEnrollment (grantedRow request draw.rowId expiresAt))
  let logged ← statement (draw.faults .audit)
    (inserted.insertAuditLog (grantedAudit request draw.rowId expiresAt))
  pure (.granted draw.rowId, logged)

/-- The transaction of a grant. -/
def grantTransaction (collate : Collation) (db : Database) (request : GrantRequest)
    (draw : EnrollmentDraw) : Except EnrollmentFailure (GrantOutcome × Database) := do
  let scope : TenantScope := { tenantId := request.tenantId, now := draw.startedAt }
  let membership ← statement (draw.faults .membership)
    (.ok (findMembership scope db request.userId))
  if membership = none then
    pure (.error "That person is not a member of this institute.", db)
  else
    statement (draw.faults .programs) (.ok ())
    let exists_ ← statement (draw.faults .courses)
      (.ok (sourceExists scope collate db request.sourceKind request.sourceId))
    if !exists_ then
      pure (.error "That course or program does not exist here.", db)
    else
      let existing ← statement (draw.faults .existing) (.ok (db.enrollments.any request.matches))
      if existing then pure (.already, db)
      else writeGrant db request draw

/-- Grants a program or a course, once. -/
def grantEnrollment (collate : Collation) (db : Database) (request : GrantRequest)
    (draw : EnrollmentDraw) : Except EnrollmentFailure (GrantOutcome × Database) :=
  if isPast draw.clock request.expiresAt then
    .ok (.error "That expiry is in the past, so the grant would do nothing.", db)
  else do
    let result ← grantTransaction collate db request draw
    statement (draw.faults .commit) (.ok result)

/-! ### Revoking -/

/-- What revoking came to. -/
inductive RevokeOutcome where
  | revoked
  | notFound
deriving DecidableEq

/-- Who revokes which enrollment and why. -/
structure RevokeRequest where
  tenantId : Uuid
  actorUserId : Uuid
  enrollmentId : Uuid
  reason : Option String

/-- The enrollment a request is about. -/
def RevokeRequest.matches (request : RevokeRequest) (e : EnrollmentRow) : Bool :=
  e.tenantId = request.tenantId && e.id = request.enrollmentId

/-- The entry of a revocation in the audit log. -/
def revokedAudit (request : RevokeRequest) (removed : EnrollmentRow) : AuditRow where
  tenantId := request.tenantId
  actorUserId := some request.actorUserId
  action := "enrollment.revoked"
  targetType := "enrollment"
  targetId := some removed.id
  metadataJson :=
    [("userId", .str (uuidText removed.userId)),
      ("sourceKind", .str removed.sourceKind.text),
      ("sourceId", .str (uuidText removed.sourceId)),
      ("wasGranted", .bool removed.grantedBy.isSome),
      ("reason", textOrNull request.reason)]

/-- The transaction of a revocation. A row of another tenant is not found, as one that never was. -/
def revokeTransaction (db : Database) (request : RevokeRequest) (draw : EnrollmentDraw) :
    Except EnrollmentFailure (RevokeOutcome × Database) := do
  let removed ← statement (draw.faults .delete) (.ok (db.enrollments.find? request.matches))
  match removed with
  | none => pure (.notFound, db)
  | some row =>
    let logged ← statement (draw.faults .audit)
      (({ db with enrollments := Table.delete request.matches db.enrollments } : Database
        ).insertAuditLog (revokedAudit request row))
    pure (.revoked, logged)

/-- Takes an enrollment back. -/
def revokeEnrollment (db : Database) (request : RevokeRequest) (draw : EnrollmentDraw) :
    Except EnrollmentFailure (RevokeOutcome × Database) := do
  let result ← revokeTransaction db request draw
  statement (draw.faults .commit) (.ok result)

/-! ### What an operation that returns has done -/

section Outcomes

variable {collate : Collation} {db db' : Database} {draw : EnrollmentDraw}

theorem insertEnrollment_ok {row : EnrollmentRow} (h : db.insertEnrollment row = .ok db') :
    (∀ e ∈ db.enrollments, e.id ≠ row.id) ∧
      db' = { db with enrollments := db.enrollments ++ [row] } := by
  obtain ⟨hviolated, rfl⟩ := Database.checked_ok.mp h
  have hpkey := hviolated _ (List.mem_cons_self ..)
  exact ⟨by simpa using hpkey, rfl⟩

/-- Both writes of a grant, in one go. -/
def Database.withGrant (db : Database) (request : GrantRequest) (rowId : Uuid)
    (expiresAt : Option Date) : Database :=
  { db with
    enrollments := db.enrollments ++ [grantedRow request rowId expiresAt]
    auditLog := db.auditLog ++ [grantedAudit request rowId expiresAt] }

theorem writeGrant_ok {request : GrantRequest} {outcome : GrantOutcome}
    (h : writeGrant db request draw = .ok (outcome, db')) :
    ∃ expiresAt, storedExpiry request.expiresAt = .ok expiresAt ∧
      (∀ e ∈ db.enrollments, e.id ≠ draw.rowId) ∧
      outcome = .granted draw.rowId ∧ db' = db.withGrant request draw.rowId expiresAt := by
  obtain ⟨expiresAt, hexpiry, h⟩ := Machine.bind_eq_ok.mp h
  obtain ⟨inserted, hinsert, h⟩ := Machine.bind_eq_ok.mp h
  obtain ⟨logged, haudit, h⟩ := Machine.bind_eq_ok.mp h
  obtain ⟨rfl, rfl⟩ := Prod.mk.inj (Except.ok.inj h)
  obtain ⟨hfresh, rfl⟩ := insertEnrollment_ok (statement_ok hinsert)
  obtain rfl := Database.insertAuditLog_ok (statement_ok haudit)
  exact ⟨expiresAt, hexpiry, hfresh, rfl, rfl⟩

theorem grantTransaction_ok {request : GrantRequest} {outcome : GrantOutcome}
    (h : grantTransaction collate db request draw = .ok (outcome, db')) :
    (∃ message, outcome = .error message ∧ db' = db) ∨
      (outcome = .already ∧ db' = db ∧ ∃ e ∈ db.enrollments, request.matches e = true) ∨
      ∃ expiresAt, storedExpiry request.expiresAt = .ok expiresAt ∧
        (∀ e ∈ db.enrollments, request.matches e = false) ∧
        (∀ e ∈ db.enrollments, e.id ≠ draw.rowId) ∧ outcome = .granted draw.rowId ∧
        db' = db.withGrant request draw.rowId expiresAt := by
  obtain ⟨membership, -, h⟩ := Machine.bind_eq_ok.mp h
  split_ifs at h with hmember
  · obtain ⟨rfl, rfl⟩ := Prod.mk.inj (Except.ok.inj h)
    exact Or.inl ⟨_, rfl, rfl⟩
  obtain ⟨-, -, h⟩ := Machine.bind_eq_ok.mp h
  obtain ⟨found, -, h⟩ := Machine.bind_eq_ok.mp h
  split_ifs at h with hsource
  · obtain ⟨rfl, rfl⟩ := Prod.mk.inj (Except.ok.inj h)
    exact Or.inl ⟨_, rfl, rfl⟩
  obtain ⟨existing, hexisting, h⟩ := Machine.bind_eq_ok.mp h
  obtain rfl := Except.ok.inj (statement_ok hexisting)
  split_ifs at h with hmatch
  · obtain ⟨rfl, rfl⟩ := Prod.mk.inj (Except.ok.inj h)
    exact Or.inr (Or.inl ⟨rfl, rfl, List.any_eq_true.mp hmatch⟩)
  · obtain ⟨expiresAt, hexpiry, hfresh, houtcome, hdb⟩ := writeGrant_ok h
    refine Or.inr (Or.inr ⟨expiresAt, hexpiry, fun e he => ?_, hfresh, houtcome, hdb⟩)
    have hnone := List.any_eq_false.mp (Bool.eq_false_iff.mpr hmatch) e he
    exact Bool.eq_false_iff.mpr hnone

/-- A grant that returns has refused, or found an enrollment for the same source, or written both
rows; in the first two cases it has written nothing. -/
theorem grantEnrollment_ok {request : GrantRequest} {outcome : GrantOutcome}
    (h : grantEnrollment collate db request draw = .ok (outcome, db')) :
    (∃ message, outcome = .error message ∧ db' = db) ∨
      (outcome = .already ∧ db' = db ∧ ∃ e ∈ db.enrollments, request.matches e = true) ∨
      ∃ expiresAt, storedExpiry request.expiresAt = .ok expiresAt ∧
        (∀ e ∈ db.enrollments, request.matches e = false) ∧
        (∀ e ∈ db.enrollments, e.id ≠ draw.rowId) ∧ outcome = .granted draw.rowId ∧
        db' = db.withGrant request draw.rowId expiresAt := by
  rw [grantEnrollment] at h
  split_ifs at h with hpast
  · obtain ⟨rfl, rfl⟩ := Prod.mk.inj (Except.ok.inj h)
    exact Or.inl ⟨_, rfl, rfl⟩
  · obtain ⟨result, htransaction, hcommit⟩ := Machine.bind_eq_ok.mp h
    obtain rfl := Except.ok.inj (statement_ok hcommit)
    exact grantTransaction_ok htransaction

/-- Both writes of a revocation, in one go. -/
def Database.withRevoke (db : Database) (request : RevokeRequest) (removed : EnrollmentRow) :
    Database :=
  { db with
    enrollments := Table.delete request.matches db.enrollments
    auditLog := db.auditLog ++ [revokedAudit request removed] }

/-- A revocation that returns has found nothing and written nothing, or written both. -/
theorem revokeEnrollment_ok {request : RevokeRequest} {outcome : RevokeOutcome}
    (h : revokeEnrollment db request draw = .ok (outcome, db')) :
    (outcome = .notFound ∧ db' = db ∧ ∀ e ∈ db.enrollments, request.matches e = false) ∨
      ∃ removed ∈ db.enrollments, request.matches removed = true ∧ outcome = .revoked ∧
        db' = db.withRevoke request removed := by
  obtain ⟨result, htransaction, hcommit⟩ := Machine.bind_eq_ok.mp h
  obtain rfl := Except.ok.inj (statement_ok hcommit)
  obtain ⟨removed, hfind, h⟩ := Machine.bind_eq_ok.mp htransaction
  have hfound := Except.ok.inj (statement_ok hfind)
  cases removed with
  | none =>
    obtain ⟨rfl, rfl⟩ := Prod.mk.inj (Except.ok.inj h)
    exact Or.inl ⟨rfl, rfl, fun e he => by simpa using List.find?_eq_none.mp hfound e he⟩
  | some row =>
    obtain ⟨logged, haudit, h⟩ := Machine.bind_eq_ok.mp h
    obtain ⟨rfl, rfl⟩ := Prod.mk.inj (Except.ok.inj h)
    obtain rfl := Database.insertAuditLog_ok (statement_ok haudit)
    exact Or.inr ⟨row, List.mem_of_find?_eq_some hfound, List.find?_some hfound, rfl, rfl⟩

end Outcomes

/-! ### They read and write the tenant's own rows -/

section Views

variable {collate : Collation} {db db' : Database} {draw : EnrollmentDraw} {t : Uuid}

theorem statement_map {α β : Type} {fault : Option DbError} {result : Except DbError α}
    {result' : Except DbError β} {f : α → β} (h : result' = result.map f) :
    statement fault result' = (statement fault result).map f := by
  subst h
  cases fault with
  | some e => rfl
  | none =>
    cases result with
    | error e => rfl
    | ok a => rfl

/-- A read that answers the same. -/
theorem statement_read {α : Type} {fault : Option DbError} {a a' : α} (h : a' = a) :
    statement fault (.ok a') = (statement fault (.ok a)).map id :=
  statement_map (by rw [h]; rfl)

theorem viewOf_append_enrollment {row : EnrollmentRow} (h : row.tenantId = t) :
    Database.viewOf t { db with enrollments := db.enrollments ++ [row] }
      = { db.viewOf t with enrollments := (db.viewOf t).enrollments ++ [row] } := by
  rw [Database.viewOf_enrollments, ← Table.owned_append_of_owned (by simpa using h)]
  rfl

/-- A new row under an unused id. -/
theorem insertEnrollment_viewOf {row : EnrollmentRow} (h : row.tenantId = t)
    (hid : ∀ e ∈ db.enrollments, e.id ≠ row.id) :
    (db.viewOf t).insertEnrollment row = (db.insertEnrollment row).map (Database.viewOf t) := by
  rw [Database.insertEnrollment, Database.insertEnrollment, ← Database.checked_viewOf,
    viewOf_append_enrollment h]
  subst h
  have hpkey : (Table.owned EnrollmentRow.tenantId row.tenantId db.enrollments).any
      (fun e => e.id = row.id) = db.enrollments.any fun e => e.id = row.id :=
    Table.any_owned_of_none fun e he => by simpa using hid e he
  have hsource : (Table.owned EnrollmentRow.tenantId row.tenantId db.enrollments).any
      (fun e => e.tenantId = row.tenantId && e.userId = row.userId &&
        e.sourceKind = row.sourceKind && e.sourceId = row.sourceId)
      = db.enrollments.any fun e => e.tenantId = row.tenantId && e.userId = row.userId &&
        e.sourceKind = row.sourceKind && e.sourceId = row.sourceId :=
    Table.any_owned (by simp +contextual) _
  simp only [Database.viewOf_enrollments, hpkey, hsource, Database.noTenant_viewOf,
    Database.noUser_viewOf, Database.noMember_viewOf]

theorem writeGrant_viewOf {request : GrantRequest}
    (hid : ∀ e ∈ db.enrollments, e.id ≠ draw.rowId) :
    writeGrant (db.viewOf request.tenantId) request draw
      = (writeGrant db request draw).map (Database.onView request.tenantId) := by
  refine Machine.bind_eq_map_bind id ?_ fun expiresAt _ => ?_
  · cases storedExpiry request.expiresAt <;> rfl
  refine Machine.bind_eq_map_bind (Database.viewOf request.tenantId) ?_ fun inserted _ => ?_
  · exact statement_map (insertEnrollment_viewOf rfl hid)
  refine Machine.bind_eq_map_bind (Database.viewOf request.tenantId) ?_ fun logged _ => rfl
  exact statement_map (Database.insertAuditLog_viewOf rfl)

theorem sourceExists_viewOf {scope : TenantScope} {kind : SourceKind} {id : Uuid} :
    sourceExists scope collate (db.viewOf scope.tenantId) kind id
      = sourceExists scope collate db kind id := by
  rw [sourceExists, listGrantableSources_viewOf, sourceExists]

theorem grantTransaction_viewOf {request : GrantRequest}
    (hid : ∀ e ∈ db.enrollments, e.id ≠ draw.rowId) :
    grantTransaction collate (db.viewOf request.tenantId) request draw
      = (grantTransaction collate db request draw).map (Database.onView request.tenantId) := by
  let scope : TenantScope := { tenantId := request.tenantId, now := draw.startedAt }
  have hmembership : findMembership scope (db.viewOf request.tenantId) request.userId
      = findMembership scope db request.userId := findMembership_viewOf
  have hsource : sourceExists scope collate (db.viewOf request.tenantId) request.sourceKind
        request.sourceId
      = sourceExists scope collate db request.sourceKind request.sourceId := sourceExists_viewOf
  refine Machine.bind_eq_map_bind id (statement_read hmembership) fun membership _ => ?_
  rw [id_eq]
  split_ifs with hmember
  · rfl
  refine Machine.bind_eq_map_bind id (statement_read rfl) fun _ _ => ?_
  refine Machine.bind_eq_map_bind id (statement_read hsource) fun found _ => ?_
  rw [id_eq]
  split_ifs with hfound
  · rfl
  refine Machine.bind_eq_map_bind id (statement_read ?_) fun existing _ => ?_
  · exact Table.any_owned (by simp +contextual [GrantRequest.matches]) _
  rw [id_eq]
  split_ifs with hexisting
  · rfl
  · exact writeGrant_viewOf hid

theorem grantEnrollment_viewOf {request : GrantRequest}
    (hid : ∀ e ∈ db.enrollments, e.id ≠ draw.rowId) :
    grantEnrollment collate (db.viewOf request.tenantId) request draw
      = (grantEnrollment collate db request draw).map (Database.onView request.tenantId) := by
  rw [grantEnrollment, grantEnrollment]
  split_ifs with hpast
  · rfl
  · refine Machine.bind_eq_map_bind (Database.onView request.tenantId) ?_ fun result _ => ?_
    · exact grantTransaction_viewOf hid
    · exact statement_map rfl

theorem RevokeRequest.tenant_of_matches {request : RevokeRequest} (e : EnrollmentRow)
    (h : request.matches e = true) : e.tenantId = request.tenantId := by
  rw [RevokeRequest.matches, Bool.and_eq_true, decide_eq_true_eq] at h
  exact h.1

theorem revokeEnrollment_viewOf {request : RevokeRequest} :
    revokeEnrollment (db.viewOf request.tenantId) request draw
      = (revokeEnrollment db request draw).map (Database.onView request.tenantId) := by
  refine Machine.bind_eq_map_bind (Database.onView request.tenantId) ?_ fun result _ =>
    statement_map rfl
  refine Machine.bind_eq_map_bind id (statement_read ?_) fun removed _ => ?_
  · exact Table.find?_owned request.tenant_of_matches _
  cases removed with
  | none => rfl
  | some row =>
    have hdelete : Database.viewOf request.tenantId
          { db with enrollments := Table.delete request.matches db.enrollments }
        = { db.viewOf request.tenantId with
            enrollments := Table.delete request.matches
              (db.viewOf request.tenantId).enrollments } := by
      rw [Database.viewOf_enrollments, ← Table.owned_delete]
      rfl
    refine Machine.bind_eq_map_bind (Database.viewOf request.tenantId) (statement_map ?_)
      fun logged _ => rfl
    rw [← hdelete]
    exact Database.insertAuditLog_viewOf rfl

theorem grantEnrollment_othersOf {request : GrantRequest} {outcome : GrantOutcome}
    (h : grantEnrollment collate db request draw = .ok (outcome, db')) :
    db'.othersOf request.tenantId = db.othersOf request.tenantId := by
  rcases grantEnrollment_ok h with
    ⟨message, -, rfl⟩ | ⟨-, rfl, -⟩ | ⟨expiresAt, -, -, -, -, rfl⟩
  · rfl
  · rfl
  · have henrollments : Table.others EnrollmentRow.tenantId request.tenantId
        (db.enrollments ++ [grantedRow request draw.rowId expiresAt])
          = Table.others EnrollmentRow.tenantId request.tenantId db.enrollments :=
      Table.others_append_of_owned (by simp [grantedRow])
    have hlog : Table.others AuditRow.tenantId request.tenantId
        (db.auditLog ++ [grantedAudit request draw.rowId expiresAt])
          = Table.others AuditRow.tenantId request.tenantId db.auditLog :=
      Table.others_append_of_owned (by simp [grantedAudit])
    simp only [Database.withGrant, Database.othersOf, henrollments, hlog]

theorem revokeEnrollment_othersOf {request : RevokeRequest} {outcome : RevokeOutcome}
    (h : revokeEnrollment db request draw = .ok (outcome, db')) :
    db'.othersOf request.tenantId = db.othersOf request.tenantId := by
  rcases revokeEnrollment_ok h with ⟨-, rfl, -⟩ | ⟨removed, -, -, -, rfl⟩
  · rfl
  · have henrollments : Table.others EnrollmentRow.tenantId request.tenantId
        (Table.delete request.matches db.enrollments)
          = Table.others EnrollmentRow.tenantId request.tenantId db.enrollments :=
      Table.others_delete request.tenant_of_matches _
    have hlog : Table.others AuditRow.tenantId request.tenantId
        (db.auditLog ++ [revokedAudit request removed])
          = Table.others AuditRow.tenantId request.tenantId db.auditLog :=
      Table.others_append_of_owned (by simp [revokedAudit])
    simp only [Database.withRevoke, Database.othersOf, henrollments, hlog]

end Views

/-! ### A grant that reports success -/

section Success

variable {collate : Collation} {db db' : Database} {draw : EnrollmentDraw}
  {request : GrantRequest} {outcome : GrantOutcome}

/-- The course is the one asked for, or one of the program asked for. -/
def GrantRequest.Covers (request : GrantRequest) (db : Database) (courseId : Uuid) : Prop :=
  (request.sourceKind = .course ∧ request.sourceId = courseId) ∨
    (request.sourceKind = .program ∧ ∃ p ∈ db.programCourses,
      p.tenantId = request.tenantId ∧ p.programId = request.sourceId ∧ p.courseId = courseId)

/-- Every course of the request is open to the person at this instant. -/
def GrantRequest.Entitled (request : GrantRequest) (db : Database) (now : Instant) : Prop :=
  ∀ courseId, request.Covers db courseId →
    hasActiveEntitlement ⟨request.tenantId, now⟩ db request.userId courseId = true

theorem GrantRequest.matches_iff {e : EnrollmentRow} :
    request.matches e = true ↔ e.tenantId = request.tenantId ∧ e.userId = request.userId ∧
      e.sourceKind = request.sourceKind ∧ e.sourceId = request.sourceId := by
  simp [GrantRequest.matches, and_assoc]

/-- One active enrollment for exactly the source opens all of its courses. -/
theorem entitled_of_active {now : Instant} {e : EnrollmentRow} (he : e ∈ db.enrollments)
    (hmatch : request.matches e = true) (hactive : e.Active now) : request.Entitled db now := by
  intro courseId hcovers
  obtain ⟨htenant, huser, hkind, hsource⟩ := GrantRequest.matches_iff.mp hmatch
  refine hasActiveEntitlement_iff.mpr ⟨e, he, htenant, huser, hactive, ?_⟩
  rcases hcovers with ⟨hcourse, hid⟩ | ⟨hprogram, p, hp, hpt, hpp, hpc⟩
  · exact Or.inl ⟨hkind.trans hcourse, hsource.trans hid⟩
  · exact Or.inr ⟨hkind.trans hprogram, p, hp, hpt, hpp.trans hsource.symm, hpc⟩

theorem active_grantedRow {now : Instant} {expiresAt : Option Date}
    (hstored : storedExpiry request.expiresAt = .ok expiresAt)
    (hfuture : ∀ date, request.expiresAt = some (.valid date) → now < date.time) :
    (grantedRow request draw.rowId expiresAt).Active now := by
  intro at_ hat
  obtain ⟨date, rfl, rfl⟩ := Option.map_eq_some_iff.mp hat
  have hrequest : request.expiresAt = some (.valid date) := by
    cases hexp : request.expiresAt with
    | none =>
      rw [hexp] at hstored
      cases hstored
    | some value =>
      rw [hexp] at hstored
      cases value with
      | valid d =>
        rw [Option.some.inj (Except.ok.inj hstored)]
      | invalid => cases hstored
  exact hfuture date hrequest

/-- **A grant that reports success gives access exactly when there is no expired enrollment for the
same source, or the courses are open through another one anyway.** -/
theorem grantEnrollment_entitled_iff
    (h : grantEnrollment collate db request draw = .ok (outcome, db'))
    (hsuccess : outcome = .already ∨ ∃ id, outcome = .granted id) {readAt : Instant}
    (hfuture : ∀ date, request.expiresAt = some (.valid date) → readAt < date.time) :
    request.Entitled db' readAt ↔
      (∀ e ∈ db.enrollments, request.matches e = true → e.Active readAt) ∨
        request.Entitled db readAt := by
  rcases grantEnrollment_ok h with
    ⟨message, rfl, -⟩ | ⟨-, rfl, e, he, hmatch⟩ | ⟨expiresAt, hstored, hnone, -, -, rfl⟩
  · rcases hsuccess with hnot | ⟨id, hnot⟩ <;> cases hnot
  · constructor
    · exact Or.inr
    · rintro (hactive | hentitled)
      · exact entitled_of_active he hmatch (hactive e he hmatch)
      · exact hentitled
  · refine iff_of_true ?_ (Or.inl fun e he hmatch => ?_)
    · have hrow : grantedRow request draw.rowId expiresAt
          ∈ (db.withGrant request draw.rowId expiresAt).enrollments :=
        List.mem_append_right _ (List.mem_singleton_self _)
      exact entitled_of_active hrow (GrantRequest.matches_iff.mpr ⟨rfl, rfl, rfl, rfl⟩)
        (active_grantedRow hstored hfuture)
    · rw [hnone e he] at hmatch
      cases hmatch

/-- An institute with one course, its office and one student. -/
def smallInstitute : Database where
  users := [⟨1, "office@example.org", "Office", "", "", true⟩,
    ⟨2, "ada@example.org", "Ada", "", "", true⟩]
  tenants := [⟨5, "grace", "Grace", .active, 0⟩]
  memberships := [⟨5, 1, .admin, []⟩, ⟨5, 2, .student, []⟩]
  courses := [⟨7, 5, "Genesis", "genesis", none⟩]

/-- The office gives the student the course for good. -/
def grantGenesis : GrantRequest where
  tenantId := 5
  actorUserId := 1
  userId := 2
  sourceKind := .course
  sourceId := 7
  expiresAt := none
  reason := some "scholarship"

/-- Nothing fails. -/
def quietDraw : EnrollmentDraw where
  clock := 100
  startedAt := 100
  rowId := 9
  faults := fun _ => none

/-- A collation that compares code points. -/
def byCode : Collation where
  database := fun a b => a ≤ b
  locale := fun a b => a ≤ b

theorem grantEnrollment_entitled_iff_first :
    ∃ db', grantEnrollment byCode smallInstitute grantGenesis quietDraw = .ok (.granted 9, db') ∧
      (grantGenesis.Entitled db' 100 ↔
        (∀ e ∈ smallInstitute.enrollments, grantGenesis.matches e = true → e.Active 100) ∨
          grantGenesis.Entitled smallInstitute 100) := by
  obtain ⟨db', h⟩ : ∃ db', grantEnrollment byCode smallInstitute grantGenesis quietDraw
      = .ok (.granted 9, db') := ⟨_, rfl⟩
  exact ⟨db', h, grantEnrollment_entitled_iff h (Or.inr ⟨9, rfl⟩) fun _ hdate => nomatch hdate⟩

/-- The student's earlier enrollment has run out. The office is told that they already have the
course, and they do not. -/
theorem already_without_access :
    ∃ db', grantEnrollment byCode
        { smallInstitute with enrollments := [⟨8, 5, 2, .course, 7, some 50, some 1⟩] }
        grantGenesis quietDraw = .ok (.already, db') ∧
      grantGenesis.Covers db' 7 ∧ hasActiveEntitlement ⟨5, 100⟩ db' 2 7 = false :=
  ⟨_, rfl, Or.inl ⟨rfl, rfl⟩, rfl⟩

end Success

end LampLight
