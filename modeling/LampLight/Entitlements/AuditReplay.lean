import LampLight.Entitlements.Grants
import Mathlib.Logic.Function.Basic

/-!
# The audit log of the enrollments

The rows a run of grants and revocations adds to the audit log say what became of the enrollments:
replaying them over the enrollments of the start gives those of the end. The metadata of a row is
text, and what is replayed is what the text says, which is why the printing of ids and dates has to
be injective.

## Main definitions

* `replay` — the enrollments of a tenant after the events of a log
* `enrollmentStep` — a grant or a revocation, whatever becomes of it

## Main results

* `heldBy_step` — one operation changes the enrollments as its audit rows say
* `audit_replays` — the same for a run, with one row for each operation that changes something
-/

namespace LampLight

open Js
open Machine (run Meets)
open Table (owned)

/-! ### Reading an audit row -/

/-- What an enrollment says: whose it is, for what, and until when. -/
structure EnrollmentRecord where
  userId : Uuid
  sourceKind : SourceKind
  sourceId : Uuid
  expiresAt : Option Instant
deriving DecidableEq

/-- What the audit log keeps of an enrollment. -/
def EnrollmentRow.record (e : EnrollmentRow) : EnrollmentRecord :=
  ⟨e.userId, e.sourceKind, e.sourceId, e.expiresAt⟩

/-- The value that prints as the text of a field. -/
noncomputable def readText {α : Type} (print : α → String) : Json → Option α
  | .str text => Function.partialInv print text
  | _ => none

/-- The expiry of a field: `null`, or the text of a date. -/
noncomputable def readExpiry : Json → Option (Option Instant)
  | .null => some none
  | value => (readText Date.toISOString value).map fun date => some date.time

/-- The enrollment that the metadata of a grant describes. -/
noncomputable def readGrant (metadata : List (String × Json)) : Option EnrollmentRecord := do
  let userId ← (metadata.lookup "userId").bind (readText uuidText)
  let sourceKind ← (metadata.lookup "sourceKind").bind (readText SourceKind.text)
  let sourceId ← (metadata.lookup "sourceId").bind (readText uuidText)
  let expiresAt ← (metadata.lookup "expiresAt").bind readExpiry
  some ⟨userId, sourceKind, sourceId, expiresAt⟩

theorem SourceKind.text_injective : Function.Injective SourceKind.text := by
  intro a b h
  cases a <;> cases b <;> first | rfl | exact absurd h (by decide)

theorem readText_str {α : Type} {print : α → String} (hprint : Function.Injective print) (a : α) :
    readText print (.str (print a)) = some a := Function.partialInv_left hprint a

theorem readExpiry_textOrNull (expiresAt : Option Date) :
    readExpiry (textOrNull (expiresAt.map Date.toISOString)) = some (expiresAt.map Date.time) := by
  cases expiresAt with
  | none => rfl
  | some date =>
    show (readText Date.toISOString (.str date.toISOString)).map _ = _
    rw [readText_str Date.toISOString_injective]
    rfl

/-- The audit row of a grant tells the enrollment. -/
theorem readGrant_grantedAudit (request : GrantRequest) (rowId : Uuid) (expiresAt : Option Date) :
    readGrant (grantedAudit request rowId expiresAt).metadataJson
      = some (grantedRow request rowId expiresAt).record := by
  have huser := readText_str uuidText_injective request.userId
  have hkind := readText_str SourceKind.text_injective request.sourceKind
  have hsource := readText_str uuidText_injective request.sourceId
  have hexpiry := readExpiry_textOrNull expiresAt
  simp [readGrant, grantedAudit, List.lookup_cons, huser, hkind, hsource, hexpiry, grantedRow,
    EnrollmentRow.record]

/-! ### Replaying -/

/-- The enrollments of a tenant after one event: what a grant describes appears under its id, what a
revocation names disappears, and other events are not about enrollments. -/
noncomputable def replayRow (held : List (Uuid × EnrollmentRecord)) (row : AuditRow) :
    List (Uuid × EnrollmentRecord) :=
  if row.action = "enrollment.granted" then
    match row.targetId, readGrant row.metadataJson with
    | some id, some record => held ++ [(id, record)]
    | _, _ => held
  else if row.action = "enrollment.revoked" then
    match row.targetId with
    | some id => held.filter fun x => x.1 ≠ id
    | none => held
  else held

/-- The events of one tenant, in order. -/
noncomputable def replay (tenantId : Uuid) (held : List (Uuid × EnrollmentRecord))
    (log : List AuditRow) : List (Uuid × EnrollmentRecord) :=
  (log.filter fun row => row.tenantId = tenantId).foldl replayRow held

/-- The enrollments a tenant has. -/
def heldBy (tenantId : Uuid) (db : Database) : List (Uuid × EnrollmentRecord) :=
  (owned EnrollmentRow.tenantId tenantId db.enrollments).map fun e => (e.id, e.record)

variable {tenantId : Uuid} {held : List (Uuid × EnrollmentRecord)}

theorem replay_append (log log' : List AuditRow) :
    replay tenantId held (log ++ log') = replay tenantId (replay tenantId held log) log' := by
  rw [replay, List.filter_append, List.foldl_append, replay, replay]

theorem replay_singleton_of_ne {row : AuditRow} (h : row.tenantId ≠ tenantId) :
    replay tenantId held [row] = held := by
  simp [replay, h]

theorem replay_singleton {row : AuditRow} (h : row.tenantId = tenantId) :
    replay tenantId held [row] = replayRow held row := by
  simp [replay, h]

theorem replayRow_grantedAudit (request : GrantRequest) (rowId : Uuid) (expiresAt : Option Date) :
    replayRow held (grantedAudit request rowId expiresAt)
      = held ++ [(rowId, (grantedRow request rowId expiresAt).record)] := by
  have haction : (grantedAudit request rowId expiresAt).action = "enrollment.granted" := rfl
  have htarget : (grantedAudit request rowId expiresAt).targetId = some rowId := rfl
  rw [replayRow, if_pos haction, htarget, readGrant_grantedAudit]

theorem replayRow_revokedAudit (request : RevokeRequest) (removed : EnrollmentRow) :
    replayRow held (revokedAudit request removed) = held.filter fun x => x.1 ≠ removed.id := by
  have hgranted : (revokedAudit request removed).action ≠ "enrollment.granted" := by
    simp [revokedAudit]
  have haction : (revokedAudit request removed).action = "enrollment.revoked" := rfl
  rw [replayRow, if_neg hgranted, if_pos haction]
  rfl

/-! ### One operation -/

/-- The office grants or revokes. -/
inductive EnrollmentAction where
  | grant (request : GrantRequest) (draw : EnrollmentDraw)
  | revoke (request : RevokeRequest) (draw : EnrollmentDraw)

/-- The state after an operation. One that throws leaves the state alone. -/
def enrollmentStep (collate : Collation) (db : Database) : EnrollmentAction → Database
  | .grant request draw =>
    match grantEnrollment collate db request draw with
    | .ok (_, db') => db'
    | .error _ => db
  | .revoke request draw =>
    match revokeEnrollment db request draw with
    | .ok (_, db') => db'
    | .error _ => db

/-- The operation reports that it has granted or revoked. -/
def ReportsChange (collate : Collation) (db : Database) : EnrollmentAction → Prop
  | .grant request draw =>
    ∃ id db', grantEnrollment collate db request draw = .ok (.granted id, db')
  | .revoke request draw => ∃ db', revokeEnrollment db request draw = .ok (.revoked, db')

/-- An operation that reports a change adds one audit row, and any other changes nothing. -/
def Accounted (collate : Collation) (db : Database) (a : EnrollmentAction) : Prop :=
  (ReportsChange collate db a →
      ∃ row, (enrollmentStep collate db a).auditLog = db.auditLog ++ [row]) ∧
    (¬ ReportsChange collate db a →
      (enrollmentStep collate db a).enrollments = db.enrollments ∧
        (enrollmentStep collate db a).auditLog = db.auditLog)

variable {collate : Collation} {db : Database}

/-- What an operation does to the two tables. -/
theorem enrollmentStep_cases (a : EnrollmentAction) :
    (¬ ReportsChange collate db a ∧ enrollmentStep collate db a = db) ∨
      (ReportsChange collate db a ∧
        ((∃ request rowId expiresAt,
            enrollmentStep collate db a = db.withGrant request rowId expiresAt) ∨
          ∃ request removed, RevokeRequest.matches request removed = true ∧
            enrollmentStep collate db a = db.withRevoke request removed)) := by
  cases a with
  | grant request draw =>
    simp only [ReportsChange, enrollmentStep]
    cases hresult : grantEnrollment collate db request draw with
    | error e => exact Or.inl ⟨by simp, rfl⟩
    | ok result =>
      obtain ⟨outcome, db'⟩ := result
      rcases grantEnrollment_ok hresult with
        ⟨message, rfl, rfl⟩ | ⟨rfl, rfl, -⟩ | ⟨expiresAt, -, -, -, rfl, rfl⟩
      · exact Or.inl ⟨by simp, rfl⟩
      · exact Or.inl ⟨by simp, rfl⟩
      · exact Or.inr ⟨⟨_, _, rfl⟩, Or.inl ⟨request, draw.rowId, expiresAt, rfl⟩⟩
  | revoke request draw =>
    simp only [ReportsChange, enrollmentStep]
    cases hresult : revokeEnrollment db request draw with
    | error e => exact Or.inl ⟨by simp, rfl⟩
    | ok result =>
      obtain ⟨outcome, db'⟩ := result
      rcases revokeEnrollment_ok hresult with ⟨rfl, rfl, -⟩ | ⟨removed, -, hmatch, rfl, rfl⟩
      · exact Or.inl ⟨by simp, rfl⟩
      · exact Or.inr ⟨⟨_, rfl⟩, Or.inr ⟨request, removed, hmatch, rfl⟩⟩

theorem accounted (a : EnrollmentAction) : Accounted collate db a := by
  rcases @enrollmentStep_cases collate db a with
    ⟨hno, hstep⟩ | ⟨hyes, ⟨request, rowId, expiresAt, hstep⟩ | ⟨request, removed, -, hstep⟩⟩
  · rw [Accounted, hstep]
    exact ⟨fun h => absurd h hno, fun _ => ⟨rfl, rfl⟩⟩
  · rw [Accounted, hstep]
    exact ⟨fun _ => ⟨_, rfl⟩, fun h => absurd hyes h⟩
  · rw [Accounted, hstep]
    exact ⟨fun _ => ⟨_, rfl⟩, fun h => absurd hyes h⟩

theorem heldBy_withGrant (request : GrantRequest) (rowId : Uuid) (expiresAt : Option Date) :
    heldBy tenantId (db.withGrant request rowId expiresAt)
      = replay tenantId (heldBy tenantId db) [grantedAudit request rowId expiresAt] := by
  by_cases htenant : request.tenantId = tenantId
  · rw [replay_singleton htenant, replayRow_grantedAudit, heldBy, Database.withGrant,
      Table.owned_append_of_owned (by simpa [grantedRow] using htenant), List.map_append]
    rfl
  · rw [replay_singleton_of_ne htenant]
    simp [heldBy, Database.withGrant, owned, grantedRow, htenant]

theorem heldBy_withRevoke {request : RevokeRequest} {removed : EnrollmentRow}
    (hmatch : request.matches removed = true) :
    heldBy tenantId (db.withRevoke request removed)
      = replay tenantId (heldBy tenantId db) [revokedAudit request removed] := by
  have hid : removed.id = request.enrollmentId := by
    simp only [RevokeRequest.matches, Bool.and_eq_true, decide_eq_true_eq] at hmatch
    exact hmatch.2
  by_cases htenant : request.tenantId = tenantId
  · rw [replay_singleton htenant, replayRow_revokedAudit, heldBy, Database.withRevoke,
      Table.owned_delete, heldBy, List.filter_map, Table.delete, hid]
    refine congrArg (List.map _) (List.filter_congr fun e he => ?_)
    have hown : e.tenantId = tenantId := (Table.mem_owned.mp he).2
    simp [RevokeRequest.matches, hown, htenant]
  · rw [replay_singleton_of_ne htenant, heldBy, Database.withRevoke, Table.owned_delete, heldBy,
      Table.delete_eq_self]
    intro e he
    have hown : e.tenantId = tenantId := (Table.mem_owned.mp he).2
    simp [RevokeRequest.matches, hown, Ne.symm htenant]

/-- One operation changes the enrollments as the audit rows it adds say. -/
theorem heldBy_step (tenantId : Uuid) (a : EnrollmentAction) :
    ∃ written, (enrollmentStep collate db a).auditLog = db.auditLog ++ written ∧
      replay tenantId (heldBy tenantId db) written
        = heldBy tenantId (enrollmentStep collate db a) := by
  rcases @enrollmentStep_cases collate db a with
    ⟨-, hstep⟩ | ⟨-, ⟨request, rowId, expiresAt, hstep⟩ | ⟨request, removed, hmatch, hstep⟩⟩
  · rw [hstep]
    exact ⟨[], (List.append_nil _).symm, rfl⟩
  · rw [hstep]
    exact ⟨_, rfl, (heldBy_withGrant request rowId expiresAt).symm⟩
  · rw [hstep]
    exact ⟨_, rfl, (heldBy_withRevoke hmatch).symm⟩

/-! ### Runs -/

/-- **The audit log replays to the truth.** Whatever a run of grants and revocations meets with, the
audit rows it has written, replayed over the enrollments a tenant had, give those it has; and each
of its operations is accounted for. -/
theorem audit_replays (collate : Collation) (tenantId : Uuid) (db : Database)
    (as : List EnrollmentAction) :
    (∃ written, (run (enrollmentStep collate) db as).auditLog = db.auditLog ++ written ∧
      replay tenantId (heldBy tenantId db) written
        = heldBy tenantId (run (enrollmentStep collate) db as)) ∧
      Meets (enrollmentStep collate) (Accounted collate) db as := by
  constructor
  · induction as generalizing db with
    | nil => exact ⟨[], (List.append_nil _).symm, rfl⟩
    | cons a as ih =>
      obtain ⟨first, hfirst, hheld⟩ := @heldBy_step collate db tenantId a
      obtain ⟨rest, hrest, hheld'⟩ := ih (enrollmentStep collate db a)
      refine ⟨first ++ rest, ?_, ?_⟩
      · rw [Machine.run_cons, hrest, hfirst, List.append_assoc]
      · rw [replay_append, hheld, hheld', Machine.run_cons]
  · exact (Machine.meets_true _ _ _).mono fun _ a _ => accounted a

end LampLight
