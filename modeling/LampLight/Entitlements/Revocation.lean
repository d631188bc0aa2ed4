import LampLight.Entitlements.Dashboard
import LampLight.Entitlements.Grants

/-!
# What a revocation takes away

A course can be open to somebody through several enrollments at once. Taking one of them away closes
the courses that only this one kept open, and no others. A grant that is taken back leaves every
decision as it was.

## Main definitions

* `KeptOpenBy` — an enrollment is the only one that keeps a course open to a user
* `RemovesExactly` — what differs after one enrollment is gone

## Main results

* `hasActiveEntitlement_withRevoke` — what is left is what another enrollment gives
* `revokeEnrollment_removesExactly` — a revocation takes away what the enrollment gave, and a grant
  that is revoked is undone
-/

namespace LampLight

variable {scope : TenantScope} {db db' : Database} {userId courseId : Uuid}

theorem hasActiveEntitlement_iff_grants :
    hasActiveEntitlement scope db userId courseId = true ↔
      ∃ e, Grants scope db userId courseId e ∧ e.Active scope.now := by
  rw [hasActiveEntitlement_iff]
  constructor
  · rintro ⟨e, he, htenant, huser, hactive, hcovers⟩
    exact ⟨e, ⟨he, htenant, huser, hcovers⟩, hactive⟩
  · rintro ⟨e, ⟨he, htenant, huser, hcovers⟩, hactive⟩
    exact ⟨e, he, htenant, huser, hactive, hcovers⟩

/-- The enrollment opens the course to the user, and no other one does. -/
def KeptOpenBy (scope : TenantScope) (db : Database) (userId courseId : Uuid) (e : EnrollmentRow) :
    Prop :=
  Grants scope db userId courseId e ∧ e.Active scope.now ∧
    ∀ e', Grants scope db userId courseId e' → e'.Active scope.now → e' = e

/-- After the enrollment is gone, exactly the courses are closed that it alone kept open, and only
the enrollments and the audit log have changed. -/
structure RemovesExactly (db db' : Database) (e : EnrollmentRow) : Prop where
  lost : ∀ scope userId courseId, (hasActiveEntitlement scope db userId courseId = true ∧
      hasActiveEntitlement scope db' userId courseId = false) ↔
        KeptOpenBy scope db userId courseId e
  kept : ∀ scope userId courseId, ¬ KeptOpenBy scope db userId courseId e →
    hasActiveEntitlement scope db' userId courseId = hasActiveEntitlement scope db userId courseId
  frame : db' = { db with enrollments := db'.enrollments, auditLog := db'.auditLog }

section Revoking

variable {request : RevokeRequest} {removed : EnrollmentRow}

/-- A primary key picks one row. -/
theorem mem_delete_matches (hdb : db.Consistent) (hremoved : removed ∈ db.enrollments)
    (hmatch : request.matches removed = true) {e : EnrollmentRow} :
    e ∈ Table.delete request.matches db.enrollments ↔ e ∈ db.enrollments ∧ e ≠ removed := by
  rw [Table.mem_delete]
  refine and_congr_right fun he => ?_
  constructor
  · rintro hother rfl
    exact Bool.false_ne_true (hother.symm.trans hmatch)
  · intro hne
    rw [Bool.eq_false_iff]
    intro hother
    simp only [RevokeRequest.matches, Bool.and_eq_true, decide_eq_true_eq] at hother hmatch
    exact hne (Table.eq_of_key_eq hdb.enrollments_pkey he hremoved (hother.2.trans hmatch.2.symm))

/-- **What is left is what another enrollment gives.** -/
theorem hasActiveEntitlement_withRevoke (hdb : db.Consistent) (hremoved : removed ∈ db.enrollments)
    (hmatch : request.matches removed = true) :
    hasActiveEntitlement scope (db.withRevoke request removed) userId courseId = true ↔
      ∃ e, Grants scope db userId courseId e ∧ e.Active scope.now ∧ e ≠ removed := by
  rw [hasActiveEntitlement_iff_grants]
  constructor
  · rintro ⟨e, ⟨he, hgrants⟩, hactive⟩
    obtain ⟨hold, hne⟩ := (mem_delete_matches hdb hremoved hmatch).mp he
    exact ⟨e, ⟨hold, hgrants⟩, hactive, hne⟩
  · rintro ⟨e, ⟨he, hgrants⟩, hactive, hne⟩
    exact ⟨e, ⟨(mem_delete_matches hdb hremoved hmatch).mpr ⟨he, hne⟩, hgrants⟩, hactive⟩

theorem removesExactly_withRevoke (hdb : db.Consistent) (hremoved : removed ∈ db.enrollments)
    (hmatch : request.matches removed = true) :
    RemovesExactly db (db.withRevoke request removed) removed := by
  have hleft : ∀ scope userId courseId,
      hasActiveEntitlement scope (db.withRevoke request removed) userId courseId = true ↔
        ∃ e, Grants scope db userId courseId e ∧ e.Active scope.now ∧ e ≠ removed :=
    fun _ _ _ => hasActiveEntitlement_withRevoke hdb hremoved hmatch
  refine ⟨fun scope userId courseId => ?_, fun scope userId courseId hnot => ?_, rfl⟩
  · rw [← Bool.not_eq_true, hleft, hasActiveEntitlement_iff_grants]
    constructor
    · rintro ⟨⟨e, hgrants, hactive⟩, hnone⟩
      have honly : ∀ e', Grants scope db userId courseId e' → e'.Active scope.now →
          e' = removed := by
        intro e' hgrants' hactive'
        by_contra hne
        exact hnone ⟨e', hgrants', hactive', hne⟩
      obtain rfl := honly e hgrants hactive
      exact ⟨hgrants, hactive, honly⟩
    · rintro ⟨hgrants, hactive, honly⟩
      refine ⟨⟨removed, hgrants, hactive⟩, ?_⟩
      rintro ⟨e', hgrants', hactive', hne⟩
      exact hne (honly e' hgrants' hactive')
  · rw [Bool.eq_iff_iff, hleft, hasActiveEntitlement_iff_grants]
    constructor
    · rintro ⟨e, hgrants, hactive, -⟩
      exact ⟨e, hgrants, hactive⟩
    · rintro ⟨e, hgrants, hactive⟩
      by_cases hne : e = removed
      · subst hne
        -- another enrollment keeps the course open, or this one would be the only one
        by_contra hnone
        refine hnot ⟨hgrants, hactive, fun e' hgrants' hactive' => ?_⟩
        by_contra hother
        exact hnone ⟨e', hgrants', hactive', hother⟩
      · exact ⟨e, hgrants, hactive, hne⟩

end Revoking

/-! ### Taking back a grant -/

section Undoing

variable {collate : Collation} {mid : Database} {grant : GrantRequest} {revoke : RevokeRequest}
  {draw draw' : EnrollmentDraw} {rowId : Uuid} {outcome : RevokeOutcome}

/-- The enrollments are the same as before the grant. -/
theorem enrollments_grant_revoke
    (hgrant : grantEnrollment collate db grant draw = .ok (.granted rowId, mid))
    (hrevoke : revokeEnrollment mid revoke draw' = .ok (outcome, db'))
    (htenant : revoke.tenantId = grant.tenantId) (hid : revoke.enrollmentId = rowId) :
    outcome = .revoked ∧ ∃ auditLog, db' = { db with auditLog := auditLog } := by
  rcases grantEnrollment_ok hgrant with ⟨message, hnot, -⟩ | ⟨hnot, -⟩ |
    ⟨expiresAt, -, -, hfresh, hgranted, rfl⟩
  · cases hnot
  · cases hnot
  · obtain rfl := GrantOutcome.granted.inj hgranted
    have hnew : revoke.matches (grantedRow grant draw.rowId expiresAt) = true := by
      simp [RevokeRequest.matches, grantedRow, htenant, hid]
    have hold : ∀ e ∈ db.enrollments, revoke.matches e = false := by
      intro e he
      simp [RevokeRequest.matches, hid, hfresh e he]
    rcases revokeEnrollment_ok hrevoke with ⟨-, -, hnone⟩ | ⟨removed, -, -, rfl, rfl⟩
    · have hrow := hnone _ (List.mem_append_right _ (List.mem_singleton_self _))
      exact absurd (hrow.symm.trans hnew) Bool.false_ne_true
    · have henrollments : Table.delete revoke.matches
          (db.enrollments ++ [grantedRow grant draw.rowId expiresAt]) = db.enrollments := by
        rw [Table.delete, List.filter_append, List.filter_singleton, hnew, ← Table.delete,
          Table.delete_eq_self hold]
        simp
      refine ⟨rfl, db.auditLog ++ [grantedAudit grant draw.rowId expiresAt]
        ++ [revokedAudit revoke removed], ?_⟩
      rw [Database.withRevoke, Database.withGrant, henrollments]

end Undoing

/-- **A revocation takes away what the enrollment gave, and a grant that is revoked is undone.** -/
theorem revokeEnrollment_removesExactly :
    (∀ (db db' : Database) (request : RevokeRequest) (draw : EnrollmentDraw), db.Consistent →
      revokeEnrollment db request draw = .ok (.revoked, db') →
      ∃ e ∈ db.enrollments, e.tenantId = request.tenantId ∧ e.id = request.enrollmentId ∧
        RemovesExactly db db' e) ∧
    ∀ (collate : Collation) (db mid db' : Database) (grant : GrantRequest) (revoke : RevokeRequest)
      (draw draw' : EnrollmentDraw) (rowId : Uuid) (outcome : RevokeOutcome),
      grantEnrollment collate db grant draw = .ok (.granted rowId, mid) →
      revoke.tenantId = grant.tenantId → revoke.enrollmentId = rowId →
      revokeEnrollment mid revoke draw' = .ok (outcome, db') →
      outcome = .revoked ∧ ∀ scope ctx lessonId,
        decideLessonAccess scope db' ctx lessonId = decideLessonAccess scope db ctx lessonId := by
  constructor
  · intro db db' request draw hdb hrevoke
    rcases revokeEnrollment_ok hrevoke with ⟨hnot, -⟩ | ⟨removed, hremoved, hmatch, -, rfl⟩
    · cases hnot
    · have hkey := hmatch
      simp only [RevokeRequest.matches, Bool.and_eq_true, decide_eq_true_eq] at hkey
      exact ⟨removed, hremoved, hkey.1, hkey.2, removesExactly_withRevoke hdb hremoved hmatch⟩
  · intro collate db mid db' grant revoke draw draw' rowId outcome hgrant htenant hid hrevoke
    obtain ⟨houtcome, auditLog, rfl⟩ := enrollments_grant_revoke hgrant hrevoke htenant hid
    exact ⟨houtcome, fun _ _ _ => rfl⟩

/-- The office takes the course back. -/
def revokeGenesis : RevokeRequest where
  tenantId := 5
  actorUserId := 1
  enrollmentId := 9
  reason := none

theorem revokeEnrollment_removesExactly_genesis : ∃ mid db',
    grantEnrollment byCode smallInstitute grantGenesis quietDraw = .ok (.granted 9, mid) ∧
      revokeEnrollment mid revokeGenesis quietDraw = .ok (.revoked, db') ∧
      (∃ e ∈ mid.enrollments, e.tenantId = 5 ∧ e.id = 9 ∧ RemovesExactly mid db' e) ∧
      ∀ scope ctx lessonId, decideLessonAccess scope db' ctx lessonId
        = decideLessonAccess scope smallInstitute ctx lessonId := by
  have hgrant : grantEnrollment byCode smallInstitute grantGenesis quietDraw
      = .ok (.granted 9, smallInstitute.withGrant grantGenesis 9 none) := rfl
  have hrevoke : revokeEnrollment (smallInstitute.withGrant grantGenesis 9 none) revokeGenesis
      quietDraw = .ok (.revoked, (smallInstitute.withGrant grantGenesis 9 none).withRevoke
        revokeGenesis (grantedRow grantGenesis 9 none)) := rfl
  have hdb : (smallInstitute.withGrant grantGenesis 9 none).Consistent := by
    constructor <;> decide
  exact ⟨_, _, hgrant, hrevoke, revokeEnrollment_removesExactly.1 _ _ _ _ hdb hrevoke,
    (revokeEnrollment_removesExactly.2 _ _ _ _ _ _ _ _ _ _ hgrant rfl rfl hrevoke).2⟩

end LampLight
