import LampLight.Access.Media
import LampLight.Auth.Invitations
import LampLight.Entitlements.Grants
import LampLight.Media.Attachments
import LampLight.Player.Progress

/-!
# Tenant isolation without row-level security

Seventeen operations run in the scope of one tenant. Each names its tenant again in every query and
in every write, so the policies of the database have nothing left to do: two databases that agree on
the rows of the tenant give the same answers, whatever else they hold, and the rows of the others
stay as they are.

## Main definitions

* `TenantOp`, `TenantOp.run` — the operations

## Main results

* `TenantOp.run_viewOf` — an operation is the same on the tenant's own rows
* `TenantOp.run_othersOf` — it leaves the others' rows alone
* `tenant_isolation` — two databases that agree on the tenant's rows cannot be told apart
-/

namespace LampLight

/-! ### The operations -/

/-- What the operations are given besides their arguments. -/
structure TenantServices where
  media : MediaServices
  collate : Collation
  hashToken : String → String

/-- One call under a tenant, with everything it is passed or draws. Ids may name rows of any
tenant. -/
inductive TenantOp
  | decideLessonAccess (now : Instant) (ctx : AccessContext) (lessonId : Uuid)
  | decideCourseAuthoring (now : Instant) (ctx : AuthorContext) (courseId : Uuid)
  | decideModuleAuthoring (now : Instant) (ctx : AuthorContext) (moduleId : Uuid)
  | decideLessonAuthoring (now : Instant) (ctx : AuthorContext) (lessonId : Uuid)
  | issueLessonMedia (startedAt : Instant) (clock : ℕ → Instant) (userId : Option Uuid)
      (lessonId : Uuid)
  | issueCourseDocuments (startedAt : Instant) (clock : ℕ → Instant) (userId : Option Uuid)
      (courseId : Uuid) (enrolled : Bool)
  | hasActiveEntitlement (now : Instant) (userId courseId : Uuid)
  | listEnrolledCourses (now : Instant) (userId : Uuid)
  | listGrantableSources (now : Instant)
  | grantEnrollment (request : GrantRequest) (draw : EnrollmentDraw)
  | revokeEnrollment (request : RevokeRequest) (draw : EnrollmentDraw)
  | findPendingInvitation (token : String) (now : Instant)
  | completeActivation (invitationId userId : Uuid) (now : Instant)
  | recordProgress (params : ProgressParams) (startedAt now : Instant)
  | reserveAttachment (userId : Uuid) (now : Instant) (target : AttachmentTarget)
      (file : AttachmentFile) (resourceId : Uuid)
  | confirmAttachment (userId : Uuid) (now : Instant) (target : AttachmentTarget)
      (resourceId : Uuid)
  | removeAttachment (userId : Uuid) (now : Instant) (target : AttachmentTarget)
      (resourceId : Uuid)

namespace TenantOp

/-- What a call answers. -/
@[reducible] def Answer : TenantOp → Type
  | .decideLessonAccess .. => AccessDecision
  | .decideCourseAuthoring .. => AuthorDecision
  | .decideModuleAuthoring .. => AuthorDecision
  | .decideLessonAuthoring .. => AuthorDecision
  | .issueLessonMedia .. => Except StorageError (Option (List IssuedMedia))
  | .issueCourseDocuments .. => Except StorageError (List IssuedDocument)
  | .hasActiveEntitlement .. => Bool
  | .listEnrolledCourses .. => List EnrolledCourse
  | .listGrantableSources .. => List GrantableSource
  | .grantEnrollment .. => Except EnrollmentFailure GrantOutcome
  | .revokeEnrollment .. => Except EnrollmentFailure RevokeOutcome
  | .findPendingInvitation .. => Option PendingInvitation
  | .completeActivation .. => Except DbError Bool
  | .recordProgress .. => Except DbError Unit
  | .reserveAttachment .. => Except MediaError UploadTicket
  | .confirmAttachment .. => Except MediaError ActionResult
  | .removeAttachment .. => Except MediaError ActionResult

/-- The ids drawn for new rows are not in use. -/
def Fresh (db : Database) : TenantOp → Prop
  | .grantEnrollment _ draw => ∀ e ∈ db.enrollments, e.id ≠ draw.rowId
  | .reserveAttachment _ _ _ _ resourceId =>
    (∀ r ∈ db.lessonResources, r.id ≠ resourceId) ∧ ∀ r ∈ db.courseResources, r.id ≠ resourceId
  | _ => True

end TenantOp

/-- The outcome of a transaction: one that fails leaves nothing behind. -/
def settle (w : MediaWorld) {ε α : Type} : Except ε (α × Database) → Except ε α × MediaWorld
  | .error e => (.error e, w)
  | .ok (a, db) => (.ok a, { w with db := db })

/-- One call under tenant `t`. -/
def TenantOp.run (s : TenantServices) (t : Uuid) : (op : TenantOp) → MediaWorld →
    op.Answer × MediaWorld
  | .decideLessonAccess now ctx lessonId, w =>
    (LampLight.decideLessonAccess ⟨t, now⟩ w.db ctx lessonId, w)
  | .decideCourseAuthoring now ctx courseId, w =>
    (LampLight.decideCourseAuthoring ⟨t, now⟩ w.db ctx courseId, w)
  | .decideModuleAuthoring now ctx moduleId, w =>
    (LampLight.decideModuleAuthoring ⟨t, now⟩ w.db ctx moduleId, w)
  | .decideLessonAuthoring now ctx lessonId, w =>
    (LampLight.decideLessonAuthoring ⟨t, now⟩ w.db ctx lessonId, w)
  | .issueLessonMedia startedAt clock userId lessonId, w =>
    (LampLight.issueLessonMedia ⟨s.media.env, s.media.signer, startedAt, clock⟩ w.db ⟨t, userId⟩
      lessonId, w)
  | .issueCourseDocuments startedAt clock userId courseId enrolled, w =>
    (LampLight.issueCourseDocuments ⟨s.media.env, s.media.signer, startedAt, clock⟩ w.db
      ⟨t, userId⟩ courseId enrolled, w)
  | .hasActiveEntitlement now userId courseId, w =>
    (LampLight.hasActiveEntitlement ⟨t, now⟩ w.db userId courseId, w)
  | .listEnrolledCourses now userId, w =>
    (LampLight.listEnrolledCourses ⟨t, now⟩ s.collate w.db userId, w)
  | .listGrantableSources now, w => (LampLight.listGrantableSources ⟨t, now⟩ s.collate w.db, w)
  | .grantEnrollment request draw, w =>
    settle w (LampLight.grantEnrollment s.collate w.db { request with tenantId := t } draw)
  | .revokeEnrollment request draw, w =>
    settle w (LampLight.revokeEnrollment w.db { request with tenantId := t } draw)
  | .findPendingInvitation token now, w =>
    (LampLight.findPendingInvitation s.hashToken w.db t token now, w)
  | .completeActivation invitationId userId now, w =>
    settle w (LampLight.completeActivation w.db t invitationId userId now)
  | .recordProgress params startedAt now, w =>
    settle w ((LampLight.recordProgress ⟨t, startedAt⟩ w.db params now).map fun db => ((), db))
  | .reserveAttachment userId now target file resourceId, w =>
    LampLight.reserveAttachment s.media ⟨⟨t, userId⟩, now, target⟩ file resourceId w
  | .confirmAttachment userId now target resourceId, w =>
    LampLight.confirmAttachment s.media ⟨⟨t, userId⟩, now, target⟩ resourceId w
  | .removeAttachment userId now target resourceId, w =>
    LampLight.removeAttachment s.media ⟨⟨t, userId⟩, now, target⟩ resourceId w

/-! ### On the tenant's own rows -/

section Settle

variable {w : MediaWorld} {t : Uuid} {ε α : Type}

theorem settle_onView {x x' : Except ε (α × Database)} (h : x' = x.map (Database.onView t)) :
    settle (w.viewOf t) x' = MediaWorld.onView t (settle w x) := by
  subst h
  cases x with
  | error e => rfl
  | ok x => rfl

theorem settle_othersOf {x : Except ε (α × Database)}
    (h : ∀ a db', x = .ok (a, db') → db'.othersOf t = w.db.othersOf t) :
    (settle w x).2.db.othersOf t = w.db.othersOf t := by
  cases x with
  | error e => rfl
  | ok x => exact h x.1 x.2 rfl

/-- A read. -/
theorem read_onView {a a' : α} (h : a' = a) :
    ((a', w.viewOf t) : α × MediaWorld) = MediaWorld.onView t (a, w) := by
  rw [h]
  rfl

end Settle

namespace TenantOp

variable (s : TenantServices) (t : Uuid) (w : MediaWorld)

/-- **An operation does on the tenant's own rows what it does on the whole database.** -/
theorem run_viewOf (op : TenantOp) (hfresh : op.Fresh w.db) :
    op.run s t (w.viewOf t) = MediaWorld.onView t (op.run s t w) := by
  cases op with
  | decideLessonAccess now ctx lessonId => exact read_onView decideLessonAccess_viewOf
  | decideCourseAuthoring now ctx courseId =>
    exact read_onView (decideCourseAuthoring_viewOf courseId)
  | decideModuleAuthoring now ctx moduleId =>
    exact read_onView (decideModuleAuthoring_viewOf moduleId)
  | decideLessonAuthoring now ctx lessonId => exact read_onView decideLessonAuthoring_viewOf
  | issueLessonMedia startedAt clock userId lessonId => exact read_onView issueLessonMedia_viewOf
  | issueCourseDocuments startedAt clock userId courseId enrolled =>
    exact read_onView issueCourseDocuments_viewOf
  | hasActiveEntitlement now userId courseId => exact read_onView hasActiveEntitlement_viewOf
  | listEnrolledCourses now userId => exact read_onView listEnrolledCourses_viewOf
  | listGrantableSources now => exact read_onView listGrantableSources_viewOf
  | grantEnrollment request draw => exact settle_onView (grantEnrollment_viewOf hfresh)
  | revokeEnrollment request draw => exact settle_onView revokeEnrollment_viewOf
  | findPendingInvitation token now => exact read_onView findPendingInvitation_viewOf
  | completeActivation invitationId userId now => exact settle_onView completeActivation_viewOf
  | recordProgress params startedAt now =>
    exact settle_onView (Machine.map_eq_map_map (Database.viewOf t) recordProgress_viewOf
      fun _ => rfl)
  | reserveAttachment userId now target file resourceId =>
    exact reserveAttachment_viewOf s.media ⟨⟨t, userId⟩, now, target⟩ resourceId w file hfresh.1
      hfresh.2
  | confirmAttachment userId now target resourceId =>
    exact confirmAttachment_viewOf s.media ⟨⟨t, userId⟩, now, target⟩ resourceId w
  | removeAttachment userId now target resourceId =>
    exact removeAttachment_viewOf s.media ⟨⟨t, userId⟩, now, target⟩ resourceId w

/-- **An operation leaves the rows of other tenants as they are.** -/
theorem run_othersOf (op : TenantOp) : (op.run s t w).2.db.othersOf t = w.db.othersOf t := by
  cases op with
  | grantEnrollment request draw => exact settle_othersOf fun _ _ h => grantEnrollment_othersOf h
  | revokeEnrollment request draw => exact settle_othersOf fun _ _ h => revokeEnrollment_othersOf h
  | completeActivation invitationId userId now =>
    exact settle_othersOf fun _ _ h => completeActivation_othersOf h
  | recordProgress params startedAt now =>
    refine settle_othersOf fun _ _ h => ?_
    obtain ⟨db', hrecord, hpair⟩ := Machine.map_eq_ok.mp h
    obtain ⟨-, rfl⟩ := Prod.mk.inj hpair
    exact recordProgress_othersOf hrecord
  | reserveAttachment userId now target file resourceId =>
    exact reserveAttachment_othersOf s.media ⟨⟨t, userId⟩, now, target⟩ resourceId w file
  | confirmAttachment userId now target resourceId =>
    exact confirmAttachment_othersOf s.media ⟨⟨t, userId⟩, now, target⟩ resourceId w
  | removeAttachment userId now target resourceId =>
    exact removeAttachment_othersOf s.media ⟨⟨t, userId⟩, now, target⟩ resourceId w
  | _ => rfl

end TenantOp

/-! ### Isolation -/

/-- **Two databases that agree on the rows of a tenant and on the global users give every operation
the same answer and are left agreeing, and neither loses or gains anything of another tenant.** -/
theorem tenant_isolation (s : TenantServices) (t : Uuid) (op : TenantOp) {w₁ w₂ : MediaWorld}
    (hview : w₁.db.viewOf t = w₂.db.viewOf t) (hbucket : w₁.bucket = w₂.bucket)
    (hfresh₁ : op.Fresh w₁.db) (hfresh₂ : op.Fresh w₂.db) :
    (op.run s t w₁).1 = (op.run s t w₂).1 ∧
      (op.run s t w₁).2.viewOf t = (op.run s t w₂).2.viewOf t ∧
      (op.run s t w₁).2.db.othersOf t = w₁.db.othersOf t ∧
      (op.run s t w₂).2.db.othersOf t = w₂.db.othersOf t := by
  have hsame : w₁.viewOf t = w₂.viewOf t := by
    rw [MediaWorld.viewOf, MediaWorld.viewOf, hview, hbucket]
  have hrun : MediaWorld.onView t (op.run s t w₁) = MediaWorld.onView t (op.run s t w₂) := by
    rw [← op.run_viewOf s t w₁ hfresh₁, hsame, op.run_viewOf s t w₂ hfresh₂]
  obtain ⟨hanswer, hafter⟩ := Prod.mk.inj hrun
  exact ⟨hanswer, hafter, op.run_othersOf s t w₁, op.run_othersOf s t w₂⟩

/-- A deployment without a bucket. -/
def plainServices : TenantServices where
  media :=
    { env := envOf { url := fun _ => true, positiveInt := fun _ => none } fun _ => none
      signer := { signGet := fun request => request.key, signPut := fun request => request.key }
      numberText := fun _ => "" }
  collate := byCode
  hashToken := id

/-- The same institute next to another, where the student runs the office. -/
def withNeighbour : Database :=
  { smallInstitute with
    tenants := smallInstitute.tenants ++ [⟨6, "hope", "Hope", .active, 0⟩]
    memberships := [⟨6, 2, .admin, []⟩] ++ smallInstitute.memberships
    courses := [⟨8, 6, "Exodus", "exodus", none⟩] ++ smallInstitute.courses
    enrollments := [⟨10, 6, 2, .course, 8, some 50, none⟩] }

/-- The office gives the student the course, whoever else is on the instance. -/
theorem tenant_isolation_neighbour :
    let alone : MediaWorld := ⟨smallInstitute, ⟨fun _ => none, []⟩⟩
    let among : MediaWorld := ⟨withNeighbour, ⟨fun _ => none, []⟩⟩
    let op : TenantOp := .grantEnrollment grantGenesis quietDraw
    alone.db.viewOf 5 = among.db.viewOf 5 ∧ op.Fresh alone.db ∧ op.Fresh among.db ∧
      (op.run plainServices 5 alone).1 = (op.run plainServices 5 among).1 ∧
      (op.run plainServices 5 alone).2.viewOf 5 = (op.run plainServices 5 among).2.viewOf 5 ∧
      (op.run plainServices 5 alone).2.db.othersOf 5 = alone.db.othersOf 5 ∧
      (op.run plainServices 5 among).2.db.othersOf 5 = among.db.othersOf 5 := by
  intro alone among op
  have hview : alone.db.viewOf 5 = among.db.viewOf 5 := rfl
  have halone : ∀ e ∈ smallInstitute.enrollments, e.id ≠ quietDraw.rowId := by decide
  have hamong : ∀ e ∈ withNeighbour.enrollments, e.id ≠ quietDraw.rowId := by decide
  exact ⟨hview, halone, hamong,
    tenant_isolation plainServices 5 op hview rfl halone hamong⟩

end LampLight
