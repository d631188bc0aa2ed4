import LampLight.Tenancy.Isolation

/-!
# A tenant among others

The operations of many tenants follow one another in any order, clients put objects through the URLs
they were handed, and the authentication library changes the users. One tenant's share of such a run
is the run of its own operations on its own rows and its own part of the bucket. The others are
still there in one place: the users are global, and a share sees what becomes of them.

There are no policies here. The filters of the first layer carry this, and the prefix of a key.

## Main definitions

* `TenantEvent`, `eventStep` — what happens to a deployment
* `MediaWorld.privateTo` — the rows of a tenant, and the objects under its prefix
* `shadows` — a tenant's share of a run

## Main results

* `run_privateTo` — an operation on the tenant's own part is the operation
* `share_alone` — a tenant's share of a run is the run of its own events
-/

namespace LampLight

open Machine (run Meets)
open Table (owned others)

/-! ### Keys and prefixes -/

/-- A key belongs to one tenant. -/
theorem tenant_unique {key : String} {t u : Uuid} (ht : keyBelongsToTenant key t = true)
    (hu : keyBelongsToTenant key u = true) : t = u := by
  rw [keyBelongsToTenant] at ht hu
  split_ifs at ht hu
  obtain ⟨rest, hrest⟩ := List.isPrefixOf_iff_prefix.mp ht
  obtain ⟨rest', hrest'⟩ := List.isPrefixOf_iff_prefix.mp hu
  rw [← hrest', toList_tenantPrefix, toList_tenantPrefix] at hrest
  obtain ⟨htenant, -⟩ := append_slash_inj (slash_notMem_uuidText _) (slash_notMem_uuidText _)
    (List.cons.inj (List.cons.inj hrest).2).2
  exact uuidText_toList_inj htenant

namespace Bucket

/-- The part of the bucket under a tenant's prefix. -/
def under (t : Uuid) (bucket : Bucket) : Bucket where
  objects key := if keyBelongsToTenant key t then bucket.objects key else none
  signedPuts := bucket.signedPuts.filter fun x => keyBelongsToTenant x.1.key t

variable {t u : Uuid} {bucket bucket' : Bucket} {key : String}

theorem under_objects (h : keyBelongsToTenant key t = true) :
    (bucket.under t).objects key = bucket.objects key := if_pos h

theorem under_put (h : keyBelongsToTenant key t = true) (facts : ObjectFacts) :
    (bucket.put key facts).under t = (bucket.under t).put key facts := by
  simp only [under, put, Bucket.mk.injEq, and_true]
  funext k
  by_cases hk : k = key
  · subst hk
    rw [Function.update_self, if_pos h, Function.update_self]
  · rw [Function.update_of_ne hk, Function.update_of_ne hk]

theorem under_put_of_not (h : keyBelongsToTenant key t ≠ true) (facts : ObjectFacts) :
    (bucket.put key facts).under t = bucket.under t := by
  simp only [under, put, Bucket.mk.injEq, and_true]
  funext k
  by_cases hk : k = key
  · subst hk
    rw [if_neg h, if_neg h]
  · rw [Function.update_of_ne hk]

theorem under_remove (h : keyBelongsToTenant key t = true) :
    (bucket.remove key).under t = (bucket.under t).remove key := by
  simp only [under, remove, Bucket.mk.injEq, and_true]
  funext k
  by_cases hk : k = key
  · subst hk
    rw [Function.update_self, Function.update_self, ite_self]
  · rw [Function.update_of_ne hk, Function.update_of_ne hk]

theorem under_remove_of_ne (hu : keyBelongsToTenant key u = true) (hne : t ≠ u) :
    (bucket.remove key).under t = bucket.under t := by
  simp only [under, remove, Bucket.mk.injEq, and_true]
  funext k
  by_cases hk : k = key
  · subst hk
    rw [if_neg fun ht => hne (tenant_unique ht hu), if_neg fun ht => hne (tenant_unique ht hu)]
  · rw [Function.update_of_ne hk]

end Bucket

/-! ### The operations on the bucket -/

section Storage

variable {env : Env} {t u : Uuid} {bucket : Bucket} {key : String}

theorem statObject_under :
    statObject env t key (bucket.under t) = statObject env t key bucket := by
  rw [statObject, statObject]
  cases hopen : openStorage env t key with
  | error e => rfl
  | ok _ => exact congrArg Except.ok (Bucket.under_objects (belongs_of_openStorage hopen))

theorem deleteObject_under :
    deleteObject env t key (bucket.under t)
      = (deleteObject env t key bucket).map (Bucket.under t) := by
  rw [deleteObject, deleteObject]
  cases hopen : openStorage env t key with
  | error e => rfl
  | ok _ => exact congrArg Except.ok (Bucket.under_remove (belongs_of_openStorage hopen)).symm

theorem signObjectWrite_under {signer : StorageSigner} {contentType : String} {now : Instant} :
    signObjectWrite env signer t key contentType now (bucket.under t)
      = (signObjectWrite env signer t key contentType now bucket).map
          fun x => (x.1, x.2.under t) := by
  rw [signObjectWrite, signObjectWrite]
  cases hopen : openStorage env t key with
  | error e => rfl
  | ok _ =>
    have hkey := belongs_of_openStorage hopen
    simp [Except.map, Bucket.under, hkey]

end Storage

/-! ### Three of the operations use the bucket -/

/-- The objects under the tenant's prefix, and every row. -/
def MediaWorld.bucketOf (t : Uuid) (w : MediaWorld) : MediaWorld :=
  { w with bucket := w.bucket.under t }

/-- The rows of a tenant, and the objects under its prefix. -/
def MediaWorld.privateTo (t : Uuid) (w : MediaWorld) : MediaWorld where
  db := w.db.viewOf t
  bucket := w.bucket.under t

section Uploads

variable (s : MediaServices) (call : AttachmentCall) (resourceId : Uuid) (w : MediaWorld) {u : Uuid}

theorem inspectUpload_under {t : Uuid} (kind : UploadKind) (key : String) (bucket : Bucket) :
    inspectUpload s kind t key (bucket.under t)
      = ((inspectUpload s kind t key bucket).1, (inspectUpload s kind t key bucket).2.under t) := by
  rw [inspectUpload, inspectUpload, statObject_under]
  cases statObject s.env t key bucket with
  | error e => rfl
  | ok found =>
    cases found with
    | none => rfl
    | some facts =>
      dsimp only
      cases checkUpload s.numberText kind (facts.contentType.getD "") (.finite facts.byteSize) with
      | ok type => rfl
      | error message =>
        dsimp only
        rw [deleteObject_under]
        cases deleteObject s.env t key bucket <;> rfl

/-- What an inspection deletes is the tenant's. -/
theorem inspectUpload_others {t : Uuid} (hne : u ≠ t) (kind : UploadKind) (key : String)
    (bucket : Bucket) : (inspectUpload s kind t key bucket).2.under u = bucket.under u := by
  rw [inspectUpload]
  split
  · rfl
  · rfl
  · split
    · rfl
    · split
      · rfl
      · next hdelete =>
        obtain ⟨_, hopen, rfl⟩ := Machine.map_eq_ok.mp hdelete
        exact Bucket.under_remove_of_ne (belongs_of_openStorage hopen) hne

theorem reserveAttachment_under (file : AttachmentFile) :
    reserveAttachment s call file resourceId (w.bucketOf call.ctx.tenantId)
      = ((reserveAttachment s call file resourceId w).1,
          (reserveAttachment s call file resourceId w).2.bucketOf call.ctx.tenantId) := by
  rw [reserveAttachment, reserveAttachment]
  split_ifs
  · rfl
  · cases checkUpload s.numberText .document file.contentType file.byteSize with
    | error message => rfl
    | ok contentType =>
      dsimp only [MediaWorld.bucketOf]
      cases reserveDocument w.db call file resourceId with
      | error e => rfl
      | ok reserved =>
        cases reserved with
        | none => rfl
        | some x =>
          dsimp only
          rw [signObjectWrite_under]
          cases signObjectWrite s.env s.signer call.ctx.tenantId x.1 contentType call.now w.bucket
            <;> rfl

theorem reserveAttachment_others (hne : u ≠ call.ctx.tenantId) (file : AttachmentFile) :
    (reserveAttachment s call file resourceId w).2.bucket.under u = w.bucket.under u := by
  rw [reserveAttachment]
  split_ifs
  · rfl
  · split
    · rfl
    · split
      · rfl
      · rfl
      · split
        · rfl
        · next hsign =>
          obtain ⟨_, hopen, hpair⟩ := Machine.map_eq_ok.mp hsign
          obtain ⟨-, rfl⟩ := Prod.mk.inj hpair
          have hkey := belongs_of_openStorage hopen
          have hother : ∀ key, keyBelongsToTenant key call.ctx.tenantId = true →
              keyBelongsToTenant key u = false := fun key h =>
            Bool.eq_false_iff.mpr fun hu => hne (tenant_unique hu h)
          simp [Bucket.under, hother _ hkey]

theorem confirmAttachment_under :
    confirmAttachment s call resourceId (w.bucketOf call.ctx.tenantId)
      = ((confirmAttachment s call resourceId w).1,
          (confirmAttachment s call resourceId w).2.bucketOf call.ctx.tenantId) := by
  rw [confirmAttachment, confirmAttachment]
  dsimp only [MediaWorld.bucketOf]
  cases findAttachmentKey w.db call resourceId with
  | none => rfl
  | some key =>
    dsimp only
    rw [inspectUpload_under]
    cases inspectUpload s .document call.ctx.tenantId key w.bucket with
    | mk inspection bucket =>
      cases inspection with
      | error e => rfl
      | ok inspection =>
        cases inspection with
        | refused message => rfl
        | accepted facts =>
          dsimp only
          cases commitAttachment w.db call resourceId facts <;> rfl

theorem confirmAttachment_others (hne : u ≠ call.ctx.tenantId) :
    (confirmAttachment s call resourceId w).2.bucket.under u = w.bucket.under u := by
  rw [confirmAttachment]
  split
  · rfl
  · next key _ =>
    have hothers := inspectUpload_others s hne .document key w.bucket
    split
    · next hinspect => rwa [hinspect] at hothers
    · next hinspect => rwa [hinspect] at hothers
    · next hinspect =>
      rw [hinspect] at hothers
      split <;> exact hothers

theorem removeAttachment_under :
    removeAttachment s call resourceId (w.bucketOf call.ctx.tenantId)
      = ((removeAttachment s call resourceId w).1,
          (removeAttachment s call resourceId w).2.bucketOf call.ctx.tenantId) := by
  rw [removeAttachment, removeAttachment]
  dsimp only [MediaWorld.bucketOf]
  cases deleteAttachment w.db call resourceId with
  | error e => rfl
  | ok x =>
    obtain ⟨found, db'⟩ := x
    cases found with
    | none => rfl
    | some found =>
      dsimp only
      cases found.filter fun key => key ≠ "" with
      | none => rfl
      | some key =>
        dsimp only
        split_ifs
        · rw [deleteObject_under]
          cases deleteObject s.env call.ctx.tenantId key w.bucket <;> rfl
        · rfl

theorem removeAttachment_others (hne : u ≠ call.ctx.tenantId) :
    (removeAttachment s call resourceId w).2.bucket.under u = w.bucket.under u := by
  rw [removeAttachment]
  split
  · rfl
  · rfl
  · split
    · rfl
    · split_ifs
      · split
        · next hdelete =>
          obtain ⟨_, hopen, rfl⟩ := Machine.map_eq_ok.mp hdelete
          exact Bucket.under_remove_of_ne (belongs_of_openStorage hopen) hne
        · rfl
      · rfl

end Uploads

/-! ### One operation -/

namespace TenantOp

variable (s : TenantServices) (t : Uuid) (w : MediaWorld) {u : Uuid}

theorem settle_bucketOf {ε α : Type} (x : Except ε (α × Database)) :
    settle (w.bucketOf t) x = ((settle w x).1, (settle w x).2.bucketOf t) := by
  cases x <;> rfl

/-- An operation finds under its tenant's prefix what it finds in the bucket. -/
theorem run_bucketOf (op : TenantOp) :
    op.run s t (w.bucketOf t) = ((op.run s t w).1, (op.run s t w).2.bucketOf t) := by
  cases op with
  | grantEnrollment request draw => exact settle_bucketOf t w _
  | revokeEnrollment request draw => exact settle_bucketOf t w _
  | completeActivation invitationId userId now => exact settle_bucketOf t w _
  | recordProgress params startedAt now => exact settle_bucketOf t w _
  | reserveAttachment userId now target file resourceId =>
    exact reserveAttachment_under s.media ⟨⟨t, userId⟩, now, target⟩ resourceId w file
  | confirmAttachment userId now target resourceId =>
    exact confirmAttachment_under s.media ⟨⟨t, userId⟩, now, target⟩ resourceId w
  | removeAttachment userId now target resourceId =>
    exact removeAttachment_under s.media ⟨⟨t, userId⟩, now, target⟩ resourceId w
  | _ => rfl

/-- **An operation on the tenant's own part of the world is the operation.** -/
theorem run_privateTo (op : TenantOp) (hfresh : op.Fresh w.db) :
    op.run s t (w.privateTo t) = ((op.run s t w).1, (op.run s t w).2.privateTo t) := by
  have hview := op.run_viewOf s t w hfresh
  have hbucket := op.run_bucketOf s t (w.viewOf t)
  rw [hview] at hbucket
  exact hbucket

/-- It touches nothing under another tenant's prefix. -/
theorem run_others_bucket (op : TenantOp) (hne : u ≠ t) :
    (op.run s t w).2.bucket.under u = w.bucket.under u := by
  have hsettle : ∀ {ε α : Type} (x : Except ε (α × Database)),
      (settle w x).2.bucket = w.bucket := fun x => by cases x <;> rfl
  cases op with
  | grantEnrollment request draw => exact congrArg _ (hsettle _)
  | revokeEnrollment request draw => exact congrArg _ (hsettle _)
  | completeActivation invitationId userId now => exact congrArg _ (hsettle _)
  | recordProgress params startedAt now => exact congrArg _ (hsettle _)
  | reserveAttachment userId now target file resourceId =>
    exact reserveAttachment_others s.media ⟨⟨t, userId⟩, now, target⟩ resourceId w hne file
  | confirmAttachment userId now target resourceId =>
    exact confirmAttachment_others s.media ⟨⟨t, userId⟩, now, target⟩ resourceId w hne
  | removeAttachment userId now target resourceId =>
    exact removeAttachment_others s.media ⟨⟨t, userId⟩, now, target⟩ resourceId w hne
  | _ => rfl

end TenantOp

/-! ### What an operation leaves of another tenant -/

/-- Rows of one owner are among the others' of another. -/
theorem owned_eq_of_others {ρ τ : Type} [DecidableEq τ] {owner : ρ → τ} {t u : τ} (hne : t ≠ u)
    {r r' : List ρ} (h : others owner u r' = others owner u r) :
    owned owner t r' = owned owner t r := by
  have hpart : ∀ r : List ρ, owned owner t (others owner u r) = owned owner t r := by
    intro r
    rw [owned, others, List.filter_filter, owned]
    refine List.filter_congr fun a _ => ?_
    by_cases ha : owner a = t
    · simp [ha, hne]
    · simp [ha]
  rw [← hpart r', h, hpart r]

/-- What is left alone of everybody but `u` is left alone of `t`. The users are global. -/
theorem viewOf_eq_of_othersOf {db db' : Database} {t u : Uuid} (hne : t ≠ u)
    (h : db'.othersOf u = db.othersOf u) :
    db'.viewOf t = { db.viewOf t with users := db'.users } := by
  have hkeep : ∀ {ρ : Type} (owner : ρ → Uuid) (rows : Database → List ρ),
      others owner u (rows db') = others owner u (rows db) →
      owned owner t (rows db') = owned owner t (rows db) := fun _ _ => owned_eq_of_others hne
  simp only [Database.viewOf,
    hkeep TenantRow.id (·.tenants) (congrArg (·.tenants) h),
    hkeep TenantSettingsRow.tenantId (·.tenantSettings) (congrArg (·.tenantSettings) h),
    hkeep TenantDomainRow.tenantId (·.tenantDomains) (congrArg (·.tenantDomains) h),
    hkeep MembershipRow.tenantId (·.memberships) (congrArg (·.memberships) h),
    hkeep SignupInvitationRow.tenantId (·.signupInvitations) (congrArg (·.signupInvitations) h),
    hkeep ProgramRow.tenantId (·.programs) (congrArg (·.programs) h),
    hkeep CourseRow.tenantId (·.courses) (congrArg (·.courses) h),
    hkeep ProgramCourseRow.tenantId (·.programCourses) (congrArg (·.programCourses) h),
    hkeep CourseInstructorRow.tenantId (·.courseInstructors) (congrArg (·.courseInstructors) h),
    hkeep ModuleRow.tenantId (·.modules) (congrArg (·.modules) h),
    hkeep LessonRow.tenantId (·.lessons) (congrArg (·.lessons) h),
    hkeep LessonResourceRow.tenantId (·.lessonResources) (congrArg (·.lessonResources) h),
    hkeep CourseResourceRow.tenantId (·.courseResources) (congrArg (·.courseResources) h),
    hkeep EnrollmentRow.tenantId (·.enrollments) (congrArg (·.enrollments) h),
    hkeep ProgressRow.tenantId (·.progress) (congrArg (·.progress) h),
    hkeep AuditRow.tenantId (·.auditLog) (congrArg (·.auditLog) h)]

/-! ### Runs -/

/-- What happens to a deployment. -/
inductive TenantEvent
  | op (tenantId : Uuid) (op : TenantOp)
  /-- A client sends an object through a signed URL. -/
  | put (key : String) (facts : ObjectFacts)
  /-- Accounts come and change. -/
  | users (users : List UserRow)

/-- The world with other users. -/
def MediaWorld.withUsers (w : MediaWorld) (users : List UserRow) : MediaWorld :=
  { w with db := { w.db with users := users } }

/-- The world after an event. -/
def eventStep (s : TenantServices) (w : MediaWorld) : TenantEvent → MediaWorld
  | .op t op => (op.run s t w).2
  | .put key facts => { w with bucket := w.bucket.put key facts }
  | .users users => w.withUsers users

/-- What tenant `t` is answered in an event. -/
def answerTo (s : TenantServices) (t : Uuid) (w : MediaWorld) :
    TenantEvent → List (Σ op : TenantOp, op.Answer)
  | .op u op => if u = t then [⟨op, (op.run s t w).1⟩] else []
  | .put _ _ => []
  | .users _ => []

/-- What it is answered in a run. -/
def answersTo (s : TenantServices) (t : Uuid) :
    MediaWorld → List TenantEvent → List (Σ op : TenantOp, op.Answer)
  | _, [] => []
  | w, e :: es => answerTo s t w e ++ answersTo s t (eventStep s w e) es

/-- What an event is to tenant `t`. -/
def shadow (s : TenantServices) (t : Uuid) (w : MediaWorld) : TenantEvent → List TenantEvent
  | .op u op => if u = t then [.op t op] else [.users (op.run s u w).2.db.users]
  | .put key facts => if keyBelongsToTenant key t then [.put key facts] else []
  | .users users => [.users users]

/-- A tenant's share of a run. -/
def shadows (s : TenantServices) (t : Uuid) : MediaWorld → List TenantEvent → List TenantEvent
  | _, [] => []
  | w, e :: es => shadow s t w e ++ shadows s t (eventStep s w e) es

/-- The ids that tenant `t` draws are not in use. -/
def FreshFor (t : Uuid) (w : MediaWorld) (e : TenantEvent) : Prop :=
  ∀ op, e = .op t op → op.Fresh w.db

section Runs

variable (s : TenantServices) {t : Uuid} {w : MediaWorld}

/-- An event, to a tenant, is what it is a shadow of. -/
theorem run_shadow (e : TenantEvent) (hfresh : FreshFor t w e) :
    run (eventStep s) (w.privateTo t) (shadow s t w e) = (eventStep s w e).privateTo t := by
  cases e with
  | op u op =>
    rw [shadow]
    split_ifs with hu
    · subst hu
      exact congrArg Prod.snd (op.run_privateTo s u w (hfresh op rfl))
    · have hne : t ≠ u := fun h => hu h.symm
      have hview := viewOf_eq_of_othersOf hne (op.run_othersOf s u w)
      have hbucket := op.run_others_bucket s u w hne
      show MediaWorld.mk _ _ = MediaWorld.mk _ _
      rw [MediaWorld.mk.injEq]
      exact ⟨hview.symm, hbucket.symm⟩
  | put key facts =>
    rw [shadow]
    split_ifs with hkey
    · exact congrArg (MediaWorld.mk _) (Bucket.under_put hkey facts).symm
    · exact congrArg (MediaWorld.mk _) (Bucket.under_put_of_not hkey facts).symm
  | users users => rfl

/-- A tenant's share of a run, on its own part of the world, leaves that part of what the run
leaves. -/
theorem run_shadows {events : List TenantEvent}
    (hfresh : Meets (eventStep s) (FreshFor t) w events) :
    run (eventStep s) (w.privateTo t) (shadows s t w events)
      = (run (eventStep s) w events).privateTo t := by
  induction events generalizing w with
  | nil => rfl
  | cons e es ih =>
    rw [shadows, Machine.run_append, run_shadow s e hfresh.1, Machine.run_cons]
    exact ih hfresh.2

theorem answersTo_append (events events' : List TenantEvent) :
    answersTo s t w (events ++ events')
      = answersTo s t w events ++ answersTo s t (run (eventStep s) w events) events' := by
  induction events generalizing w with
  | nil => rfl
  | cons e es ih =>
    simp only [List.cons_append, answersTo, ih, Machine.run_cons, List.append_assoc]

/-- What a tenant is answered in an event, it is answered in the shadow. -/
theorem answersTo_shadow (e : TenantEvent) (hfresh : FreshFor t w e) :
    answersTo s t (w.privateTo t) (shadow s t w e) = answerTo s t w e := by
  cases e with
  | op u op =>
    rw [shadow, answerTo]
    split_ifs with hu
    · subst hu
      have hrun := congrArg Prod.fst (op.run_privateTo s u w (hfresh op rfl))
      simp only [answersTo, answerTo, if_true, List.append_nil, hrun]
    · rfl
  | put key facts =>
    rw [shadow]
    split_ifs <;> rfl
  | users users => rfl

/-- **A tenant's share of a run is the run of its own events.** Take the rows and the objects of
every other tenant away, and every operation of theirs: the operations of this tenant answer what
they answered, and leave its rows and its objects as they left them. -/
theorem share_alone (t : Uuid) (w : MediaWorld) (events : List TenantEvent)
    (hfresh : Meets (eventStep s) (FreshFor t) w events) :
    answersTo s t (w.privateTo t) (shadows s t w events) = answersTo s t w events ∧
      run (eventStep s) (w.privateTo t) (shadows s t w events)
        = (run (eventStep s) w events).privateTo t := by
  refine ⟨?_, run_shadows s hfresh⟩
  induction events generalizing w with
  | nil => rfl
  | cons e es ih =>
    rw [shadows, answersTo_append, answersTo_shadow s e hfresh.1, run_shadow s e hfresh.1,
      ih _ hfresh.2, answersTo]

end Runs

/-- The neighbour takes a course away, and the office gives one. -/
def neighbourly : List TenantEvent :=
  [.op 6 (.revokeEnrollment ⟨6, 2, 10, none⟩ quietDraw),
    .put (tenantPrefix 6 ++ "logo.png") ⟨4, none⟩,
    .op 5 (.grantEnrollment grantGenesis quietDraw), .op 5 (.hasActiveEntitlement 100 2 7)]

theorem share_alone_neighbourly :
    let w : MediaWorld := ⟨withNeighbour, ⟨fun _ => none, []⟩⟩
    let own := shadows plainServices 5 w neighbourly
    Meets (eventStep plainServices) (FreshFor 5) w neighbourly ∧
      answersTo plainServices 5 (w.privateTo 5) own = answersTo plainServices 5 w neighbourly ∧
      run (eventStep plainServices) (w.privateTo 5) own
        = (run (eventStep plainServices) w neighbourly).privateTo 5 := by
  intro w own
  have hother : ∀ w (op : TenantOp), FreshFor 5 w (.op 6 op) := by
    rintro w op op' ⟨⟩
  have hput : ∀ w key facts, FreshFor 5 w (.put key facts) := by
    rintro w key facts op ⟨⟩
  have hfresh : Meets (eventStep plainServices) (FreshFor 5) w neighbourly := by
    refine ⟨hother _ _, hput _ _ _, ?_, ?_, trivial⟩
    · rintro op ⟨⟩
      show ∀ e ∈ (_ : MediaWorld).db.enrollments, e.id ≠ quietDraw.rowId
      decide
    · rintro op ⟨⟩
      trivial
  exact ⟨hfresh, share_alone plainServices 5 w neighbourly hfresh⟩

end LampLight
