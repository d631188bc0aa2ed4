import LampLight.Media.Resources

/-!
# A lesson's recording

The three server actions behind the recording of a lesson: reserving an upload, confirming that it
arrived, and removing it. Confirming is one transaction to find the key, one request to the bucket,
one transaction to list what the new recording replaces, one to write, and one request for each
object that is replaced; each of these steps is a function of its own here.

## Main results

* `commitUpload_ok` — what the transaction that makes a recording ready writes
* `foldl_purgeObject_of_ne` — objects that nothing replaces stay
-/

namespace LampLight

open Js (Json Number)

/-! ### Reserving -/

/-- The form behind an upload, with the numbers `Number` makes of its fields. -/
structure UploadForm where
  lessonId : Uuid
  filename : String
  contentType : String
  byteSize : Number

/-- What the runtime chooses while an upload is reserved. -/
structure UploadDraw where
  resourceId : Uuid
  now : Instant

/-- Writes the row that a new object will fill, before there is an object. -/
def reserveRecording (db : Database) (ctx : AuthorContext) (form : UploadForm) (draw : UploadDraw) :
    Except DbError (Option (String × Database)) :=
  if (decideLessonAuthoring { tenantId := ctx.tenantId, now := draw.now } db ctx
      form.lessonId).allowed then
    let objectKey := buildObjectKey
      { tenantId := ctx.tenantId, purpose := .lesson, objectId := draw.resourceId,
        filename := form.filename }
    let inserted := db.insertLessonResource
      { id := draw.resourceId
        tenantId := ctx.tenantId
        lessonId := form.lessonId
        kind := .audio
        storageKey := some objectKey
        url := none
        filename := some form.filename
        byteSize := none
        isDownloadable := false
        sortOrder := 0 }
    (inserted.bind fun db => db.insertAuditLog
      { tenantId := ctx.tenantId
        actorUserId := some ctx.userId
        action := "lesson_resource.upload_requested"
        targetType := "lesson"
        targetId := some form.lessonId
        metadataJson := [("filename", .str form.filename)] }).map fun db => some (objectKey, db)
  else .ok none

/-- Issues a presigned PUT for a lesson's audio, and the row it will fill. -/
def requestUploadAction (s : MediaServices) (ctx : AuthorContext) (form : UploadForm)
    (draw : UploadDraw) (w : MediaWorld) : Except MediaError UploadTicket × MediaWorld :=
  if storageConfigured s.env = false then
    (.ok (.error "Media storage is not configured on this instance."), w)
  else
    match checkUpload s.numberText .audio form.contentType form.byteSize with
    | .error message => (.ok (.error message), w)
    | .ok contentType =>
      match reserveRecording w.db ctx form draw with
      | .error e => (.error (.database e), w)
      | .ok none => (.ok (.error "That lesson is not available to you."), w)
      | .ok (some (key, db)) =>
        -- The row is committed before anything is signed.
        match signObjectWrite s.env s.signer ctx.tenantId key contentType draw.now w.bucket with
        | .error e => (.error (.storage e), { w with db := db })
        | .ok (signed, bucket) =>
          (.ok (.ok { resourceId := draw.resourceId, uploadUrl := signed.url,
                      contentType := contentType }), { db := db, bucket := bucket })

/-! ### Confirming -/

/-- One call of the confirming action: who makes it, when, and the form. -/
structure UploadCall where
  ctx : AuthorContext
  now : Instant
  lessonId : Uuid
  resourceId : Uuid
  durationSeconds : Number
  isDownloadable : Bool

/-- Where and when a request is served. -/
def UploadCall.scope (call : UploadCall) : TenantScope :=
  { tenantId := call.ctx.tenantId, now := call.now }

/-- The same answer for "not yours" and "does not exist". -/
def DENIED : ActionResult := .error "That course is not available to you."

/-- The key of a resource of this lesson, for somebody who may change the lesson. -/
def findRecordingKey (db : Database) (call : UploadCall) : Option String :=
  if (decideLessonAuthoring call.scope db call.ctx call.lessonId).allowed then
    ((db.lessonResources.find? fun r => r.tenantId = call.ctx.tenantId && r.id = call.resourceId &&
      r.lessonId = call.lessonId).bind (·.storageKey)).filter fun key => key ≠ ""
  else none

/-- What the new recording replaces. -/
structure Superseded where
  id : Uuid
  storageKey : Option String
deriving DecidableEq

/-- The other recordings of a lesson, which a new one takes the place of. -/
def listSuperseded (db : Database) (call : UploadCall) : List Superseded :=
  (db.lessonResources.filter fun r => r.tenantId = call.ctx.tenantId &&
    r.lessonId = call.lessonId && r.kind = .audio && r.id ≠ call.resourceId).map fun r =>
      { id := r.id, storageKey := r.storageKey }

/-- Makes the row ready, records the duration when there is one, and deletes what is replaced. -/
def commitUpload (numberText : ℚ → String) (db : Database) (call : UploadCall) (facts : ObjectFacts)
    (superseded : List Superseded) : Except DbError Database :=
  let tenantId := call.ctx.tenantId
  let duration := readDuration call.durationSeconds
  let ready := db.updateLessonResource tenantId call.resourceId fun r =>
    { r with byteSize := some facts.byteSize, isDownloadable := call.isDownloadable }
  let measured : Database :=
    match duration with
    | none => ready
    | some seconds => { ready with
        lessons := Table.update (fun l => l.tenantId = tenantId && l.id = call.lessonId)
          (fun l => { l with durationSeconds := some seconds }) ready.lessons }
  let replaced := measured.deleteLessonResources tenantId (superseded.map (·.id))
  (Database.checked
    [(.numericValueOutOfRange "duration_seconds", duration.any fun seconds => 2 ^ 31 ≤ seconds)]
    replaced).bind fun db => db.insertAuditLog
      { tenantId := tenantId
        actorUserId := some call.ctx.userId
        action := "lesson_resource.uploaded"
        targetType := "lesson"
        targetId := some call.lessonId
        metadataJson :=
          [("resourceId", .str (uuidText call.resourceId)),
            ("byteSize", .num (.finite facts.byteSize)),
            ("size", .str (formatBytes numberText facts.byteSize)),
            ("durationSeconds",
              duration.elim Json.null fun seconds => .num (.finite seconds)),
            ("replaced", .arr (superseded.map fun old => .str (uuidText old.id)))] }

/-- Deletes one replaced object. A link has none, and a failure is left for the operator. -/
def purgeObject (env : Env) (tenantId : Uuid) (bucket : Bucket) (old : Superseded) : Bucket :=
  match old.storageKey.filter fun key => key ≠ "" with
  | none => bucket
  | some key =>
    match deleteObject env tenantId key bucket with
    | .ok bucket' => bucket'
    | .error _ => bucket

/-- Confirms that an upload arrived, and only then makes it playable. The objects it replaces go
last. -/
def completeUploadAction (s : MediaServices) (call : UploadCall) (w : MediaWorld) :
    Except MediaError ActionResult × MediaWorld :=
  if storageConfigured s.env = false then
    (.ok (.error "Media storage is not configured on this instance."), w)
  else
    match findRecordingKey w.db call with
    | none => (.ok DENIED, w)
    | some key =>
      match inspectUpload s .audio call.ctx.tenantId key w.bucket with
      | (.error e, bucket) => (.error (.storage e), { w with bucket := bucket })
      | (.ok (.refused message), bucket) => (.ok (.error message), { w with bucket := bucket })
      | (.ok (.accepted facts), bucket) =>
        let superseded := listSuperseded w.db call
        match commitUpload s.numberText w.db call facts superseded with
        | .error e => (.error (.database e), { w with bucket := bucket })
        | .ok db =>
          (.ok .ok,
            { db := db, bucket := superseded.foldl (purgeObject s.env call.ctx.tenantId) bucket })

/-! ### Removing -/

/-- Removes a recording, object first. The row goes even when the object does not. -/
def removeResourceAction (s : MediaServices) (call : UploadCall) (w : MediaWorld) :
    Except MediaError ActionResult × MediaWorld :=
  let tenantId := call.ctx.tenantId
  match findRecordingKey w.db call with
  | none => (.ok DENIED, w)
  | some key =>
    let bucket :=
      if storageConfigured s.env = true then
        match deleteObject s.env tenantId key w.bucket with
        | .ok bucket' => bucket'
        | .error _ => w.bucket
      else w.bucket
    match (w.db.deleteLessonResources tenantId [call.resourceId]).insertAuditLog
        { tenantId := tenantId
          actorUserId := some call.ctx.userId
          action := "lesson_resource.removed"
          targetType := "lesson"
          targetId := some call.lessonId
          metadataJson :=
            [("resourceId", .str (uuidText call.resourceId)), ("storageKey", .str key)] } with
    | .error e => (.error (.database e), { w with bucket := bucket })
    | .ok db => (.ok .ok, { db := db, bucket := bucket })

/-! ### What they come to -/

variable {s : MediaServices} {db db' : Database} {call : UploadCall} {key : String}

/-- A reserved key that belongs is signed. -/
theorem requestUploadAction_eq {ctx : AuthorContext} {form : UploadForm} {draw : UploadDraw}
    {w : MediaWorld} {type : String} (hs : storageConfigured s.env = true)
    (hcheck : checkUpload s.numberText .audio form.contentType form.byteSize = .ok type)
    (hreserve : reserveRecording w.db ctx form draw = .ok (some (key, db)))
    (hkey : keyBelongsToTenant key ctx.tenantId = true) :
    let request : SignRequest :=
      { key := key, expiresInSeconds := 15 * 60, contentType := some type }
    let signed : SignedUrl :=
      { url := s.signer.signPut request, expiresAt := draw.now + (15 * 60 : ℕ) * 1000 }
    requestUploadAction s ctx form draw w
      = (.ok (.ok { resourceId := draw.resourceId, uploadUrl := signed.url, contentType := type }),
          { db := db
            bucket :=
              { w.bucket with signedPuts := w.bucket.signedPuts ++ [(request, signed)] } }) := by
  dsimp only
  rw [requestUploadAction, if_neg (by simp [hs]), hcheck]
  dsimp only
  rw [hreserve]
  dsimp only
  rw [signObjectWrite_eq hs hkey]

/-- Whoever gets a key may change the lesson, and the row is the one they named. -/
theorem findRecordingKey_eq_some (h : findRecordingKey db call = some key) :
    (decideLessonAuthoring call.scope db call.ctx call.lessonId).allowed = true ∧ key ≠ "" ∧
      ∃ r ∈ db.lessonResources, r.tenantId = call.ctx.tenantId ∧ r.id = call.resourceId ∧
        r.lessonId = call.lessonId ∧ r.storageKey = some key := by
  rw [findRecordingKey] at h
  split at h
  · next hallowed =>
    obtain ⟨hbind, hne⟩ := Option.filter_eq_some_iff.mp h
    obtain ⟨r, hr, hkey⟩ := Option.bind_eq_some_iff.mp hbind
    have hp := List.find?_some hr
    simp only [Bool.and_eq_true, decide_eq_true_eq] at hp
    exact ⟨hallowed, by simpa using hne, r, List.mem_of_find?_eq_some hr, hp.1.1, hp.1.2,
      hp.2, hkey⟩
  · cases h

/-- The row that is named is the row that is found. -/
theorem findRecordingKey_of_mem (hids : (db.lessonResources.map (·.id)).Nodup)
    {r : LessonResourceRow}
    (hallowed : (decideLessonAuthoring call.scope db call.ctx call.lessonId).allowed = true)
    (hr : r ∈ db.lessonResources) (htenant : r.tenantId = call.ctx.tenantId)
    (hid : r.id = call.resourceId) (hlesson : r.lessonId = call.lessonId)
    (hkey : r.storageKey = some key) (hne : key ≠ "") : findRecordingKey db call = some key := by
  have hfind : db.lessonResources.find? (fun r => r.tenantId = call.ctx.tenantId &&
      r.id = call.resourceId && r.lessonId = call.lessonId) = some r := by
    refine Table.find?_eq_some_of_unique hr (by simp [htenant, hid, hlesson]) fun b hb hp => ?_
    simp only [Bool.and_eq_true, decide_eq_true_eq] at hp
    exact Table.eq_of_key_eq hids hb hr (hp.1.2.trans hid.symm)
  rw [findRecordingKey, if_pos hallowed, hfind, Option.bind_some, hkey, Option.filter_eq_some_iff]
  exact ⟨rfl, by simpa using hne⟩

theorem mem_listSuperseded {old : Superseded} :
    old ∈ listSuperseded db call ↔ ∃ r ∈ db.lessonResources, r.tenantId = call.ctx.tenantId ∧
      r.lessonId = call.lessonId ∧ r.kind = .audio ∧ r.id ≠ call.resourceId ∧
        old = { id := r.id, storageKey := r.storageKey } := by
  simp only [listSuperseded, List.mem_map, List.mem_filter, Bool.and_eq_true, decide_eq_true_eq]
  constructor
  · rintro ⟨r, ⟨hr, ⟨⟨ht, hl⟩, hk⟩, hne⟩, rfl⟩
    exact ⟨r, hr, ht, hl, hk, hne, rfl⟩
  · rintro ⟨r, hr, ht, hl, hk, hne, rfl⟩
    exact ⟨r, ⟨hr, ⟨⟨ht, hl⟩, hk⟩, hne⟩, rfl⟩

/-- The lessons after an upload: the one it is for has the duration, when there is one. -/
def measuredLessons (db : Database) (call : UploadCall) : List LessonRow :=
  match readDuration call.durationSeconds with
  | none => db.lessons
  | some seconds =>
    Table.update (fun l => l.tenantId = call.ctx.tenantId && l.id = call.lessonId)
      (fun l => { l with durationSeconds := some seconds }) db.lessons

/-- **What making a recording ready writes.** -/
theorem commitUpload_written {numberText : ℚ → String} {facts : ObjectFacts}
    {superseded : List Superseded}
    (h : commitUpload numberText db call facts superseded = .ok db') :
    ∃ audit, db' = { db with
      lessons := measuredLessons db call
      lessonResources := Table.delete
        (fun r => r.tenantId = call.ctx.tenantId && r.id ∈ superseded.map (·.id))
        (Table.update (fun r => r.tenantId = call.ctx.tenantId && r.id = call.resourceId)
          (fun r => { r with
            byteSize := some facts.byteSize, isDownloadable := call.isDownloadable })
          db.lessonResources)
      auditLog := audit } := by
  obtain ⟨db₁, hchecked, hlog⟩ := Machine.bind_eq_ok.mp h
  obtain ⟨-, rfl⟩ := Database.checked_ok.mp hchecked
  rw [Database.insertAuditLog_ok hlog, measuredLessons]
  cases readDuration call.durationSeconds with
  | none => exact ⟨_, rfl⟩
  | some seconds => exact ⟨_, rfl⟩

theorem commitUpload_ok {numberText : ℚ → String} {facts : ObjectFacts}
    {superseded : List Superseded}
    (h : commitUpload numberText db call facts superseded = .ok db') :
    db'.lessonResources = Table.delete
        (fun r => r.tenantId = call.ctx.tenantId && r.id ∈ superseded.map (·.id))
        (Table.update (fun r => r.tenantId = call.ctx.tenantId && r.id = call.resourceId)
          (fun r => { r with
            byteSize := some facts.byteSize, isDownloadable := call.isDownloadable })
          db.lessonResources) ∧
      db'.memberships = db.memberships ∧ db'.users = db.users ∧ db'.tenants = db.tenants := by
  obtain ⟨audit, rfl⟩ := commitUpload_written h
  exact ⟨rfl, rfl, rfl, rfl⟩

theorem commitUpload_courseResources {numberText : ℚ → String} {facts : ObjectFacts}
    {superseded : List Superseded}
    (h : commitUpload numberText db call facts superseded = .ok db') :
    db'.courseResources = db.courseResources := by
  obtain ⟨audit, rfl⟩ := commitUpload_written h
  rfl

/-- The transaction goes through when the duration fits its column and the log accepts the
caller. -/
theorem commitUpload_eq_ok {numberText : ℚ → String} {facts : ObjectFacts}
    {superseded : List Superseded} :
    (∃ db', commitUpload numberText db call facts superseded = .ok db') ↔
      ((readDuration call.durationSeconds).any fun seconds => 2 ^ 31 ≤ seconds) = false ∧
        db.noTenant call.ctx.tenantId = false ∧ db.noUser call.ctx.userId = false := by
  constructor
  · rintro ⟨db', h⟩
    obtain ⟨db₁, hchecked, hlog⟩ := Machine.bind_eq_ok.mp h
    obtain ⟨hfits, rfl⟩ := Database.checked_ok.mp hchecked
    obtain ⟨⟨htenant, huser⟩, -⟩ := Database.insertAuditLog_eq_ok.mp hlog
    refine ⟨hfits _ (List.mem_cons_self ..), ?_⟩
    cases hduration : readDuration call.durationSeconds <;> rw [hduration] at htenant huser <;>
      exact ⟨htenant, huser⟩
  · rintro ⟨hfits, htenant, huser⟩
    refine ⟨_, Machine.bind_eq_ok.mpr ⟨_, Database.checked_ok.mpr ⟨?_, rfl⟩,
      Database.insertAuditLog_eq_ok.mpr ⟨⟨?_, ?_⟩, rfl⟩⟩⟩
    · intro c hc
      rw [List.mem_singleton.mp hc]
      exact hfits
    · cases readDuration call.durationSeconds <;> exact htenant
    · cases readDuration call.durationSeconds <;> exact huser

/-- The transaction moves no lesson to another course and changes nobody's rights. -/
theorem commitUpload_authoring {numberText : ℚ → String} {facts : ObjectFacts}
    {superseded : List Superseded}
    (h : commitUpload numberText db call facts superseded = .ok db') (scope : TenantScope)
    (ctx : AuthorContext) (lessonId : Uuid) :
    decideLessonAuthoring scope db' ctx lessonId = decideLessonAuthoring scope db ctx lessonId := by
  obtain ⟨audit, rfl⟩ := commitUpload_written h
  rw [measuredLessons]
  cases readDuration call.durationSeconds with
  | none => rfl
  | some seconds =>
    refine decideLessonAuthoring_of_lessons (fun l => ?_) rfl rfl fun _ => rfl
    split
    · exact ⟨rfl, rfl, rfl⟩
    · exact ⟨rfl, rfl, rfl⟩

theorem purgeObject_of_ne {env : Env} {tenantId : Uuid} {bucket : Bucket} {old : Superseded}
    (h : old.storageKey ≠ some key) :
    (purgeObject env tenantId bucket old).objects key = bucket.objects key := by
  rw [purgeObject]
  split
  · rfl
  · next k hk =>
    have hne : key ≠ k := by
      rintro rfl
      exact h (Option.filter_eq_some_iff.mp hk).1
    split
    · next bucket' hdelete =>
      rw [deleteObject_ok hdelete, Bucket.remove_objects, Function.update_of_ne hne]
    · rfl

/-- Purging only takes away. -/
theorem purgeObject_objects {env : Env} {tenantId : Uuid} {bucket : Bucket} {old : Superseded}
    {facts : ObjectFacts}
    (h : (purgeObject env tenantId bucket old).objects key = some facts) :
    bucket.objects key = some facts := by
  by_cases hkey : old.storageKey = some key
  · rw [purgeObject] at h
    split at h
    · exact h
    · next k hk =>
      split at h
      · next bucket' hdelete =>
        rw [deleteObject_ok hdelete] at h
        exact Bucket.objects_of_remove h
      · exact h
  · rwa [purgeObject_of_ne hkey] at h

/-- What nothing replaces stays in the bucket. -/
theorem foldl_purgeObject_of_ne {env : Env} {tenantId : Uuid} {superseded : List Superseded}
    (bucket : Bucket) (h : ∀ old ∈ superseded, old.storageKey ≠ some key) :
    (superseded.foldl (purgeObject env tenantId) bucket).objects key = bucket.objects key := by
  induction superseded generalizing bucket with
  | nil => rfl
  | cons old rest ih =>
    rw [List.foldl_cons, ih _ fun o ho => h o (List.mem_cons_of_mem _ ho)]
    exact purgeObject_of_ne (h old (List.mem_cons_self ..))

end LampLight
