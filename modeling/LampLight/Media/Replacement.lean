import LampLight.Foundation.Interleave
import LampLight.Media.Ready

/-!
# Two recordings confirmed at once

Confirming a recording is a sequence of transactions and storage calls, and another call may run
between any two of them. `completeStep` is one of them at a time; alone, it comes to what
`completeUploadAction` does (`completeUploadAction_eq_solo`).

A call lists what it replaces before it writes, and the list holds every other recording of the
lesson, ready or not. So each of two calls lists the row the other is about to make ready, and each
deletes it: when both return ok, the lesson is left without a recording.

## Main results

* `phaseInvariant_run` — what holds at every point of every interleaving
* `recordings_eq_nil` — when both calls return ok, no recording is left
* `replacesSafely_iff` — **replacing is safe under concurrency only where one of the two calls could
  not have succeeded at all**
-/

namespace LampLight

open Interleave (Config turn)
open Machine (run)

/-! ### One call, step by step -/

/-- Where a confirming call is, between two of its transactions and storage calls. -/
inductive CompletePhase where
  | begin
  | located (key : String)
  | refused (key message : String)
  | accepted (facts : ObjectFacts)
  | listed (facts : ObjectFacts) (superseded : List Superseded)
  | purging (rest : List Superseded)
  | returned (result : Except MediaError ActionResult)
deriving DecidableEq

/-- One transaction or one storage call of `completeUploadAction`. -/
def completeStep (s : MediaServices) (call : UploadCall) :
    CompletePhase → MediaWorld → CompletePhase × MediaWorld
  | .begin, w =>
    if storageConfigured s.env = false then
      (.returned (.ok (.error "Media storage is not configured on this instance.")), w)
    else
      match findRecordingKey w.db call with
      | none => (.returned (.ok DENIED), w)
      | some key => (.located key, w)
  | .located key, w =>
    match statObject s.env call.ctx.tenantId key w.bucket with
    | .error e => (.returned (.error (.storage e)), w)
    | .ok none =>
      (.returned (.ok (.error "That upload did not arrive. Try sending the file again.")), w)
    | .ok (some facts) =>
      match checkUpload s.numberText .audio (facts.contentType.getD "")
        (.finite facts.byteSize) with
      | .ok _ => (.accepted facts, w)
      | .error message => (.refused key message, w)
  | .refused key message, w =>
    match deleteObject s.env call.ctx.tenantId key w.bucket with
    | .error e => (.returned (.error (.storage e)), w)
    | .ok bucket => (.returned (.ok (.error message)), { w with bucket := bucket })
  | .accepted facts, w => (.listed facts (listSuperseded w.db call), w)
  | .listed facts superseded, w =>
    match commitUpload s.numberText w.db call facts superseded with
    | .error e => (.returned (.error (.database e)), w)
    | .ok db => (.purging superseded, { w with db := db })
  | .purging [], w => (.returned (.ok .ok), w)
  | .purging (old :: rest), w =>
    (.purging rest, { w with bucket := purgeObject s.env call.ctx.tenantId w.bucket old })
  | .returned result, w => (.returned result, w)

variable {s : MediaServices} {call : UploadCall} {w w' : MediaWorld}

/-- From one step to a number of steps. -/
theorem exists_iterate_of_step {α : Type*} {f : α → α} {x y : α} (h : ∃ n, f^[n] (f x) = y) :
    ∃ n, f^[n] x = y := by
  obtain ⟨n, h⟩ := h
  exact ⟨n + 1, h⟩

theorem iterate_purging (superseded : List Superseded) (db : Database) (bucket : Bucket) :
    (Function.uncurry (completeStep s call))^[superseded.length + 1]
        (.purging superseded, { db := db, bucket := bucket })
      = (.returned (.ok .ok),
          { db := db
            bucket := superseded.foldl (purgeObject s.env call.ctx.tenantId) bucket }) := by
  induction superseded generalizing bucket with
  | nil => rfl
  | cons old rest ih => exact ih _

/-- **Alone, the steps come to the action.** -/
theorem completeUploadAction_eq_iterate (s : MediaServices) (call : UploadCall) (w : MediaWorld) :
    ∃ n, (Function.uncurry (completeStep s call))^[n] (.begin, w)
      = (.returned (completeUploadAction s call w).1, (completeUploadAction s call w).2) := by
  refine exists_iterate_of_step ?_
  rw [Function.uncurry_apply_pair, completeStep, completeUploadAction]
  split
  · exact ⟨0, rfl⟩
  · cases hfind : findRecordingKey w.db call with
    | none => exact ⟨0, rfl⟩
    | some key =>
      refine exists_iterate_of_step ?_
      rw [Function.uncurry_apply_pair, completeStep]
      dsimp only
      rw [inspectUpload]
      cases statObject s.env call.ctx.tenantId key w.bucket with
      | error e => exact ⟨0, rfl⟩
      | ok answer =>
        cases answer with
        | none => exact ⟨0, rfl⟩
        | some facts =>
          dsimp only
          cases checkUpload s.numberText .audio (facts.contentType.getD "")
              (.finite facts.byteSize) with
          | error message =>
            refine exists_iterate_of_step ?_
            rw [Function.uncurry_apply_pair, completeStep]
            cases deleteObject s.env call.ctx.tenantId key w.bucket with
            | error e => exact ⟨0, rfl⟩
            | ok bucket => exact ⟨0, rfl⟩
          | ok type =>
            refine exists_iterate_of_step (exists_iterate_of_step ?_)
            rw [Function.uncurry_apply_pair, Function.uncurry_apply_pair, completeStep,
              completeStep]
            dsimp only
            cases commitUpload s.numberText w.db call facts (listSuperseded w.db call) with
            | error e => exact ⟨0, rfl⟩
            | ok db => exact ⟨_, iterate_purging _ db w.bucket⟩

/-! ### What any step may do -/

/-- Rows only disappear or change in columns that place them nowhere else, objects only disappear,
and nobody gains or loses rights. -/
structure Evolved (w w' : MediaWorld) : Prop where
  people : SamePeople w.db w'.db
  authoring : ∀ scope ctx lessonId, decideLessonAuthoring scope w'.db ctx lessonId
    = decideLessonAuthoring scope w.db ctx lessonId
  rows : ∀ r' ∈ w'.db.lessonResources, ∃ r ∈ w.db.lessonResources, r'.id = r.id ∧
    r'.tenantId = r.tenantId ∧ r'.lessonId = r.lessonId ∧ r'.kind = r.kind ∧
      r'.storageKey = r.storageKey
  objects : ∀ key facts, w'.bucket.objects key = some facts → w.bucket.objects key = some facts

theorem Evolved.refl (w : MediaWorld) : Evolved w w where
  people := ⟨rfl, rfl, rfl⟩
  authoring := fun _ _ _ => rfl
  rows := fun r hr => ⟨r, hr, rfl, rfl, rfl, rfl, rfl⟩
  objects := fun _ _ h => h

theorem Evolved.trans {w₀ : MediaWorld} (h : Evolved w₀ w) (h' : Evolved w w') : Evolved w₀ w' where
  people := ⟨h'.people.memberships.trans h.people.memberships,
    h'.people.tenants.trans h.people.tenants, h'.people.users.trans h.people.users⟩
  authoring := fun scope ctx lessonId =>
    (h'.authoring scope ctx lessonId).trans (h.authoring scope ctx lessonId)
  rows := by
    intro r'' hr''
    obtain ⟨r', hr', hid', ht', hl', hk', hs'⟩ := h'.rows r'' hr''
    obtain ⟨r, hr, hid, ht, hl, hk, hs⟩ := h.rows r' hr'
    exact ⟨r, hr, hid'.trans hid, ht'.trans ht, hl'.trans hl, hk'.trans hk, hs'.trans hs⟩
  objects := fun key facts hfacts => h.objects key facts (h'.objects key facts hfacts)

/-- A step that touches the bucket only takes away. -/
theorem Evolved.of_bucket {bucket : Bucket}
    (h : ∀ key facts, bucket.objects key = some facts → w.bucket.objects key = some facts) :
    Evolved w { w with bucket := bucket } where
  people := ⟨rfl, rfl, rfl⟩
  authoring := fun _ _ _ => rfl
  rows := fun r hr => ⟨r, hr, rfl, rfl, rfl, rfl, rfl⟩
  objects := h

theorem Evolved.of_commitUpload {facts : ObjectFacts} {superseded : List Superseded}
    {db' : Database} (h : commitUpload s.numberText w.db call facts superseded = .ok db') :
    Evolved w { w with db := db' } := by
  obtain ⟨hrows, hmembers, husers, htenants⟩ := commitUpload_ok h
  refine ⟨⟨hmembers, htenants, husers⟩, commitUpload_authoring h, fun r' hr' => ?_,
    fun _ _ hfacts => hfacts⟩
  rw [hrows] at hr'
  rcases Table.mem_update.mp (Table.mem_delete.mp hr').1 with ⟨hr, -⟩ | ⟨r, hr, -, rfl⟩
  · exact ⟨r', hr, rfl, rfl, rfl, rfl, rfl⟩
  · exact ⟨r, hr, rfl, rfl, rfl, rfl, rfl⟩

/-- **Every step of a call only takes away.** -/
theorem completeStep_evolved (s : MediaServices) (call : UploadCall) (phase : CompletePhase)
    (w : MediaWorld) : Evolved w (completeStep s call phase w).2 := by
  cases phase with
  | begin =>
    rw [completeStep]
    split
    · exact .refl w
    · split <;> exact .refl w
  | located key =>
    rw [completeStep]
    split
    · exact .refl w
    · exact .refl w
    · split <;> exact .refl w
  | refused key message =>
    rw [completeStep]
    split
    · exact .refl w
    · next bucket hdelete =>
      rw [deleteObject_ok hdelete]
      exact .of_bucket fun _ _ h => Bucket.objects_of_remove h
  | accepted facts => exact .refl w
  | listed facts superseded =>
    rw [completeStep]
    split
    · exact .refl w
    · next hcommit => exact .of_commitUpload hcommit
  | purging rest =>
    cases rest with
    | nil => exact .refl w
    | cons old rest => exact .of_bucket fun _ _ h => purgeObject_objects h
  | returned result => exact .refl w

/-! ### What a call knows -/

/-- The upload passes: its key is found for the caller, and the object is there and acceptable. -/
def Passes (s : MediaServices) (w : MediaWorld) (call : UploadCall) (facts : ObjectFacts) : Prop :=
  ∃ key, findRecordingKey w.db call = some key ∧
    keyBelongsToTenant key call.ctx.tenantId = true ∧ w.bucket.objects key = some facts ∧
      Acceptable s .audio facts

/-- The call would succeed if nobody else did anything. -/
structure Confirmable (s : MediaServices) (w : MediaWorld) (call : UploadCall) : Prop where
  configured : storageConfigured s.env = true
  passes : ∃ facts, Passes s w call facts
  duration : ((readDuration call.durationSeconds).any fun seconds => 2 ^ 31 ≤ seconds) = false
  tenant : w.db.noTenant call.ctx.tenantId = false
  user : w.db.noUser call.ctx.userId = false

/-- A row is a recording of the lesson the call is about. -/
def IsRecording (call : UploadCall) (r : LessonResourceRow) : Prop :=
  r.tenantId = call.ctx.tenantId ∧ r.lessonId = call.lessonId ∧ r.kind = .audio

/-- What a call has established about the start state `w₀` and the present one, by its phase. From
its listing on it has every other recording listed, and from its commit on no other is left. -/
def Established (s : MediaServices) (w₀ : MediaWorld) (call : UploadCall) (w : MediaWorld) :
    CompletePhase → Prop
  | .begin | .refused .. => True
  | .located key => storageConfigured s.env = true ∧ findRecordingKey w₀.db call = some key
  | .accepted facts => storageConfigured s.env = true ∧ Passes s w₀ call facts
  | .listed facts superseded => storageConfigured s.env = true ∧ Passes s w₀ call facts ∧
      ∀ r ∈ w.db.lessonResources, IsRecording call r → r.id ≠ call.resourceId →
        r.id ∈ superseded.map (·.id)
  | .purging _ => Confirmable s w₀ call ∧
      ∀ r ∈ w.db.lessonResources, IsRecording call r → r.id = call.resourceId
  | .returned result => result = .ok .ok → Confirmable s w₀ call ∧
      ∀ r ∈ w.db.lessonResources, IsRecording call r → r.id = call.resourceId

/-- What a completion relies on while it waits. -/
def PhaseInvariant (s : MediaServices) (w₀ : MediaWorld) (call : UploadCall)
    (phase : CompletePhase) (w : MediaWorld) : Prop :=
  Evolved w₀ w ∧ Established s w₀ call w phase

/-- What is said of every recording survives when rows only disappear. -/
theorem Evolved.forall_recording (h : Evolved w w') {P : Uuid → Prop}
    (hP : ∀ r ∈ w.db.lessonResources, IsRecording call r → P r.id) :
    ∀ r ∈ w'.db.lessonResources, IsRecording call r → P r.id := by
  intro r' hr' ⟨ht', hl', hk'⟩
  obtain ⟨r, hr, hid, ht, hl, hk, -⟩ := h.rows r' hr'
  rw [hid]
  exact hP r hr ⟨ht.symm.trans ht', hl.symm.trans hl', hk.symm.trans hk'⟩

theorem PhaseInvariant.stable {w₀ : MediaWorld} {phase : CompletePhase} (h : Evolved w w')
    (hphase : PhaseInvariant s w₀ call phase w) : PhaseInvariant s w₀ call phase w' := by
  obtain ⟨hw, hphase⟩ := hphase
  refine ⟨hw.trans h, ?_⟩
  cases phase with
  | begin => exact hphase
  | located key => exact hphase
  | refused key message => exact hphase
  | accepted facts => exact hphase
  | listed facts superseded =>
    exact ⟨hphase.1, hphase.2.1, h.forall_recording
      (P := fun id => id ≠ call.resourceId → id ∈ superseded.map (·.id)) hphase.2.2⟩
  | purging rest =>
    exact ⟨hphase.1, h.forall_recording (P := fun id => id = call.resourceId) hphase.2⟩
  | returned result =>
    intro hok
    obtain ⟨hconfirmable, honly⟩ := hphase hok
    exact ⟨hconfirmable, h.forall_recording (P := fun id => id = call.resourceId) honly⟩

/-- A key found later could have been found from the start. -/
theorem Evolved.findRecordingKey (h : Evolved w w')
    (hids : (w.db.lessonResources.map (·.id)).Nodup) {key : String}
    (hfind : findRecordingKey w'.db call = some key) : findRecordingKey w.db call = some key := by
  obtain ⟨hallowed, hne, r', hr', ht', hid', hl', hkey'⟩ := findRecordingKey_eq_some hfind
  obtain ⟨r, hr, hid, ht, hl, -, hkey⟩ := h.rows r' hr'
  rw [h.authoring] at hallowed
  exact findRecordingKey_of_mem hids hallowed hr (ht.symm.trans ht') (hid.symm.trans hid')
    (hl.symm.trans hl') (hkey.symm.trans hkey') hne

/-- **A call's own step keeps what it knows.** -/
theorem PhaseInvariant.step {w₀ : MediaWorld}
    (hids : (w₀.db.lessonResources.map (·.id)).Nodup) {phase : CompletePhase}
    (h : PhaseInvariant s w₀ call phase w) :
    PhaseInvariant s w₀ call (completeStep s call phase w).1 (completeStep s call phase w).2 := by
  refine ⟨h.1.trans (completeStep_evolved s call phase w), ?_⟩
  obtain ⟨hw, hphase⟩ := h
  cases phase with
  | begin =>
    rw [completeStep]
    split
    · exact fun hok => nomatch hok
    · next hs =>
      split
      · exact fun hok => nomatch hok
      · next key hfind => exact ⟨by simpa using hs, hw.findRecordingKey hids hfind⟩
  | located key =>
    obtain ⟨hs, hfind⟩ := hphase
    rw [completeStep]
    split
    · exact fun hok => nomatch hok
    · exact fun hok => nomatch hok
    · next facts hstat =>
      have hbelongs := (statObject_ok hstat).1
      have hfacts := (statObject_ok hstat).2
      split
      · next type hcheck =>
        exact ⟨hs, key, hfind, hbelongs, hw.objects key facts hfacts.symm, type, hcheck⟩
      · trivial
  | refused key message =>
    rw [completeStep]
    split
    · exact fun hok => nomatch hok
    · exact fun hok => nomatch hok
  | accepted facts =>
    obtain ⟨hs, hpasses⟩ := hphase
    refine ⟨hs, hpasses, fun r hr hrec hne => ?_⟩
    refine List.mem_map.mpr ⟨{ id := r.id, storageKey := r.storageKey }, ?_, rfl⟩
    exact mem_listSuperseded.mpr ⟨r, hr, hrec.1, hrec.2.1, hrec.2.2, hne, rfl⟩
  | listed facts superseded =>
    obtain ⟨hs, hpasses, hcovers⟩ := hphase
    rw [completeStep]
    split
    · exact fun hok => nomatch hok
    · next db' hcommit =>
      obtain ⟨hduration, htenant, huser⟩ := commitUpload_eq_ok.mp ⟨db', hcommit⟩
      rw [Database.noTenant, hw.people.tenants] at htenant
      rw [Database.noUser, hw.people.users] at huser
      refine ⟨⟨hs, ⟨facts, hpasses⟩, hduration, htenant, huser⟩, fun r' hr' hrec => ?_⟩
      by_contra hne
      rw [(commitUpload_ok hcommit).1] at hr'
      obtain ⟨hupdated, hkept⟩ := Table.mem_delete.mp hr'
      have hlisted : r'.id ∈ superseded.map (·.id) := by
        rcases Table.mem_update.mp hupdated with ⟨hr, -⟩ | ⟨r, hr, hp, rfl⟩
        · exact hcovers r' hr hrec hne
        · exact hcovers r hr hrec hne
      rw [hrec.1, decide_eq_true rfl, Bool.true_and, decide_eq_false_iff_not] at hkept
      exact hkept hlisted
  | purging rest =>
    cases rest with
    | nil => exact fun _ => hphase
    | cons old rest => exact hphase
  | returned result => exact hphase

/-! ### Two calls -/

/-- Two completions of one lesson. -/
inductive Caller | first | second
deriving DecidableEq

/-- Where the two calls are. -/
def both (p q : CompletePhase) (w : MediaWorld) : Config Caller CompletePhase MediaWorld where
  phase
    | .first => p
    | .second => q
  shared := w

/-- Two confirming calls under a schedule, from the moment both requests arrive. -/
def interleaved (s : MediaServices) (calls : Caller → UploadCall) (w : MediaWorld)
    (schedule : List Caller) : Config Caller CompletePhase MediaWorld :=
  run (turn fun i => completeStep s (calls i)) (both .begin .begin w) schedule

/-- Both have been told that it worked. -/
def BothOk (c : Config Caller CompletePhase MediaWorld) : Prop :=
  ∀ i, c.phase i = .returned (.ok .ok)

/-- The ready recordings of the lesson a call is about. -/
def recordings (db : Database) (call : UploadCall) : List LessonResourceRow :=
  db.lessonResources.filter fun r => r.tenantId = call.ctx.tenantId &&
    r.lessonId = call.lessonId && r.kind = .audio && r.ready

/-- The lesson has one ready recording, one of the two that were confirmed, with its object. -/
def OneRecording (calls : Caller → UploadCall) (w : MediaWorld) : Prop :=
  ∃ r i key facts, recordings w.db (calls .first) = [r] ∧ r.id = (calls i).resourceId ∧
    r.storageKey = some key ∧ w.bucket.objects key = some facts

/-- Whatever the schedule, two calls that return ok leave one recording. -/
def ReplacesSafely (s : MediaServices) (calls : Caller → UploadCall) (w : MediaWorld) : Prop :=
  ∀ schedule, BothOk (interleaved s calls w schedule) →
    OneRecording calls (interleaved s calls w schedule).shared

variable {calls : Caller → UploadCall}

/-- **What holds at every point of every interleaving.** -/
theorem phaseInvariant_run (hids : (w.db.lessonResources.map (·.id)).Nodup)
    (schedule : List Caller) (i : Caller) :
    PhaseInvariant s w (calls i) ((interleaved s calls w schedule).phase i)
      (interleaved s calls w schedule).shared :=
  Interleave.run_invariant (J := fun i => PhaseInvariant s w (calls i)) (G := Evolved)
    (fun i phase w' _ => completeStep_evolved s (calls i) phase w')
    (fun _ _ _ h => h.step hids) (fun _ _ _ _ h hphase => hphase.stable h)
    (fun i => by cases i <;> exact ⟨.refl w, trivial⟩) schedule i

/-- **When both calls return ok, no recording is left.** Each has deleted every row but its own. -/
theorem recordings_eq_nil (hids : (w.db.lessonResources.map (·.id)).Nodup)
    (htenant : (calls .first).ctx.tenantId = (calls .second).ctx.tenantId)
    (hlesson : (calls .first).lessonId = (calls .second).lessonId)
    (hne : (calls .first).resourceId ≠ (calls .second).resourceId) {schedule : List Caller}
    (hok : BothOk (interleaved s calls w schedule)) :
    recordings (interleaved s calls w schedule).shared.db (calls .first) = [] := by
  have honly : ∀ i, ∀ r ∈ (interleaved s calls w schedule).shared.db.lessonResources,
      IsRecording (calls i) r → r.id = (calls i).resourceId := by
    intro i
    have hphase : PhaseInvariant s w (calls i) ((interleaved s calls w schedule).phase i)
        (interleaved s calls w schedule).shared := phaseInvariant_run hids schedule i
    rw [hok i] at hphase
    exact (hphase.2 rfl).2
  refine List.filter_eq_nil_iff.mpr fun r hr hp => hne ?_
  simp only [Bool.and_eq_true, decide_eq_true_eq] at hp
  obtain ⟨⟨⟨ht, hl⟩, hk⟩, -⟩ := hp
  rw [← honly .first r hr ⟨ht, hl, hk⟩]
  exact honly .second r hr ⟨ht.trans htenant, hl.trans hlesson, hk⟩

/-! ### Both calls can return ok -/

/-- Three steps alone take a call that can succeed to the point where it writes. -/
theorem iterate_listed (h : Confirmable s w call) :
    ∃ facts, (Function.uncurry (completeStep s call))^[3] (.begin, w)
      = (.listed facts (listSuperseded w.db call), w) := by
  obtain ⟨facts, key, hfind, hbelongs, hfacts, type, hcheck⟩ := h.passes
  have hbegin : completeStep s call .begin w = (.located key, w) := by
    rw [completeStep, if_neg (by simp [h.configured]), hfind]
  have hlocated : completeStep s call (.located key) w = (.accepted facts, w) := by
    rw [completeStep, statObject_eq h.configured hbelongs, hfacts]
    dsimp only
    rw [hcheck]
  refine ⟨facts, ?_⟩
  rw [Function.iterate_succ_apply, Function.uncurry_apply_pair, hbegin,
    Function.iterate_succ_apply, Function.uncurry_apply_pair, hlocated,
    Function.iterate_succ_apply, Function.uncurry_apply_pair, Function.iterate_zero_apply,
    completeStep]

/-- What a call is about to write, it writes, whatever another has written meanwhile. -/
theorem iterate_written (h : Confirmable s w call) (hw : Evolved w w') (facts : ObjectFacts)
    (superseded : List Superseded) :
    ∃ db, (Function.uncurry (completeStep s call))^[1] (.listed facts superseded, w')
      = (.purging superseded, { w' with db := db }) ∧ Evolved w { w' with db := db } := by
  have hok : ∃ db, commitUpload s.numberText w'.db call facts superseded = .ok db := by
    refine commitUpload_eq_ok.mpr ⟨h.duration, ?_, ?_⟩
    · rw [Database.noTenant, hw.people.tenants]
      exact h.tenant
    · rw [Database.noUser, hw.people.users]
      exact h.user
  obtain ⟨db, hcommit⟩ := hok
  refine ⟨db, ?_, hw.trans (.of_commitUpload hcommit)⟩
  show completeStep s call (.listed facts superseded) w' = _
  rw [completeStep, hcommit]

theorem run_first {p p' q : CompletePhase} {n : ℕ}
    (h : (Function.uncurry (completeStep s (calls .first)))^[n] (p, w) = (p', w')) :
    run (turn fun i => completeStep s (calls i)) (both p q w) (List.replicate n .first)
      = both p' q w' := by
  rw [Interleave.run_replicate_of (show (Function.uncurry (completeStep s (calls .first)))^[n]
    ((both p q w).phase .first, (both p q w).shared) = (p', w') from h)]
  refine congrArg (fun phase => Config.mk phase w') (funext fun i => ?_)
  cases i <;> rfl

theorem run_second {p q q' : CompletePhase} {n : ℕ}
    (h : (Function.uncurry (completeStep s (calls .second)))^[n] (q, w) = (q', w')) :
    run (turn fun i => completeStep s (calls i)) (both p q w) (List.replicate n .second)
      = both p q' w' := by
  rw [Interleave.run_replicate_of (show (Function.uncurry (completeStep s (calls .second)))^[n]
    ((both p q w).phase .second, (both p q w).shared) = (q', w') from h)]
  refine congrArg (fun phase => Config.mk phase w') (funext fun i => ?_)
  cases i <;> rfl

/-- Both list before either writes, and then both write. -/
theorem exists_bothOk (h : ∀ i, Confirmable s w (calls i)) :
    ∃ schedule, BothOk (interleaved s calls w schedule) := by
  obtain ⟨facts₁, hlist₁⟩ := iterate_listed (h .first)
  obtain ⟨facts₂, hlist₂⟩ := iterate_listed (h .second)
  obtain ⟨db₁, hwrite₁, hevolved⟩ := iterate_written (h .first) (.refl w) facts₁
    (listSuperseded w.db (calls .first))
  obtain ⟨db₂, hwrite₂, -⟩ := iterate_written (h .second) hevolved facts₂
    (listSuperseded w.db (calls .second))
  let rest (i : Caller) : List Caller :=
    List.replicate ((listSuperseded w.db (calls i)).length + 1) i
  refine ⟨List.replicate 3 Caller.first ++ (List.replicate 3 Caller.second ++
    (List.replicate 1 Caller.first ++ (List.replicate 1 Caller.second ++
      (rest .first ++ rest .second)))), ?_⟩
  rw [interleaved, Machine.run_append, run_first hlist₁, Machine.run_append, run_second hlist₂,
    Machine.run_append, run_first hwrite₁, Machine.run_append, run_second hwrite₂,
    Machine.run_append, run_first (iterate_purging _ _ _), run_second (iterate_purging _ _ _)]
  intro i
  cases i with
  | first => rfl
  | second => rfl

/-- **Replacing is safe under concurrency only where one call could not have succeeded at all.** -/
theorem replacesSafely_iff (hids : (w.db.lessonResources.map (·.id)).Nodup)
    (htenant : (calls .first).ctx.tenantId = (calls .second).ctx.tenantId)
    (hlesson : (calls .first).lessonId = (calls .second).lessonId)
    (hne : (calls .first).resourceId ≠ (calls .second).resourceId) :
    ReplacesSafely s calls w ↔ ¬ ∀ i, Confirmable s w (calls i) := by
  constructor
  · intro hsafe hconfirmable
    obtain ⟨schedule, hok⟩ := exists_bothOk hconfirmable
    obtain ⟨r, -, -, -, hone, -⟩ := hsafe schedule hok
    rw [recordings_eq_nil hids htenant hlesson hne hok] at hone
    cases hone
  · intro hnot schedule hok
    refine absurd (fun i => ?_) hnot
    have hphase : PhaseInvariant s w (calls i) ((interleaved s calls w schedule).phase i)
        (interleaved s calls w schedule).shared := phaseInvariant_run hids schedule i
    rw [hok i] at hphase
    exact (hphase.2 rfl).1

/-! ### Two takes of one lecture -/

/-- A recording to be uploaded. -/
def takeForm (filename : String) : UploadForm where
  lessonId := 12
  filename := filename
  contentType := "audio/mpeg"
  byteSize := .finite 4000

/-- Two recordings are reserved and uploaded on one lesson. -/
def twoTakes : MediaWorld :=
  run (mediaStep studio) classroom
    [.requestUpload teacher (takeForm "one.mp3") ⟨20, 0⟩,
      .put (signedFor 20 "one.mp3" "audio/mpeg") 60000 ⟨4000, some "audio/mpeg"⟩,
      .requestUpload teacher (takeForm "two.mp3") ⟨21, 0⟩,
      .put (signedFor 21 "two.mp3" "audio/mpeg") 60000 ⟨4000, some "audio/mpeg"⟩]

/-- The first is confirmed by the teacher, the second by `userId`. -/
def confirmTakes (userId : Uuid) : Caller → UploadCall
  | .first => asRecording
  | .second => { asRecording with ctx := { tenantId := 1, userId := userId }, resourceId := 21 }

/-- A take as it is reserved. -/
def takeRow (resourceId : Uuid) (filename : String) : LessonResourceRow where
  id := resourceId
  tenantId := 1
  lessonId := 12
  kind := .audio
  storageKey := some (signedFor resourceId filename "audio/mpeg").1.key
  url := none
  filename := some filename
  byteSize := none
  isDownloadable := false
  sortOrder := 0

/-- What the store says of it. -/
def takeFacts : ObjectFacts := { byteSize := 4000, contentType := some "audio/mpeg" }

/-- A take is reserved, signed, and uploaded with the URL. -/
theorem run_take (rows : List LessonResourceRow) (resourceId : Uuid) (filename : String)
    (hid : (rows.any fun r => r.id = resourceId) = false)
    (hname : Js.includes (sanitizeFilename filename).toList ['.', '.'] = false)
    (audit : List AuditRow) (bucket : Bucket) : ∃ audit' puts,
    run (mediaStep studio)
        { db := { classroom.db with lessonResources := rows, auditLog := audit }, bucket := bucket }
        [.requestUpload teacher (takeForm filename) ⟨resourceId, 0⟩,
          .put (signedFor resourceId filename "audio/mpeg") 60000 takeFacts]
      = { db := { classroom.db with
            lessonResources := rows ++ [takeRow resourceId filename], auditLog := audit' }
          bucket :=
            { objects := Function.update bucket.objects
                (signedFor resourceId filename "audio/mpeg").1.key (some takeFacts)
              signedPuts := puts } } := by
  let w : MediaWorld :=
    { db := { classroom.db with lessonResources := rows, auditLog := audit }, bucket := bucket }
  have hinsert : w.db.insertLessonResource (takeRow resourceId filename)
      = .ok { w.db with lessonResources := rows ++ [takeRow resourceId filename] } :=
    Database.checked_ok.mpr ⟨List.forall_mem_cons.mpr ⟨hid, List.forall_mem_cons.mpr
      ⟨rfl, List.forall_mem_singleton.mpr rfl⟩⟩, rfl⟩
  have hallowed : (decideLessonAuthoring { tenantId := 1, now := 0 } w.db teacher 12).allowed
      = true := rfl
  have hreserve : ∃ audit', reserveRecording w.db teacher (takeForm filename) ⟨resourceId, 0⟩
      = .ok (some ((signedFor resourceId filename "audio/mpeg").1.key,
          { w.db with
            lessonResources := rows ++ [takeRow resourceId filename], auditLog := audit' })) := by
    refine ⟨audit ++ [{
      tenantId := 1
      actorUserId := some 7
      action := "lesson_resource.upload_requested"
      targetType := "lesson"
      targetId := some 12
      metadataJson := [("filename", .str filename)] }], ?_⟩
    rw [reserveRecording]
    refine (if_pos hallowed).trans ?_
    show (((w.db.insertLessonResource (takeRow resourceId filename)).bind _).map _) = _
    rw [hinsert]
    rfl
  obtain ⟨audit', hreserve⟩ := hreserve
  have htype : "audio/mpeg" = mediaType "audio/mpeg" := by decide +kernel
  have hcheck : checkUpload studio.numberText .audio (takeForm filename).contentType
      (takeForm filename).byteSize = .ok "audio/mpeg" :=
    checkUpload_eq_ok.mpr ⟨htype, by decide, 4000, rfl, by decide, by decide +kernel⟩
  have hkey : keyBelongsToTenant (signedFor resourceId filename "audio/mpeg").1.key 1 = true :=
    (keyBelongsToTenant_buildObjectKey _).mpr hname
  have hrequest : (requestUploadAction studio teacher (takeForm filename) ⟨resourceId, 0⟩ w).2
      = { db := { classroom.db with
            lessonResources := rows ++ [takeRow resourceId filename], auditLog := audit' }
          bucket := { bucket with
            signedPuts :=
              bucket.signedPuts ++ [signedFor resourceId filename "audio/mpeg"] } } := by
    rw [requestUploadAction_eq (by decide) hcheck hreserve hkey]
    rfl
  have hmem : signedFor resourceId filename "audio/mpeg" ∈
      bucket.signedPuts ++ [signedFor resourceId filename "audio/mpeg"] :=
    List.mem_append_right _ (List.mem_singleton_self _)
  have hnow : (60000 : ℤ) ≤ (signedFor resourceId filename "audio/mpeg").2.expiresAt := by
    show (60000 : ℤ) ≤ 900000
    decide
  refine ⟨audit', bucket.signedPuts ++ [signedFor resourceId filename "audio/mpeg"], ?_⟩
  rw [Machine.run_cons, mediaStep, hrequest, Machine.run_cons, mediaStep, if_pos ⟨hmem, hnow⟩]
  rfl

/-- What the two takes leave: two rows, and an object for each. -/
theorem twoTakes_eq : ∃ audit puts, twoTakes =
    { db := { classroom.db with
        lessonResources := [takeRow 20 "one.mp3", takeRow 21 "two.mp3"], auditLog := audit }
      bucket :=
        { objects := Function.update
            (Function.update (fun _ => none) (signedFor 20 "one.mp3" "audio/mpeg").1.key
              (some takeFacts))
            (signedFor 21 "two.mp3" "audio/mpeg").1.key (some takeFacts)
          signedPuts := puts } } := by
  obtain ⟨audit, puts, hfirst⟩ := run_take [] 20 "one.mp3" rfl (by decide) [] classroom.bucket
  obtain ⟨audit', puts', hsecond⟩ :=
    run_take [takeRow 20 "one.mp3"] 21 "two.mp3" (by decide) (by decide) audit _
  refine ⟨audit', puts', ?_⟩
  rw [List.nil_append] at hfirst
  rw [← hfirst, ← Machine.run_append] at hsecond
  exact hsecond

theorem twoTakes_ids : (twoTakes.db.lessonResources.map (·.id)).Nodup := by
  obtain ⟨audit, puts, htakes⟩ := twoTakes_eq
  rw [htakes]
  show [(20 : Uuid), 21].Nodup
  decide

/-- Somebody who may not change the lesson is in nobody's way. -/
theorem replacesSafely_iff_stranger : ReplacesSafely studio (confirmTakes 8) twoTakes :=
  (replacesSafely_iff twoTakes_ids rfl rfl (by decide)).mpr fun h => by
    obtain ⟨facts, key, hfind, -⟩ := (h .second).passes
    obtain ⟨hallowed, -⟩ := findRecordingKey_eq_some hfind
    obtain ⟨audit, puts, htakes⟩ := twoTakes_eq
    rw [htakes] at hallowed
    cases hallowed

/-- The teacher's confirmation of either take could succeed. -/
theorem confirmable_take (i : Caller) : Confirmable studio twoTakes (confirmTakes 7 i) := by
  obtain ⟨audit, puts, htakes⟩ := twoTakes_eq
  have hids := twoTakes_ids
  rw [htakes] at hids ⊢
  have hkeys : (signedFor 20 "one.mp3" "audio/mpeg").1.key
      ≠ (signedFor 21 "two.mp3" "audio/mpeg").1.key := by
    intro h
    exact absurd (buildObjectKey_injective h).2.2 (by decide)
  have hbelongs : ∀ id, ∀ filename ∈ ["one.mp3", "two.mp3"],
      keyBelongsToTenant (signedFor id filename "audio/mpeg").1.key 1 = true := by
    intro id filename hfilename
    have hdots : ∀ filename ∈ ["one.mp3", "two.mp3"],
        Js.includes (sanitizeFilename filename).toList ['.', '.'] = false := by
      decide
    exact (keyBelongsToTenant_buildObjectKey _).mpr (hdots filename hfilename)
  have hfacts : Acceptable studio .audio takeFacts := by decide +kernel
  cases i with
  | first =>
    have hkey := hbelongs 20 "one.mp3" (by decide)
    refine ⟨by decide, ⟨takeFacts, _, findRecordingKey_of_mem hids rfl (List.mem_cons_self ..) rfl
      rfl rfl rfl (ne_empty_of_keyBelongsToTenant hkey), hkey, ?_, hfacts⟩, rfl, rfl, rfl⟩
    dsimp only
    rw [Function.update_of_ne hkeys, Function.update_self]
  | second =>
    have hkey := hbelongs 21 "two.mp3" (by decide)
    refine ⟨by decide, ⟨takeFacts, _, findRecordingKey_of_mem hids rfl
      (List.mem_cons_of_mem _ (List.mem_cons_self ..)) rfl rfl rfl rfl
      (ne_empty_of_keyBelongsToTenant hkey), hkey, ?_, hfacts⟩, rfl, rfl, rfl⟩
    dsimp only
    rw [Function.update_self]

/-- **Both confirmations return ok and the lesson has no recording.** -/
theorem recordings_lost : ¬ ReplacesSafely studio (confirmTakes 7) twoTakes := by
  intro hsafe
  obtain ⟨schedule, hok⟩ := exists_bothOk confirmable_take
  obtain ⟨r, -, -, -, hone, -⟩ := hsafe schedule hok
  rw [recordings_eq_nil twoTakes_ids rfl rfl (by decide) hok] at hone
  cases hone

end LampLight
