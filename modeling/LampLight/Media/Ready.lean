import LampLight.Foundation.Machine
import LampLight.Media.Attachments
import LampLight.Media.Recordings

/-!
# A ready row has its object

A run over a lesson is any sequence of the six operations on its resources, by anybody and with any
ids, together with the PUTs of whoever holds a signed URL. Every operation is atomic here and the
storage calls succeed; what two operations do to each other when their steps mix is a question of
its own.

The two flows inspect an upload by their own rule, an audio file or a document, and neither looks at
the kind of the row it was given or at whether the row is ready already. So a confirmation may reach
a row that is ready, find that its object does not pass, and delete the object under the row:
`spoils` is that situation.

## The invariant

`MediaSound` says that row ids are unique, that keys tell their rows apart, and that a ready row has
a key of its tenant with an object behind it. Every operation that does not spoil a row is either a
reservation or a `MediaChange`, which only takes rows and objects away together.

## Main results

* `MediaSound.change`, `MediaSound.reserved` — what keeps the invariant
* `mediaStep_sound`, `mediaStep_spoils` — one step either keeps it or spoils a row
* `readyPresent_iff` — **every ready row has its object, all along a run, exactly when no step of
  the run confirms a ready row whose object that flow would not accept**
-/

namespace LampLight

open Machine (Meets)

/-! ### The system -/

/-- What happens to the media of lessons: the actions, and an upload to the store. -/
inductive MediaAction where
  | requestUpload (ctx : AuthorContext) (form : UploadForm) (draw : UploadDraw)
  | completeUpload (call : UploadCall)
  | removeResource (call : UploadCall)
  | reserveAttachment (ctx : AuthorContext) (now : Instant) (lessonId : Uuid)
      (file : AttachmentFile) (resourceId : Uuid)
  | confirmAttachment (ctx : AuthorContext) (now : Instant) (lessonId resourceId : Uuid)
  | removeAttachment (ctx : AuthorContext) (now : Instant) (lessonId resourceId : Uuid)
  | put (signed : SignRequest × SignedUrl) (now : Instant) (facts : ObjectFacts)

/-- A call about a document of a lesson. -/
def lessonCall (ctx : AuthorContext) (now : Instant) (lessonId : Uuid) : AttachmentCall :=
  { ctx := ctx, now := now, target := .lesson lessonId }

/-- The world after it. -/
def mediaStep (s : MediaServices) (w : MediaWorld) : MediaAction → MediaWorld
  | .requestUpload ctx form draw => (requestUploadAction s ctx form draw w).2
  | .completeUpload call => (completeUploadAction s call w).2
  | .removeResource call => (removeResourceAction s call w).2
  | .reserveAttachment ctx now lessonId file resourceId =>
    (reserveAttachment s (lessonCall ctx now lessonId) file resourceId w).2
  | .confirmAttachment ctx now lessonId resourceId =>
    (confirmAttachment s (lessonCall ctx now lessonId) resourceId w).2
  | .removeAttachment ctx now lessonId resourceId =>
    (removeAttachment s (lessonCall ctx now lessonId) resourceId w).2
  | .put signed now facts =>
    -- The bucket refuses a URL that it never signed or that has expired.
    if signed ∈ w.bucket.signedPuts ∧ now ≤ signed.2.expiresAt then
      { w with bucket := w.bucket.put signed.1.key facts }
    else w

/-- Every row that is offered has its object. -/
def ReadyPresent (w : MediaWorld) : Prop :=
  ∀ r ∈ w.db.lessonResources, ∀ key, r.storageKey = some key → r.ready = true →
    ∃ facts, w.bucket.objects key = some facts

/-- The named row is ready, and its object would not pass as an upload of this kind. -/
def spoiled (s : MediaServices) (kind : UploadKind) (w : MediaWorld)
    (tenantId lessonId resourceId : Uuid) : Bool :=
  w.db.lessonResources.any fun r =>
    r.tenantId = tenantId && r.lessonId = lessonId && r.id = resourceId && r.ready &&
      (r.storageKey.bind w.bucket.objects).any fun facts => !decide (Acceptable s kind facts)

/-- An author confirms a row that is ready, through the flow that would not accept its object. -/
def spoils (s : MediaServices) (w : MediaWorld) : MediaAction → Bool
  | .completeUpload call =>
    (decideLessonAuthoring call.scope w.db call.ctx call.lessonId).allowed &&
      spoiled s .audio w call.ctx.tenantId call.lessonId call.resourceId
  | .confirmAttachment ctx now lessonId resourceId =>
    (decideLessonAuthoring { tenantId := ctx.tenantId, now := now } w.db ctx lessonId).allowed &&
      spoiled s .document w ctx.tenantId lessonId resourceId
  | .requestUpload .. | .removeResource .. | .reserveAttachment .. | .removeAttachment ..
  | .put .. => false

/-! ### The invariant -/

/-- What every reachable state of the media satisfies. -/
structure MediaSound (w : MediaWorld) : Prop where
  ids : (w.db.lessonResources.map (·.id)).Nodup
  keys_distinct : ∀ r ∈ w.db.lessonResources, ∀ r' ∈ w.db.lessonResources, ∀ key,
    r.storageKey = some key → r'.storageKey = some key → r.id = r'.id
  keys_own : ∀ r ∈ w.db.lessonResources, ∀ params,
    r.storageKey = some (buildObjectKey params) → params.objectId = r.id
  belongs : ∀ r ∈ w.db.lessonResources, ∀ key, r.storageKey = some key → r.ready = true →
    keyBelongsToTenant key r.tenantId = true
  present : ReadyPresent w
  members : ∀ m ∈ w.db.memberships,
    w.db.noTenant m.tenantId = false ∧ w.db.noUser m.userId = false

/-- What a step may do that reserves nothing and spoils nothing: rows disappear, a row becomes ready
only over an object, and an object disappears only with the readiness of the row it belongs to. -/
structure MediaChange (w w' : MediaWorld) : Prop where
  people : SamePeople w.db w'.db
  ids : (w'.db.lessonResources.map (·.id)).Sublist (w.db.lessonResources.map (·.id))
  rows : ∀ r' ∈ w'.db.lessonResources, ∃ r ∈ w.db.lessonResources,
    r'.id = r.id ∧ r'.tenantId = r.tenantId ∧ r'.storageKey = r.storageKey ∧
      (r'.ready = true → r.ready = true ∨ ∃ key facts, r.storageKey = some key ∧
        keyBelongsToTenant key r.tenantId = true ∧ w.bucket.objects key = some facts)
  objects : ∀ key, w'.bucket.objects key = none → w.bucket.objects key = none ∨
    ∃ g ∈ w.db.lessonResources, g.storageKey = some key ∧
      ∀ r' ∈ w'.db.lessonResources, r'.id = g.id → r'.ready = false

/-- A new row, not ready yet, whose key is built for its own id. -/
structure Reservation (db db' : Database) (row : LessonResourceRow) (params : KeyParams) :
    Prop where
  people : SamePeople db db'
  rows : db'.lessonResources = db.lessonResources ++ [row]
  fresh : ∀ r ∈ db.lessonResources, r.id ≠ row.id
  key : row.storageKey = some (buildObjectKey params)
  own : params.objectId = row.id
  unready : row.ready = false

variable {s : MediaServices} {w w' : MediaWorld}

theorem SamePeople.members {db db' : Database} (h : SamePeople db db')
    (hm : ∀ m ∈ db.memberships, db.noTenant m.tenantId = false ∧ db.noUser m.userId = false) :
    ∀ m ∈ db'.memberships, db'.noTenant m.tenantId = false ∧ db'.noUser m.userId = false := by
  intro m hmem
  rw [h.memberships] at hmem
  rw [Database.noTenant, Database.noUser, h.tenants, h.users]
  exact hm m hmem

/-- A change in neither the rows nor the objects. -/
theorem MediaChange.of_same (people : SamePeople w.db w'.db)
    (hrows : w'.db.lessonResources = w.db.lessonResources)
    (hobjects : ∀ key, w'.bucket.objects key = none → w.bucket.objects key = none) :
    MediaChange w w' where
  people := people
  ids := by rw [hrows]
  rows := by
    intro r hr
    rw [hrows] at hr
    exact ⟨r, hr, rfl, rfl, rfl, Or.inl⟩
  objects := fun key hkey => Or.inl (hobjects key hkey)

/-- **A change keeps the invariant.** -/
theorem MediaSound.change (hw : MediaSound w) (h : MediaChange w w') : MediaSound w' where
  ids := hw.ids.sublist h.ids
  keys_distinct := by
    intro r hr r' hr' key hkey hkey'
    obtain ⟨b, hb, hid, -, hstored, -⟩ := h.rows r hr
    obtain ⟨b', hb', hid', -, hstored', -⟩ := h.rows r' hr'
    rw [hid, hid']
    exact hw.keys_distinct b hb b' hb' key (hstored ▸ hkey) (hstored' ▸ hkey')
  keys_own := by
    intro r hr params hkey
    obtain ⟨b, hb, hid, -, hstored, -⟩ := h.rows r hr
    rw [hid]
    exact hw.keys_own b hb params (hstored ▸ hkey)
  belongs := by
    intro r hr key hkey hready
    obtain ⟨b, hb, -, htenant, hstored, hb_ready⟩ := h.rows r hr
    rw [htenant]
    rw [hstored] at hkey
    rcases hb_ready hready with hold | ⟨key', facts, hkey', hbelongs, -⟩
    · exact hw.belongs b hb key hkey hold
    · rw [hkey] at hkey'
      obtain rfl := Option.some.inj hkey'
      exact hbelongs
  present := by
    intro r hr key hkey hready
    obtain ⟨b, hb, hid, -, hstored, hb_ready⟩ := h.rows r hr
    rw [hstored] at hkey
    have hbefore : ∃ facts, w.bucket.objects key = some facts := by
      rcases hb_ready hready with hold | ⟨key', facts, hkey', -, hfacts⟩
      · exact hw.present b hb key hkey hold
      · rw [hkey] at hkey'
        obtain rfl := Option.some.inj hkey'
        exact ⟨facts, hfacts⟩
    cases hafter : w'.bucket.objects key with
    | some facts => exact ⟨facts, rfl⟩
    | none =>
      rcases h.objects key hafter with hnone | ⟨g, hg, hgkey, hunready⟩
      · obtain ⟨facts, hfacts⟩ := hbefore
        rw [hnone] at hfacts
        cases hfacts
      · have hid' : r.id = g.id := by
          rw [hid]
          exact hw.keys_distinct b hb g hg key hkey hgkey
        rw [hunready r hr hid'] at hready
        cases hready
  members := h.people.members hw.members

/-- **A reservation keeps the invariant.** -/
theorem MediaSound.reserved (hw : MediaSound w) {row : LessonResourceRow} {params : KeyParams}
    (h : Reservation w.db w'.db row params) (hobjects : w'.bucket.objects = w.bucket.objects) :
    MediaSound w' := by
  have hmem : ∀ r ∈ w'.db.lessonResources, r ∈ w.db.lessonResources ∨ r = row := by
    intro r hr
    rw [h.rows, List.mem_append, List.mem_singleton] at hr
    exact hr
  -- An old key is never one that was built for a new id.
  have hold : ∀ r ∈ w.db.lessonResources, ∀ key, r.storageKey = some key →
      row.storageKey ≠ some key := by
    intro r hr key hrkey hrow
    rw [h.key] at hrow
    rw [← Option.some.inj hrow] at hrkey
    exact h.fresh r hr ((hw.keys_own r hr params hrkey).symm.trans h.own)
  refine ⟨?_, ?_, ?_, ?_, ?_, h.people.members hw.members⟩
  · rw [h.rows, List.map_append, List.map_singleton]
    refine List.nodup_append.mpr ⟨hw.ids, List.nodup_singleton _, ?_⟩
    intro a ha b hb hab
    obtain ⟨r, hr, rfl⟩ := List.mem_map.mp ha
    rw [List.mem_singleton.mp hb] at hab
    exact h.fresh r hr hab
  · intro r hr r' hr' key hrkey hrkey'
    rcases hmem r hr with hr | rfl
    · rcases hmem r' hr' with hr' | rfl
      · exact hw.keys_distinct r hr r' hr' key hrkey hrkey'
      · exact absurd hrkey' (hold r hr key hrkey)
    · rcases hmem r' hr' with hr' | rfl
      · exact absurd hrkey (hold r' hr' key hrkey')
      · rfl
  · intro r hr params' hrkey
    rcases hmem r hr with hr | rfl
    · exact hw.keys_own r hr params' hrkey
    · rw [h.key] at hrkey
      rw [← (buildObjectKey_injective (Option.some.inj hrkey)).2.2, h.own]
  · intro r hr key hrkey hready
    rcases hmem r hr with hr | rfl
    · exact hw.belongs r hr key hrkey hready
    · rw [h.unready] at hready
      cases hready
  · intro r hr key hrkey hready
    rcases hmem r hr with hr | rfl
    · rw [hobjects]
      exact hw.present r hr key hrkey hready
    · rw [h.unready] at hready
      cases hready

/-! ### Reserving -/

theorem reservation_of_insert {db db₁ db' : Database} {row : LessonResourceRow}
    {params : KeyParams} (hinsert : db.insertLessonResource row = .ok db₁)
    (hrows : db'.lessonResources = db₁.lessonResources) (people : SamePeople db₁ db')
    (hkey : row.storageKey = some (buildObjectKey params)) (hown : params.objectId = row.id)
    (hsize : row.byteSize = none) : Reservation db db' row params := by
  obtain ⟨hviolated, rfl⟩ := Database.checked_ok.mp hinsert
  have hfresh := hviolated _ (List.mem_cons_self ..)
  refine ⟨⟨people.memberships, people.tenants, people.users⟩, hrows, ?_, hkey, hown, ?_⟩
  · simpa using hfresh
  · rw [LessonResourceRow.ready, hsize]
    rfl

theorem reserveRecording_ok {db db' : Database} {ctx : AuthorContext} {form : UploadForm}
    {draw : UploadDraw} {key : String}
    (h : reserveRecording db ctx form draw = .ok (some (key, db'))) :
    ∃ row params, Reservation db db' row params := by
  rw [reserveRecording] at h
  split at h
  · obtain ⟨db₂, hbind, hpair⟩ := Machine.map_eq_ok.mp h
    obtain ⟨db₁, hinsert, hlog⟩ := Machine.bind_eq_ok.mp hbind
    obtain ⟨rfl, rfl⟩ := Prod.mk.inj (Option.some.inj hpair)
    obtain rfl := Database.insertAuditLog_ok hlog
    exact ⟨_, _, reservation_of_insert hinsert rfl ⟨rfl, rfl, rfl⟩ rfl rfl rfl⟩
  · cases h

theorem reserveDocument_ok {db db' : Database} {ctx : AuthorContext} {now : Instant}
    {lessonId resourceId : Uuid} {file : AttachmentFile} {key : String}
    (h : reserveDocument db (lessonCall ctx now lessonId) file resourceId = .ok (some (key, db'))) :
    ∃ row params, Reservation db db' row params := by
  rw [reserveDocument] at h
  dsimp only at h
  split at h
  · obtain ⟨db₁, hinsert, hpair⟩ := Machine.map_eq_ok.mp h
    obtain ⟨rfl, rfl⟩ := Prod.mk.inj (Option.some.inj hpair)
    exact ⟨_, _, reservation_of_insert hinsert rfl ⟨rfl, rfl, rfl⟩ rfl rfl rfl⟩
  · cases h

theorem requestUploadAction_sound (hw : MediaSound w) (ctx : AuthorContext) (form : UploadForm)
    (draw : UploadDraw) : MediaSound (requestUploadAction s ctx form draw w).2 := by
  rw [requestUploadAction]
  split
  · exact hw
  · split
    · exact hw
    · split
      · exact hw
      · exact hw
      · next hreserve =>
        obtain ⟨row, params, hres⟩ := reserveRecording_ok hreserve
        split
        · exact hw.reserved hres rfl
        · next hsign => exact hw.reserved hres (signObjectWrite_objects hsign)

theorem reserveAttachment_sound (hw : MediaSound w) (ctx : AuthorContext) (now : Instant)
    (lessonId : Uuid) (file : AttachmentFile) (resourceId : Uuid) :
    MediaSound (reserveAttachment s (lessonCall ctx now lessonId) file resourceId w).2 := by
  rw [reserveAttachment]
  split
  · exact hw
  · split
    · exact hw
    · split
      · exact hw
      · exact hw
      · next hreserve =>
        obtain ⟨row, params, hres⟩ := reserveDocument_ok hreserve
        split
        · exact hw.reserved hres rfl
        · next hsign => exact hw.reserved hres (signObjectWrite_objects hsign)

/-! ### Confirming -/

/-- A row becomes ready over an object of its tenant. -/
theorem MediaChange.ready (hw : MediaSound w) {target : LessonResourceRow} {key : String}
    {facts : ObjectFacts} (htarget : target ∈ w.db.lessonResources)
    (hkey : target.storageKey = some key)
    (hbelongs : keyBelongsToTenant key target.tenantId = true)
    (hfacts : w.bucket.objects key = some facts) (set : LessonResourceRow → LessonResourceRow)
    (hset : ∀ r, (set r).id = r.id ∧ (set r).tenantId = r.tenantId ∧
      (set r).storageKey = r.storageKey) {db' : Database} (people : SamePeople w.db db')
    (hrows : db'.lessonResources = Table.update
      (fun r => r.tenantId = target.tenantId && r.id = target.id) set w.db.lessonResources) :
    MediaChange w { w with db := db' } where
  people := people
  ids := by
    show (db'.lessonResources.map (·.id)).Sublist _
    rw [hrows, Table.map_update fun r => (hset r).1]
  rows := by
    intro r' hr'
    change r' ∈ db'.lessonResources at hr'
    rw [hrows] at hr'
    rcases Table.mem_update.mp hr' with ⟨hr, -⟩ | ⟨r, hr, hp, rfl⟩
    · exact ⟨r', hr, rfl, rfl, rfl, Or.inl⟩
    · rw [Bool.and_eq_true, decide_eq_true_eq, decide_eq_true_eq] at hp
      obtain rfl : r = target := Table.eq_of_key_eq hw.ids hr htarget hp.2
      obtain ⟨hid, htenant, hstored⟩ := hset r
      exact ⟨r, hr, hid, htenant, hstored, fun _ => Or.inr ⟨key, facts, hkey, hbelongs, hfacts⟩⟩
  objects := fun _ h => Or.inl h

/-- Rows disappear, and no objects but theirs. -/
theorem MediaChange.delete (hw : MediaSound w) (t : Uuid) (gone : List Uuid)
    (people : SamePeople w.db w'.db)
    (hrows : w'.db.lessonResources = Table.delete (fun r => r.tenantId = t && r.id ∈ gone)
      w.db.lessonResources)
    (hobjects : ∀ key, w'.bucket.objects key = none → w.bucket.objects key = none ∨
      ∃ g ∈ w.db.lessonResources, g.tenantId = t ∧ g.id ∈ gone ∧ g.storageKey = some key) :
    MediaChange w w' where
  people := people
  ids := by
    rw [hrows]
    exact (Table.delete_sublist _ _).map _
  rows := by
    intro r hr
    rw [hrows] at hr
    exact ⟨r, (Table.mem_delete.mp hr).1, rfl, rfl, rfl, Or.inl⟩
  objects := by
    intro key hkey
    rcases hobjects key hkey with hnone | ⟨g, hg, htenant, hgone, hgkey⟩
    · exact Or.inl hnone
    · refine Or.inr ⟨g, hg, hgkey, fun r hr hid => ?_⟩
      rw [hrows] at hr
      obtain ⟨hr, hkept⟩ := Table.mem_delete.mp hr
      obtain rfl : r = g := Table.eq_of_key_eq hw.ids hr hg hid
      simp [htenant, hgone] at hkept

/-- An object disappears under a row that is not ready. -/
theorem MediaChange.discard (hw : MediaSound w) {target : LessonResourceRow} {key : String}
    (htarget : target ∈ w.db.lessonResources) (hkey : target.storageKey = some key)
    (hready : target.ready = false) :
    MediaChange w { w with bucket := w.bucket.remove key } where
  people := ⟨rfl, rfl, rfl⟩
  ids := List.Sublist.refl _
  rows := fun r hr => ⟨r, hr, rfl, rfl, rfl, Or.inl⟩
  objects := by
    intro k hk
    by_cases heq : k = key
    · refine Or.inr ⟨target, htarget, heq ▸ hkey, fun r hr hid => ?_⟩
      obtain rfl : r = target := Table.eq_of_key_eq hw.ids hr htarget hid
      exact hready
    · rw [Bucket.remove_objects, Function.update_of_ne heq] at hk
      exact Or.inl hk

theorem spoiled_eq_true {kind : UploadKind} {tenantId lessonId resourceId : Uuid} :
    spoiled s kind w tenantId lessonId resourceId = true ↔
      ∃ r ∈ w.db.lessonResources, r.tenantId = tenantId ∧ r.lessonId = lessonId ∧
        r.id = resourceId ∧ r.ready = true ∧ ∃ key facts, r.storageKey = some key ∧
          w.bucket.objects key = some facts ∧ ¬ Acceptable s kind facts := by
  rw [spoiled, List.any_eq_true]
  refine exists_congr fun r => and_congr_right fun _ => ?_
  simp only [Bool.and_eq_true, decide_eq_true_eq, Option.any_eq_true, Option.bind_eq_some_iff,
    Bool.not_eq_true', decide_eq_false_iff_not, and_assoc]
  refine and_congr_right fun _ => and_congr_right fun _ => and_congr_right fun _ =>
    and_congr_right fun _ => ?_
  constructor
  · rintro ⟨facts, ⟨key, hkey, hfacts⟩, hnot⟩
    exact ⟨key, facts, hkey, hfacts, hnot⟩
  · rintro ⟨key, facts, hkey, hfacts, hnot⟩
    exact ⟨facts, ⟨key, hkey, hfacts⟩, hnot⟩

/-- An inspection accepts an object, or leaves a world as sound as it was, when the row it is about
is not spoiled. -/
theorem inspectUpload_sound (hs : storageConfigured s.env = true) (hw : MediaSound w)
    {kind : UploadKind} {r : LessonResourceRow} {key : String} (hr : r ∈ w.db.lessonResources)
    (hkey : r.storageKey = some key)
    (hspoiled : spoiled s kind w r.tenantId r.lessonId r.id = false) :
    (∃ facts, inspectUpload s kind r.tenantId key w.bucket = (.ok (.accepted facts), w.bucket) ∧
      keyBelongsToTenant key r.tenantId = true ∧ w.bucket.objects key = some facts) ∨
    ((∀ facts, (inspectUpload s kind r.tenantId key w.bucket).1 ≠ .ok (.accepted facts)) ∧
      MediaSound { w with bucket := (inspectUpload s kind r.tenantId key w.bucket).2 }) := by
  rcases inspectUpload_cases hs with ⟨facts, h, hbelongs, hfacts, -⟩ |
    ⟨facts, message, h, -, hfacts, hnot⟩ | ⟨hnone, hbucket, -⟩
  · exact Or.inl ⟨facts, h, hbelongs, hfacts⟩
  · have hunready : r.ready = false := by
      by_contra hready
      rw [Bool.not_eq_false] at hready
      rw [spoiled_eq_true.mpr ⟨r, hr, rfl, rfl, rfl, hready, key, facts, hkey, hfacts, hnot⟩]
        at hspoiled
      cases hspoiled
    refine Or.inr ⟨fun facts' h' => ?_, ?_⟩
    · rw [h] at h'
      cases h'
    · rw [h]
      exact hw.change (.discard hw hr hkey hunready)
  · refine Or.inr ⟨hnone, ?_⟩
    rw [hbucket]
    exact hw

/-- An inspection takes the object from under a spoiled row. -/
theorem inspectUpload_spoiled (hs : storageConfigured s.env = true) (hw : MediaSound w)
    {kind : UploadKind} {r : LessonResourceRow} {key : String} {facts : ObjectFacts}
    (hr : r ∈ w.db.lessonResources) (hkey : r.storageKey = some key)
    (hfacts : w.bucket.objects key = some facts) (hready : r.ready = true)
    (hnot : ¬ Acceptable s kind facts) :
    ∃ message, inspectUpload s kind r.tenantId key w.bucket
      = (.ok (.refused message), w.bucket.remove key) := by
  rcases inspectUpload_cases hs with ⟨facts', -, -, hfacts', haccept⟩ | ⟨_, message, h, -⟩ |
    ⟨-, -, hnone⟩
  · rw [hfacts] at hfacts'
    rw [← Option.some.inj hfacts'] at haccept
    exact absurd haccept hnot
  · exact ⟨message, h⟩
  · rw [hnone (hw.belongs r hr key hkey hready)] at hfacts
    cases hfacts

/-- A ready row without its object. -/
theorem not_readyPresent_remove {r : LessonResourceRow} {key : String}
    (hr : r ∈ w.db.lessonResources) (hkey : r.storageKey = some key) (hready : r.ready = true) :
    ¬ ReadyPresent { w with bucket := w.bucket.remove key } := by
  intro h
  obtain ⟨facts, hfacts⟩ := h r hr key hkey hready
  rw [Bucket.remove_objects, Function.update_self] at hfacts
  cases hfacts

/-! ### The recordings flow -/

theorem completeUploadAction_sound (hs : storageConfigured s.env = true) (hw : MediaSound w)
    {call : UploadCall} (hspoils : spoils s w (.completeUpload call) = false) :
    MediaSound (completeUploadAction s call w).2 := by
  rw [completeUploadAction, if_neg (by simp [hs])]
  cases hfind : findRecordingKey w.db call with
  | none => exact hw
  | some key =>
    obtain ⟨hallowed, -, r, hr, htenant, hid, hlesson, hkey⟩ := findRecordingKey_eq_some hfind
    have hspoiled : spoiled s .audio w r.tenantId r.lessonId r.id = false := by
      rw [spoils, hallowed, Bool.true_and] at hspoils
      rw [htenant, hlesson, hid]
      exact hspoils
    dsimp only
    rw [← htenant]
    rcases inspectUpload_sound hs hw hr hkey hspoiled with ⟨facts, h, hbelongs, hfacts⟩ |
      ⟨hnone, hsound⟩
    · rw [h]
      dsimp only
      split
      · exact hw
      · next db' hcommit =>
        obtain ⟨hrows, hmembers, husers, htenants⟩ := commitUpload_ok hcommit
        let set (r : LessonResourceRow) : LessonResourceRow :=
          { r with byteSize := some facts.byteSize, isDownloadable := call.isDownloadable }
        have hready : MediaSound { w with db := w.db.updateLessonResource r.tenantId r.id set } :=
          hw.change (.ready hw hr hkey hbelongs hfacts set (fun _ => ⟨rfl, rfl, rfl⟩)
            ⟨rfl, rfl, rfl⟩ rfl)
        refine hready.change
          (.delete hready call.ctx.tenantId ((listSuperseded w.db call).map (·.id))
          ⟨hmembers, htenants, husers⟩ ?_ ?_)
        · rw [hrows, ← htenant, ← hid]
          rfl
        · intro key' hkey'
          change ((listSuperseded w.db call).foldl (purgeObject s.env r.tenantId) w.bucket).objects
            key' = none at hkey'
          by_cases hold : ∀ old ∈ listSuperseded w.db call, old.storageKey ≠ some key'
          · rw [foldl_purgeObject_of_ne _ hold] at hkey'
            exact Or.inl hkey'
          · push Not at hold
            obtain ⟨old, hmem, hstored⟩ := hold
            obtain ⟨g, hg, hgt, -, -, hne, rfl⟩ := mem_listSuperseded.mp hmem
            refine Or.inr ⟨g, ?_, hgt, List.mem_map_of_mem hmem, hstored⟩
            refine Table.mem_update.mpr (Or.inl ⟨hg, ?_⟩)
            rw [hid]
            simp [hne]
    · cases hinspect : inspectUpload s .audio r.tenantId key w.bucket with
      | mk result bucket =>
        rw [hinspect] at hnone hsound
        cases result with
        | error e => exact hsound
        | ok inspection =>
          cases inspection with
          | accepted facts => exact absurd rfl (hnone facts)
          | refused message => exact hsound

/-- A member's action is logged. -/
theorem MediaSound.insertAuditLog_ne_error (hw : MediaSound w) {scope : TenantScope}
    {ctx : AuthorContext} {lessonId : Uuid}
    (hallowed : (decideLessonAuthoring scope w.db ctx lessonId).allowed = true) {db : Database}
    (people : SamePeople w.db db) {row : AuditRow} (htenant : row.tenantId = scope.tenantId)
    (hactor : row.actorUserId = some ctx.userId) (e : DbError) :
    db.insertAuditLog row ≠ .error e := by
  obtain ⟨m, hm, hmt, hmu⟩ := member_of_decideLessonAuthoring hallowed
  rw [← people.memberships] at hm
  obtain ⟨hnoTenant, hnoUser⟩ := people.members hw.members m hm
  have hok : db.insertAuditLog row = .ok { db with auditLog := db.auditLog ++ [row] } := by
    refine Database.insertAuditLog_eq_ok.mpr ⟨⟨?_, ?_⟩, rfl⟩
    · rw [htenant, ← hmt]
      exact hnoTenant
    · rw [hactor, ← hmu]
      exact hnoUser
  intro herror
  rw [hok] at herror
  cases herror

/-- Deleting one named row, and nothing but its object, keeps the invariant. -/
theorem MediaSound.remove (hw : MediaSound w) {r : LessonResourceRow}
    (hr : r ∈ w.db.lessonResources) {db' : Database} {bucket' : Bucket}
    (people : SamePeople w.db db')
    (hrows : db'.lessonResources = (w.db.deleteLessonResources r.tenantId [r.id]).lessonResources)
    (hbucket : bucket' = w.bucket ∨
      ∃ key, r.storageKey = some key ∧ bucket' = w.bucket.remove key) :
    MediaSound { db := db', bucket := bucket' } := by
  refine hw.change (.delete hw r.tenantId [r.id] people hrows fun key' hkey' => ?_)
  rcases hbucket with rfl | ⟨key, hkey, rfl⟩
  · exact Or.inl hkey'
  · by_cases heq : key' = key
    · exact Or.inr ⟨r, hr, rfl, List.mem_singleton_self _, heq ▸ hkey⟩
    · change Function.update w.bucket.objects key none key' = none at hkey'
      rw [Function.update_of_ne heq] at hkey'
      exact Or.inl hkey'

theorem removeResourceAction_sound (hs : storageConfigured s.env = true) (hw : MediaSound w)
    (call : UploadCall) : MediaSound (removeResourceAction s call w).2 := by
  rw [removeResourceAction]
  cases hfind : findRecordingKey w.db call with
  | none => exact hw
  | some key =>
    obtain ⟨hallowed, -, r, hr, htenant, hid, -, hkey⟩ := findRecordingKey_eq_some hfind
    dsimp only
    rw [if_pos hs, ← htenant, ← hid]
    have hdeleted : SamePeople w.db (w.db.deleteLessonResources r.tenantId [r.id]) :=
      ⟨rfl, rfl, rfl⟩
    split
    · next e hlog =>
      exact absurd hlog (hw.insertAuditLog_ne_error hallowed hdeleted htenant rfl e)
    · next db' hlog =>
      obtain rfl := Database.insertAuditLog_ok hlog
      refine hw.remove hr ⟨rfl, rfl, rfl⟩ rfl ?_
      split
      · next hdelete => exact Or.inr ⟨key, hkey, deleteObject_ok hdelete⟩
      · exact Or.inl rfl

/-! ### The documents flow -/

theorem findKey_lesson_eq_some {tenantId lessonId resourceId : Uuid} {db : Database}
    {found : Option String} (h : findKey tenantId db (.lesson lessonId) resourceId = some found) :
    ∃ r ∈ db.lessonResources, r.tenantId = tenantId ∧ r.id = resourceId ∧ r.lessonId = lessonId ∧
      r.storageKey = found := by
  obtain ⟨r, hr, hkey⟩ := Option.map_eq_some_iff.mp h
  have hp := List.find?_some hr
  simp only [Bool.and_eq_true, decide_eq_true_eq] at hp
  exact ⟨r, List.mem_of_find?_eq_some hr, hp.1.1, hp.1.2, hp.2, hkey⟩

theorem findAttachmentKey_eq_some {ctx : AuthorContext} {now : Instant}
    {lessonId resourceId : Uuid} {db : Database} {key : String}
    (h : findAttachmentKey db (lessonCall ctx now lessonId) resourceId = some key) :
    (decideLessonAuthoring { tenantId := ctx.tenantId, now := now } db ctx lessonId).allowed
        = true ∧
      ∃ r ∈ db.lessonResources, r.tenantId = ctx.tenantId ∧ r.id = resourceId ∧
        r.lessonId = lessonId ∧ r.storageKey = some key := by
  rw [findAttachmentKey] at h
  split at h
  · next hallowed =>
    obtain ⟨hjoin, -⟩ := Option.filter_eq_some_iff.mp h
    exact ⟨hallowed, findKey_lesson_eq_some (Option.join_eq_some_iff.mp hjoin)⟩
  · cases h

theorem findAttachmentKey_of_mem (hw : MediaSound w) {ctx : AuthorContext} {now : Instant}
    {r : LessonResourceRow} {key : String}
    (hallowed : (decideLessonAuthoring { tenantId := ctx.tenantId, now := now } w.db ctx
      r.lessonId).allowed = true)
    (hr : r ∈ w.db.lessonResources) (htenant : r.tenantId = ctx.tenantId)
    (hkey : r.storageKey = some key) (hne : key ≠ "") :
    findAttachmentKey w.db (lessonCall ctx now r.lessonId) r.id = some key := by
  have hfind : w.db.lessonResources.find? (fun b => b.tenantId = ctx.tenantId && b.id = r.id &&
      b.lessonId = r.lessonId) = some r := by
    refine Table.find?_eq_some_of_unique hr (by simp [htenant]) fun b hb hp => ?_
    simp only [Bool.and_eq_true, decide_eq_true_eq] at hp
    exact Table.eq_of_key_eq hw.ids hb hr hp.1.2
  have hfound : findKey ctx.tenantId w.db (.lesson r.lessonId) r.id = some (some key) := by
    rw [findKey, hfind, Option.map_some, hkey]
  let call := lessonCall ctx now r.lessonId
  have hmay : mayAuthor call.scope w.db call.ctx call.target = true := hallowed
  rw [findAttachmentKey, if_pos hmay]
  show (findKey ctx.tenantId w.db (.lesson r.lessonId) r.id).join.filter _ = some key
  rw [hfound, Option.filter_eq_some_iff]
  exact ⟨rfl, by simpa using hne⟩

theorem confirmAttachment_sound (hs : storageConfigured s.env = true) (hw : MediaSound w)
    {ctx : AuthorContext} {now : Instant} {lessonId resourceId : Uuid}
    (hspoils : spoils s w (.confirmAttachment ctx now lessonId resourceId) = false) :
    MediaSound (confirmAttachment s (lessonCall ctx now lessonId) resourceId w).2 := by
  rw [confirmAttachment]
  cases hfind : findAttachmentKey w.db (lessonCall ctx now lessonId) resourceId with
  | none => exact hw
  | some key =>
    obtain ⟨hallowed, r, hr, htenant, hid, hlesson, hkey⟩ := findAttachmentKey_eq_some hfind
    have hspoiled : spoiled s .document w r.tenantId r.lessonId r.id = false := by
      rw [spoils, hallowed, Bool.true_and] at hspoils
      rw [htenant, hlesson, hid]
      exact hspoils
    dsimp only [lessonCall]
    rw [← htenant]
    rcases inspectUpload_sound hs hw hr hkey hspoiled with ⟨facts, h, hbelongs, hfacts⟩ |
      ⟨hnone, hsound⟩
    · rw [h]
      dsimp only
      split
      · exact hw
      · next db' hcommit =>
        obtain rfl := Database.insertAuditLog_ok hcommit
        refine hw.change (.ready hw hr hkey hbelongs hfacts
          (fun r => { r with byteSize := some facts.byteSize }) (fun _ => ⟨rfl, rfl, rfl⟩)
          ⟨rfl, rfl, rfl⟩ ?_)
        rw [htenant, hid]
        rfl
    · cases hinspect : inspectUpload s .document r.tenantId key w.bucket with
      | mk result bucket =>
        rw [hinspect] at hnone hsound
        cases result with
        | error e => exact hsound
        | ok inspection =>
          cases inspection with
          | accepted facts => exact absurd rfl (hnone facts)
          | refused message => exact hsound

/-- What deleting a document of a lesson has done, when it has found something. -/
theorem deleteAttachment_ok {ctx : AuthorContext} {now : Instant} {lessonId resourceId : Uuid}
    {db db' : Database} {found : Option (Option String)}
    (h : deleteAttachment db (lessonCall ctx now lessonId) resourceId = .ok (found, db')) :
    (found = none ∧ db' = db) ∨ ∃ r ∈ db.lessonResources, r.tenantId = ctx.tenantId ∧
      r.id = resourceId ∧ found = some r.storageKey ∧ SamePeople db db' ∧
        db'.lessonResources =
          (db.deleteLessonResources ctx.tenantId [resourceId]).lessonResources := by
  rw [deleteAttachment] at h
  dsimp only at h
  split at h
  · split at h
    · obtain ⟨rfl, rfl⟩ := Prod.mk.inj (Except.ok.inj h)
      exact Or.inl ⟨rfl, rfl⟩
    · next stored hfind =>
      obtain ⟨r, hr, htenant, hid, -, rfl⟩ := findKey_lesson_eq_some hfind
      obtain ⟨db₁, hlog, hpair⟩ := Machine.map_eq_ok.mp h
      obtain ⟨rfl, rfl⟩ := Prod.mk.inj hpair
      obtain rfl := Database.insertAuditLog_ok hlog
      exact Or.inr ⟨r, hr, htenant, hid, rfl, ⟨rfl, rfl, rfl⟩, rfl⟩
  · obtain ⟨rfl, rfl⟩ := Prod.mk.inj (Except.ok.inj h)
    exact Or.inl ⟨rfl, rfl⟩

theorem removeAttachment_sound (hw : MediaSound w) (ctx : AuthorContext) (now : Instant)
    (lessonId resourceId : Uuid) :
    MediaSound (removeAttachment s (lessonCall ctx now lessonId) resourceId w).2 := by
  rw [removeAttachment]
  cases hdelete : deleteAttachment w.db (lessonCall ctx now lessonId) resourceId with
  | error e => exact hw
  | ok outcome =>
    obtain ⟨found, db'⟩ := outcome
    rcases deleteAttachment_ok hdelete with ⟨rfl, rfl⟩ | ⟨r, hr, htenant, hid, rfl, people, hrows⟩
    · exact hw
    · rw [← htenant, ← hid] at hrows
      have hgone : MediaSound { w with db := db' } := hw.remove hr people hrows (Or.inl rfl)
      dsimp only
      split
      · exact hgone
      · next key hkey =>
        split
        · split
          · next hobject =>
            rw [deleteObject_ok hobject]
            refine hw.remove hr people hrows (Or.inr ⟨key, ?_, rfl⟩)
            exact (Option.filter_eq_some_iff.mp hkey).1
          · exact hgone
        · exact hgone

/-! ### One step -/

/-- **A step that spoils nothing keeps the invariant.** -/
theorem mediaStep_sound (hs : storageConfigured s.env = true) (hw : MediaSound w)
    {a : MediaAction} (hspoils : spoils s w a = false) : MediaSound (mediaStep s w a) := by
  cases a with
  | requestUpload ctx form draw => exact requestUploadAction_sound hw ctx form draw
  | completeUpload call => exact completeUploadAction_sound hs hw hspoils
  | removeResource call => exact removeResourceAction_sound hs hw call
  | reserveAttachment ctx now lessonId file resourceId =>
    exact reserveAttachment_sound hw ctx now lessonId file resourceId
  | confirmAttachment ctx now lessonId resourceId => exact confirmAttachment_sound hs hw hspoils
  | removeAttachment ctx now lessonId resourceId =>
    exact removeAttachment_sound hw ctx now lessonId resourceId
  | put signed now facts =>
    rw [mediaStep]
    split
    · refine hw.change (.of_same ⟨rfl, rfl, rfl⟩ rfl fun key hkey => ?_)
      by_cases heq : key = signed.1.key
      · rw [heq, Bucket.put_objects, Function.update_self] at hkey
        cases hkey
      · rwa [Bucket.put_objects, Function.update_of_ne heq] at hkey
    · exact hw

/-- **A step that spoils a row leaves it ready without its object.** -/
theorem mediaStep_spoils (hs : storageConfigured s.env = true) (hw : MediaSound w)
    {a : MediaAction} (hspoils : spoils s w a = true) : ¬ ReadyPresent (mediaStep s w a) := by
  cases a with
  | completeUpload call =>
    obtain ⟨hallowed, hspoiled⟩ := Bool.and_eq_true_iff.mp hspoils
    obtain ⟨r, hr, htenant, hlesson, hid, hready, key, facts, hkey, hfacts, hnot⟩ :=
      spoiled_eq_true.mp hspoiled
    have hne : key ≠ "" := ne_empty_of_keyBelongsToTenant (hw.belongs r hr key hkey hready)
    obtain ⟨message, hinspect⟩ := inspectUpload_spoiled hs hw hr hkey hfacts hready hnot
    rw [mediaStep, completeUploadAction, if_neg (by simp [hs]),
      findRecordingKey_of_mem hw.ids hallowed hr htenant hid hlesson hkey hne]
    dsimp only
    rw [← htenant, hinspect]
    exact not_readyPresent_remove hr hkey hready
  | confirmAttachment ctx now lessonId resourceId =>
    obtain ⟨hallowed, hspoiled⟩ := Bool.and_eq_true_iff.mp hspoils
    obtain ⟨r, hr, htenant, rfl, rfl, hready, key, facts, hkey, hfacts, hnot⟩ :=
      spoiled_eq_true.mp hspoiled
    have hne : key ≠ "" := ne_empty_of_keyBelongsToTenant (hw.belongs r hr key hkey hready)
    obtain ⟨message, hinspect⟩ := inspectUpload_spoiled hs hw hr hkey hfacts hready hnot
    rw [mediaStep, confirmAttachment, findAttachmentKey_of_mem hw hallowed hr htenant hkey hne]
    dsimp only [lessonCall]
    rw [← htenant, hinspect]
    exact not_readyPresent_remove hr hkey hready
  | requestUpload => cases hspoils
  | removeResource => cases hspoils
  | reserveAttachment => cases hspoils
  | removeAttachment => cases hspoils
  | put => cases hspoils

/-! ### Every run -/

/-- **Ready media exists exactly as long as no step spoils a row.** -/
theorem readyPresent_iff (hs : storageConfigured s.env = true) (hw : MediaSound w)
    (as : List MediaAction) :
    Meets (mediaStep s) (fun w a => ReadyPresent (mediaStep s w a)) w as ↔
      Meets (mediaStep s) (fun w a => spoils s w a = false) w as := by
  refine Meets.iff_of_invariant (I := MediaSound)
    (fun w a hw _ hspoils => mediaStep_sound hs hw hspoils) (fun w a hw _ => ?_) hw
    (Machine.meets_true _ _ _)
  constructor
  · intro hpresent
    by_contra hspoils
    rw [Bool.not_eq_false] at hspoils
    exact mediaStep_spoils hs hw hspoils hpresent
  · exact fun hspoils => (mediaStep_sound hs hw hspoils).present

/-! ### A lesson -/

/-- A deployment with a bucket. -/
def studio : MediaServices where
  env := envOf { url := fun _ => true, positiveInt := fun _ => none } fun key =>
    [("S3_BUCKET", "media"), ("S3_ACCESS_KEY_ID", "key"), ("S3_SECRET_ACCESS_KEY", "secret")].lookup
      key
  signer := { signGet := fun request => "get " ++ request.key
              signPut := fun request => "put " ++ request.key }
  numberText := fun _ => ""

/-- An instructor of the institute. -/
def teacher : AuthorContext := { tenantId := 1, userId := 7 }

/-- One lesson of one course, with its instructor and nothing uploaded yet. -/
def classroom : MediaWorld where
  db :=
    { users := [⟨7, "teacher@grace.edu", "Teacher", "", "", true⟩]
      tenants := [⟨1, "grace", "Grace", .active, 0⟩]
      memberships := [⟨1, 7, .instructor, []⟩]
      courses := [⟨10, 1, "Genesis", "genesis", none⟩]
      courseInstructors := [⟨1, 10, 7⟩]
      modules := [⟨11, 1, 10, "Week 1", 0⟩]
      lessons := [⟨12, 1, 11, "Creation", "creation", none, none, false, 0⟩] }
  bucket := { objects := fun _ => none, signedPuts := [] }

theorem mediaSound_classroom : MediaSound classroom where
  ids := List.nodup_nil
  keys_distinct := fun _ h => absurd h List.not_mem_nil
  keys_own := fun _ h => absurd h List.not_mem_nil
  belongs := fun _ h => absurd h List.not_mem_nil
  present := fun _ h => absurd h List.not_mem_nil
  members := by decide

/-- The URL the bucket honours for a resource of the lesson. -/
def signedFor (resourceId : Uuid) (filename contentType : String) : SignRequest × SignedUrl :=
  let key := buildObjectKey
    { tenantId := 1, purpose := .lesson, objectId := resourceId, filename := filename }
  ({ key := key, expiresInSeconds := 900, contentType := some contentType },
    { url := "put " ++ key, expiresAt := 900000 })

/-- A handout is reserved, uploaded and confirmed. -/
def handoutRun : List MediaAction :=
  [.reserveAttachment teacher 0 12 ⟨"notes.pdf", "application/pdf", .finite 1000, none, none⟩ 20,
    .put (signedFor 20 "notes.pdf" "application/pdf") 60000 ⟨1000, some "application/pdf"⟩,
    .confirmAttachment teacher 0 12 20]

/-- The handout's row, before and after it is ready. -/
def handoutRow (byteSize : Option ℕ) : LessonResourceRow where
  id := 20
  tenantId := 1
  lessonId := 12
  kind := .pdf
  storageKey := some (signedFor 20 "notes.pdf" "application/pdf").1.key
  url := none
  filename := some "notes.pdf"
  byteSize := byteSize
  isDownloadable := true
  sortOrder := 1

theorem handout_belongs :
    keyBelongsToTenant (signedFor 20 "notes.pdf" "application/pdf").1.key 1 = true :=
  (keyBelongsToTenant_buildObjectKey _).mpr (by decide)

theorem acceptable_handout : Acceptable studio .document ⟨1000, some "application/pdf"⟩ := by
  decide +kernel

/-- The handout is reserved and its object is there. -/
theorem run_handout_put : ∃ puts,
    Machine.run (mediaStep studio) classroom (handoutRun.take 2)
      = { db := { classroom.db with lessonResources := [handoutRow none] }
          bucket :=
            { objects := Function.update classroom.bucket.objects
                (signedFor 20 "notes.pdf" "application/pdf").1.key
                (some ⟨1000, some "application/pdf"⟩)
              signedPuts := puts } } := by
  have htype : "application/pdf" = mediaType "application/pdf" := by decide +kernel
  let handoutFile : AttachmentFile :=
    ⟨"notes.pdf", "application/pdf", .finite 1000, none, none⟩
  have hcheck : checkUpload studio.numberText .document "application/pdf" (.finite 1000)
      = .ok "application/pdf" :=
    checkUpload_eq_ok.mpr ⟨htype, by decide, 1000, rfl, by decide, by decide +kernel⟩
  have hreserve : reserveDocument classroom.db (lessonCall teacher 0 12)
      handoutFile 20
      = .ok (some ((signedFor 20 "notes.pdf" "application/pdf").1.key,
          { classroom.db with lessonResources := [handoutRow none] })) := rfl
  have hrequest : (reserveAttachment studio (lessonCall teacher 0 12)
      handoutFile 20 classroom).2
      = { db := { classroom.db with lessonResources := [handoutRow none] }
          bucket := { classroom.bucket with
            signedPuts := [signedFor 20 "notes.pdf" "application/pdf"] } } := by
    rw [reserveAttachment_eq handoutFile (by decide) hcheck hreserve handout_belongs]
    rfl
  have hmem : signedFor 20 "notes.pdf" "application/pdf"
      ∈ [signedFor 20 "notes.pdf" "application/pdf"] := List.mem_singleton_self _
  have hnow : (60000 : ℤ) ≤ (signedFor 20 "notes.pdf" "application/pdf").2.expiresAt := by
    show (60000 : ℤ) ≤ 900000
    decide
  refine ⟨[signedFor 20 "notes.pdf" "application/pdf"], ?_⟩
  rw [handoutRun, List.take_succ_cons, List.take_succ_cons, List.take_zero, Machine.run_cons,
    mediaStep, hrequest, Machine.run_cons, mediaStep, if_pos ⟨hmem, hnow⟩]
  rfl

/-- The handout is ready. -/
theorem run_handout : ∃ audit puts,
    Machine.run (mediaStep studio) classroom handoutRun
      = { db := { classroom.db with lessonResources := [handoutRow (some 1000)], auditLog := audit }
          bucket :=
            { objects := Function.update classroom.bucket.objects
                (signedFor 20 "notes.pdf" "application/pdf").1.key
                (some ⟨1000, some "application/pdf"⟩)
              signedPuts := puts } } := by
  obtain ⟨puts, hput⟩ := run_handout_put
  let w : MediaWorld :=
    { db := { classroom.db with lessonResources := [handoutRow none] }
      bucket :=
        { objects := Function.update classroom.bucket.objects
            (signedFor 20 "notes.pdf" "application/pdf").1.key
            (some ⟨1000, some "application/pdf"⟩)
          signedPuts := puts } }
  have hfind : findAttachmentKey w.db (lessonCall teacher 0 12) 20
      = some (signedFor 20 "notes.pdf" "application/pdf").1.key := by
    have hne := ne_empty_of_keyBelongsToTenant handout_belongs
    rw [findAttachmentKey]
    exact (if_pos rfl).trans (Option.filter_eq_some_iff.mpr ⟨rfl, by simpa using hne⟩)
  have hobject : w.bucket.objects (signedFor 20 "notes.pdf" "application/pdf").1.key
      = some ⟨1000, some "application/pdf"⟩ := by
    dsimp only [w]
    rw [Function.update_self]
  have hcommit : ∃ audit, commitAttachment w.db (lessonCall teacher 0 12) 20
      ⟨1000, some "application/pdf"⟩
      = .ok { classroom.db with
          lessonResources := [handoutRow (some 1000)], auditLog := audit } := ⟨_, rfl⟩
  obtain ⟨audit, hcommit⟩ := hcommit
  refine ⟨audit, puts, ?_⟩
  have hsplit : handoutRun = handoutRun.take 2 ++ [.confirmAttachment teacher 0 12 20] := rfl
  rw [hsplit, Machine.run_append, hput, Machine.run_cons, Machine.run_nil, mediaStep]
  exact congrArg Prod.snd (confirmAttachment_eq (w := w) (by decide) hfind handout_belongs hobject
    acceptable_handout hcommit)

/-- Nothing is spoiled on the way. -/
theorem handoutRun_spoils_nothing :
    Meets (mediaStep studio) (fun w a => spoils studio w a = false) classroom handoutRun := by
  obtain ⟨puts, hput⟩ := run_handout_put
  have hsplit : handoutRun = handoutRun.take 2 ++ [.confirmAttachment teacher 0 12 20] := rfl
  rw [hsplit, Machine.meets_append, hput]
  exact ⟨⟨rfl, rfl, trivial⟩, rfl, trivial⟩

theorem readyPresent_iff_handout : storageConfigured studio.env = true ∧ MediaSound classroom ∧
    Meets (mediaStep studio) (fun w a => ReadyPresent (mediaStep studio w a)) classroom
      handoutRun :=
  ⟨by decide, mediaSound_classroom,
    (readyPresent_iff (by decide) mediaSound_classroom handoutRun).mpr handoutRun_spoils_nothing⟩

/-- The same person confirms it once more, as a recording. -/
def asRecording : UploadCall where
  ctx := teacher
  now := 0
  lessonId := 12
  resourceId := 20
  durationSeconds := .nan
  isDownloadable := false

/-- **A ready handout confirmed as a recording loses its object and stays ready.** -/
theorem handout_destroyed :
    ¬ Meets (mediaStep studio) (fun w a => ReadyPresent (mediaStep studio w a)) classroom
      (handoutRun ++ [.completeUpload asRecording]) := by
  intro h
  have hpreserves : Machine.Preserves (mediaStep studio) (fun w a => spoils studio w a = false)
      MediaSound := fun _ _ hspoils hw => mediaStep_sound (by decide) hw hspoils
  have hsound := hpreserves.run mediaSound_classroom handoutRun_spoils_nothing
  have hpdf : ¬ Acceptable studio .audio ⟨1000, some "application/pdf"⟩ := by decide +kernel
  have hspoils : spoils studio (Machine.run (mediaStep studio) classroom handoutRun)
      (.completeUpload asRecording) = true := by
    obtain ⟨audit, puts, hrun⟩ := run_handout
    rw [hrun]
    refine Bool.and_eq_true_iff.mpr ⟨rfl, spoiled_eq_true.mpr ⟨handoutRow (some 1000),
      List.mem_singleton_self _, rfl, rfl, rfl, rfl, _, _, rfl, ?_, hpdf⟩⟩
    dsimp only
    rw [Function.update_self]
  exact mediaStep_spoils (by decide) hsound hspoils ((Machine.meets_append _).mp h).2.1

end LampLight
