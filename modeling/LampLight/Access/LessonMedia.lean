import LampLight.Access.Media
import LampLight.Media.Shelf

/-!
# What a lesson offers

A lesson page plays its first recording and lists the rest as materials, and both come from what
`issueLessonMedia` returns. A confirmed upload is returned with a signed URL. A link is ready from
the moment it is added, but the loop skips every row without a key, so no link ever gets to the
page.

## Main definitions

* `traceIssueLessonMedia` — issuing, with the requests the signer is asked for
* `readyRows` — the uploads of a lesson that were confirmed and the links that were added
* `ExactMedia` — what is returned is exactly what is ready and permitted
* `lessonPage` — the page

## Main results

* `traceIssueLessonMedia_snd` — the requests are all that tracing adds
* `lessonMedia_exact_iff` — in every run, what a lesson offers is exact for viewers who are denied
  and for lessons without links
-/

namespace LampLight

open Machine (run)

/-! ### Watching the signer -/

/-- The deployment's issuer, at one moment. -/
def MediaServices.issuer (s : MediaServices) (startedAt : Instant) (clock : ℕ → Instant) :
    Issuer where
  env := s.env
  signer := s.signer
  startedAt := startedAt
  clock := clock

/-- What is asked of the signer for one object that is read. -/
def Issuer.readRequest (issuer : Issuer) (key : String) : SignRequest where
  key := key
  expiresInSeconds := issuer.env.signedUrlTtlSeconds
  contentType := none

/-- A signature, with the request that got as far as the signer. -/
def Issuer.traceSign (issuer : Issuer) (tenantId : Uuid) (key : String) :
    List SignRequest × Except StorageError SignedUrl :=
  (match openStorage issuer.env tenantId key with
    | .ok () => [issuer.readRequest key]
    | .error _ => [],
    issuer.sign tenantId key)

/-- The media of a lesson, with what was asked of the signer on the way. -/
def traceLessonMedia (issuer : Issuer) (tenantId : Uuid) :
    List LessonResource → List SignRequest × Except StorageError (List IssuedMedia)
  | [] => ([], .ok [])
  | resource :: resources =>
    match resource.storageKey.filter fun key => key ≠ "" with
    | none => traceLessonMedia issuer tenantId resources
    | some key =>
      match issuer.traceSign tenantId key with
      | (asked, .error e) => (asked, .error e)
      | (asked, .ok signed) =>
        let rest := traceLessonMedia issuer.next tenantId resources
        (asked ++ rest.1, rest.2.map fun issued =>
          { resourceId := resource.id
            kind := resource.kind
            filename := resource.filename
            isDownloadable := resource.isDownloadable
            url := signed.url
            expiresAt := signed.expiresAt } :: issued)

/-- The same behind the check of access. -/
def traceIssueLessonMedia (issuer : Issuer) (db : Database) (ctx : AccessContext)
    (lessonId : Uuid) : List SignRequest × Except StorageError (Option (List IssuedMedia)) :=
  let scope : TenantScope := { tenantId := ctx.tenantId, now := issuer.startedAt }
  if (decideLessonAccess scope db ctx lessonId).allowed then
    let traced := traceLessonMedia issuer ctx.tenantId (listLessonResources scope db lessonId)
    (traced.1, traced.2.map some)
  else ([], .ok none)

section Tracing

variable {issuer : Issuer} {db : Database} {ctx : AccessContext} {tenantId lessonId : Uuid}

theorem traceLessonMedia_snd (issuer : Issuer) (tenantId : Uuid) (resources : List LessonResource) :
    (traceLessonMedia issuer tenantId resources).2 = signLessonMedia issuer tenantId resources := by
  induction resources generalizing issuer with
  | nil => rfl
  | cons resource resources ih =>
    simp only [traceLessonMedia, signLessonMedia, Issuer.traceSign]
    cases resource.storageKey.filter fun key => key ≠ "" with
    | none => exact ih issuer
    | some key =>
      dsimp only
      cases issuer.sign tenantId key with
      | error e => rfl
      | ok signed => simp only [ih issuer.next]

/-- Tracing changes nothing. -/
theorem traceIssueLessonMedia_snd :
    (traceIssueLessonMedia issuer db ctx lessonId).2 = issueLessonMedia issuer db ctx lessonId := by
  rw [traceIssueLessonMedia, issueLessonMedia]
  split_ifs
  · dsimp only
    rw [traceLessonMedia_snd]
  · rfl

/-- What belongs to a tenant lies under its prefix. -/
theorem prefix_of_keyBelongsToTenant {key : String} (h : keyBelongsToTenant key tenantId = true) :
    (tenantPrefix tenantId).toList <+: key.toList := by
  rw [keyBelongsToTenant] at h
  split_ifs at h
  exact List.isPrefixOf_iff_prefix.mp h

/-- The signer is only asked for keys of the tenant. -/
theorem traceLessonMedia_prefix {issuer : Issuer} {resources : List LessonResource}
    {request : SignRequest} (h : request ∈ (traceLessonMedia issuer tenantId resources).1) :
    (tenantPrefix tenantId).toList <+: request.key.toList := by
  have hasked : ∀ (issuer : Issuer) (key : String),
      request ∈ (issuer.traceSign tenantId key).1 →
      (tenantPrefix tenantId).toList <+: request.key.toList := by
    intro issuer key hmem
    rw [Issuer.traceSign] at hmem
    cases hopen : openStorage issuer.env tenantId key with
    | error e => simp [hopen] at hmem
    | ok u =>
      simp only [hopen, List.mem_singleton] at hmem
      rw [hmem]
      exact prefix_of_keyBelongsToTenant (belongs_of_openStorage hopen)
  induction resources generalizing issuer with
  | nil => simp [traceLessonMedia] at h
  | cons resource resources ih =>
    rw [traceLessonMedia] at h
    split at h
    · exact ih h
    · next key _ =>
      have hkey := hasked issuer key
      split at h
      · next hsign =>
        rw [hsign] at hkey
        exact hkey h
      · next hsign =>
        rw [hsign] at hkey
        rcases List.mem_append.mp h with h | h
        · exact hkey h
        · exact ih h

theorem traceIssueLessonMedia_prefix {request : SignRequest}
    (h : request ∈ (traceIssueLessonMedia issuer db ctx lessonId).1) :
    (tenantPrefix ctx.tenantId).toList <+: request.key.toList := by
  rw [traceIssueLessonMedia] at h
  split_ifs at h
  · exact traceLessonMedia_prefix h
  · cases h

end Tracing

/-! ### What the loop makes of resources -/

section Loop

variable {issuer : Issuer} {tenantId : Uuid} {resources : List LessonResource}

/-- The row has an object of ours to sign. -/
def LessonResource.signable (resource : LessonResource) : Bool :=
  (resource.storageKey.filter fun key => key ≠ "").isSome

/-- An entry is a resource with a signed URL. -/
structure Signs (issuer : Issuer) (resource : LessonResource) (e : IssuedMedia) : Prop where
  resourceId : e.resourceId = resource.id
  kind : e.kind = resource.kind
  filename : e.filename = resource.filename
  isDownloadable : e.isDownloadable = resource.isDownloadable
  url : ∃ key, resource.storageKey = some key ∧
    e.url = issuer.signer.signGet (issuer.readRequest key)

/-- The loop issues what it can sign, in order, when storage answers for all of it. -/
theorem signLessonMedia_eq (issuer : Issuer)
    (hopen : ∀ resource ∈ resources, ∀ key,
      resource.storageKey.filter (fun key => key ≠ "") = some key →
        openStorage issuer.env tenantId key = .ok ()) :
    ∃ issued, signLessonMedia issuer tenantId resources = .ok issued ∧
      issued.map (·.resourceId) = (resources.filter (·.signable)).map (·.id) ∧
      ∀ e ∈ issued, ∃ resource ∈ resources, Signs issuer resource e := by
  induction resources generalizing issuer with
  | nil => exact ⟨[], rfl, rfl, by simp⟩
  | cons resource resources ih =>
    have hrest := fun r hr => hopen r (List.mem_cons_of_mem _ hr)
    rw [signLessonMedia]
    split
    · next hnone =>
      obtain ⟨issued, hissued, hids, hsigns⟩ := ih issuer hrest
      have hunsignable : resource.signable = false := by
        rw [LessonResource.signable, hnone]
        rfl
      refine ⟨issued, hissued, ?_, fun e he => ?_⟩
      · rw [hids, List.filter_cons_of_neg (by simp [hunsignable])]
      · obtain ⟨r, hr, hsign⟩ := hsigns e he
        exact ⟨r, List.mem_cons_of_mem _ hr, hsign⟩
    · next key hkey =>
      obtain ⟨issued, hissued, hids, hsigns⟩ := ih issuer.next hrest
      have hsignable : resource.signable = true := by
        rw [LessonResource.signable, hkey]
        rfl
      rw [Issuer.sign, signObjectRead, hopen resource (List.mem_cons_self ..) key hkey]
      dsimp only [Except.map]
      rw [hissued]
      refine ⟨_, rfl, ?_, fun e he => ?_⟩
      · rw [List.filter_cons_of_pos hsignable, List.map_cons, List.map_cons, hids]
      · rcases List.mem_cons.mp he with rfl | he
        · exact ⟨resource, List.mem_cons_self .., rfl, rfl, rfl, rfl, key,
            (Option.filter_eq_some_iff.mp hkey).1, rfl⟩
        · obtain ⟨r, hr, hsign⟩ := hsigns e he
          exact ⟨r, List.mem_cons_of_mem _ hr, hsign.resourceId, hsign.kind, hsign.filename,
            hsign.isDownloadable, hsign.url⟩

end Loop

/-! ### Exactness -/

/-- The rows of a lesson that a student is to be offered. -/
def readyRows (h : MediaHistory) (tenantId lessonId : Uuid) : List LessonResourceRow :=
  h.world.db.lessonResources.filter fun r => r.tenantId = tenantId && r.lessonId = lessonId &&
    (r.id ∈ h.lessons.confirmed || r.id ∈ h.lessons.linked)

/-- An entry offers this row: an upload under a signed URL, a link under its own. -/
structure Offers (h : MediaHistory) (issuer : Issuer) (r : LessonResourceRow) (e : IssuedMedia) :
    Prop where
  resourceId : e.resourceId = r.id
  kind : e.kind = r.kind
  filename : e.filename = r.filename
  isDownloadable : e.isDownloadable = r.isDownloadable
  upload : r.id ∈ h.lessons.confirmed → ∃ key, r.storageKey = some key ∧
    e.url = issuer.signer.signGet (issuer.readRequest key)
  link : r.id ∈ h.lessons.linked → r.url = some e.url

/-- Nothing for a viewer who is denied, and one entry for each ready row of the lesson otherwise. -/
structure ExactMedia (h : MediaHistory) (issuer : Issuer) (ctx : AccessContext) (lessonId : Uuid) :
    Prop where
  denied : (decideLessonAccess ⟨ctx.tenantId, issuer.startedAt⟩ h.world.db ctx lessonId).allowed
      = false → traceIssueLessonMedia issuer h.world.db ctx lessonId = ([], .ok none)
  offered : (decideLessonAccess ⟨ctx.tenantId, issuer.startedAt⟩ h.world.db ctx lessonId).allowed
      = true →
    ∃ issued, (traceIssueLessonMedia issuer h.world.db ctx lessonId).2 = .ok (some issued) ∧
      (issued.map (·.resourceId)).Perm ((readyRows h ctx.tenantId lessonId).map (·.id)) ∧
      ∀ e ∈ issued, ∃ r ∈ readyRows h ctx.tenantId lessonId, Offers h issuer r e
  keys : ∀ request ∈ (traceIssueLessonMedia issuer h.world.db ctx lessonId).1,
    (tenantPrefix ctx.tenantId).toList <+: request.key.toList

section Exactness

variable {issuer : Issuer} {parseUrl : String → Option ParsedUrl} {h : MediaHistory}
  {ctx : AccessContext} {lessonId : Uuid}

/-- A row with a size is a confirmed upload, which storage answers for, or a link without a key. -/
theorem Described.lesson_cases (hh : Described issuer.env parseUrl h) {r : LessonResourceRow}
    (hr : r ∈ h.world.db.lessonResources) (hsize : r.byteSize.isSome = true) :
    (r.id ∈ h.lessons.confirmed ∧ r.id ∉ h.lessons.linked ∧ r.url = none ∧
        ∃ key, r.storageKey = some key ∧ key ≠ "" ∧
          openStorage issuer.env r.tenantId key = .ok ()) ∨
      (r.id ∈ h.lessons.linked ∧ r.storageKey = none ∧ ParsedFrom parseUrl r.url) := by
  have hitem : r.item ∈ lessonItems h.world.db := List.mem_map_of_mem hr
  by_cases hlinked : r.id ∈ h.lessons.linked
  · obtain ⟨hkey, hurl, -⟩ := hh.1.linked r.item hitem hlinked
    exact Or.inr ⟨hlinked, hkey, hurl⟩
  · by_cases hconfirmed : r.id ∈ h.lessons.confirmed
    · obtain ⟨-, hurl, hkey⟩ := hh.1.confirmed r.item hitem hconfirmed
      exact Or.inl ⟨hconfirmed, hlinked, hurl, hkey⟩
    · have hnone : r.byteSize = none := (hh.1.reserved r.item hitem hconfirmed hlinked).1
      rw [hnone] at hsize
      cases hsize

/-- What is ready has a size, and nothing else has. -/
theorem Described.readyRows_eq (hh : Described issuer.env parseUrl h) (tenantId lessonId : Uuid) :
    readyRows h tenantId lessonId = h.world.db.lessonResources.filter fun r =>
      r.tenantId = tenantId && r.lessonId = lessonId && r.byteSize.isSome := by
  refine List.filter_congr fun r hr => ?_
  congr 1
  rw [Bool.eq_iff_iff]
  constructor
  · intro hready
    have hitem : r.item ∈ lessonItems h.world.db := List.mem_map_of_mem hr
    simp only [Bool.or_eq_true, decide_eq_true_eq] at hready
    rcases hready with hconfirmed | hlinked
    · exact (hh.1.confirmed r.item hitem hconfirmed).1
    · have hsize : r.byteSize = some 0 := (hh.1.linked r.item hitem hlinked).2.2
      rw [hsize]
      rfl
  · intro hsize
    rcases hh.lesson_cases hr hsize with ⟨hconfirmed, -⟩ | ⟨hlinked, -⟩
    · simp [hconfirmed]
    · simp [hlinked]

/-- What a resource of the lesson reads. -/
theorem mem_listLessonResources (hh : Described issuer.env parseUrl h) {scope : TenantScope}
    {resource : LessonResource}
    (hmem : resource ∈ listLessonResources scope h.world.db lessonId) :
    ∃ r ∈ readyRows h scope.tenantId lessonId, resource.id = r.id ∧ resource.kind = r.kind ∧
      resource.storageKey = r.storageKey ∧ resource.filename = r.filename ∧
      resource.isDownloadable = r.isDownloadable := by
  obtain ⟨r, hr, rfl⟩ := List.mem_map.mp hmem
  rw [Table.mem_orderBy, ← hh.readyRows_eq] at hr
  exact ⟨r, hr, rfl, rfl, rfl, rfl, rfl⟩

theorem mem_readyRows {tenantId : Uuid} {r : LessonResourceRow} :
    r ∈ readyRows h tenantId lessonId ↔ r ∈ h.world.db.lessonResources ∧ r.tenantId = tenantId ∧
      r.lessonId = lessonId ∧ (r.id ∈ h.lessons.confirmed ∨ r.id ∈ h.lessons.linked) := by
  simp [readyRows, and_assoc]

/-- What the loop returns for a viewer who is let in. -/
theorem Described.issued (hh : Described issuer.env parseUrl h)
    (hallowed : (decideLessonAccess ⟨ctx.tenantId, issuer.startedAt⟩ h.world.db ctx
      lessonId).allowed = true) :
    let resources := listLessonResources ⟨ctx.tenantId, issuer.startedAt⟩ h.world.db lessonId
    ∃ issued, (traceIssueLessonMedia issuer h.world.db ctx lessonId).2 = .ok (some issued) ∧
      issued.map (·.resourceId) = (resources.filter (·.signable)).map (·.id) ∧
      ∀ e ∈ issued, ∃ resource ∈ resources, Signs issuer resource e := by
  intro resources
  have hopen : ∀ resource ∈ resources, ∀ key,
      resource.storageKey.filter (fun key => key ≠ "") = some key →
        openStorage issuer.env ctx.tenantId key = .ok () := by
    intro resource hmem key hkey
    obtain ⟨r, hr, -, -, hstored, -, -⟩ := mem_listLessonResources hh hmem
    have hsize : r.byteSize.isSome = true := by
      rw [hh.readyRows_eq] at hr
      exact (Bool.and_eq_true _ _ ▸ (List.mem_filter.mp hr).2).2
    obtain ⟨hrow, htenant, -, -⟩ := mem_readyRows.mp hr
    have hfiltered := (Option.filter_eq_some_iff.mp hkey).1
    rw [hstored] at hfiltered
    rcases hh.lesson_cases hrow hsize with ⟨-, -, -, key', hkey', -, hopen⟩ | ⟨-, hnone, -⟩
    · rw [hkey'] at hfiltered
      obtain rfl := Option.some.inj hfiltered
      rw [← show r.tenantId = ctx.tenantId from htenant]
      exact hopen
    · rw [hnone] at hfiltered
      cases hfiltered
  obtain ⟨issued, hissued, hids, hsigns⟩ := signLessonMedia_eq issuer hopen
  refine ⟨issued, ?_, hids, hsigns⟩
  rw [traceIssueLessonMedia_snd, issueLessonMedia, if_pos hallowed, hissued]
  rfl

/-- Two rows of one id are one row. -/
theorem Described.row_unique (hh : Described issuer.env parseUrl h) {r r' : LessonResourceRow}
    (hr : r ∈ h.world.db.lessonResources) (hr' : r' ∈ h.world.db.lessonResources)
    (hid : r.id = r'.id) : r = r' := by
  have hids : (h.world.db.lessonResources.map (·.id)).Nodup := by
    have := hh.1.ids
    rwa [lessonItems, List.map_map] at this
  exact Table.eq_of_key_eq hids hr hr' hid

/-- What is issued offers rows that are ready. -/
theorem Described.offers (hh : Described issuer.env parseUrl h) {resource : LessonResource}
    {e : IssuedMedia}
    (hmem : resource ∈ listLessonResources ⟨ctx.tenantId, issuer.startedAt⟩ h.world.db lessonId)
    (hsigns : Signs issuer resource e) :
    ∃ r ∈ readyRows h ctx.tenantId lessonId, Offers h issuer r e ∧ r.url = none := by
  obtain ⟨r, hr, hid, hkind, hstored, hfilename, hdownloadable⟩ := mem_listLessonResources hh hmem
  have hr' := hr
  rw [hh.readyRows_eq] at hr'
  have hsize : r.byteSize.isSome = true := (Bool.and_eq_true _ _ ▸ (List.mem_filter.mp hr').2).2
  obtain ⟨key, hkey, hurl⟩ := hsigns.url
  rw [hstored] at hkey
  rcases hh.lesson_cases (List.mem_filter.mp hr').1 hsize with ⟨-, hunlinked, hnone, -⟩ |
    ⟨-, hnone, -⟩
  · refine ⟨r, hr, ⟨hsigns.resourceId.trans hid, hsigns.kind.trans hkind,
      hsigns.filename.trans hfilename, hsigns.isDownloadable.trans hdownloadable,
      fun _ => ⟨key, hkey, hurl⟩, fun hlinked => absurd hlinked hunlinked⟩, hnone⟩
  · rw [hnone] at hkey
    cases hkey

/-- What is signable among the resources of a lesson without links is all of it. -/
theorem Described.filter_signable (hh : Described issuer.env parseUrl h)
    (hlinks : ∀ r ∈ h.world.db.lessonResources, r.tenantId = ctx.tenantId → r.lessonId = lessonId →
      r.url = none) :
    (((listLessonResources ⟨ctx.tenantId, issuer.startedAt⟩ h.world.db lessonId).filter
      (·.signable)).map (·.id)).Perm ((readyRows h ctx.tenantId lessonId).map (·.id)) := by
  have hall : (listLessonResources ⟨ctx.tenantId, issuer.startedAt⟩ h.world.db lessonId).filter
      (·.signable) = listLessonResources ⟨ctx.tenantId, issuer.startedAt⟩ h.world.db lessonId := by
    refine List.filter_eq_self.mpr fun resource hmem => ?_
    obtain ⟨r, hr, -, -, hstored, -, -⟩ := mem_listLessonResources hh hmem
    obtain ⟨hrow, htenant, hlesson, -⟩ := mem_readyRows.mp hr
    rw [hh.readyRows_eq] at hr
    have hsize : r.byteSize.isSome = true := (Bool.and_eq_true _ _ ▸ (List.mem_filter.mp hr).2).2
    rcases hh.lesson_cases hrow hsize with ⟨-, -, -, key, hkey, hne, -⟩ | ⟨-, -, hurl⟩
    · rw [LessonResource.signable, hstored, hkey]
      simp [hne]
    · obtain ⟨_, _, -, hhref⟩ := hurl
      rw [hlinks r hrow htenant hlesson] at hhref
      cases hhref
  rw [hall, hh.readyRows_eq, listLessonResources, List.map_map]
  exact (Table.perm_orderBy _ _).map _

end Exactness

/-- **In every run, a lesson offers exactly what is ready and permitted, to viewers who are denied
and from lessons without a link.** -/
theorem lessonMedia_exact_iff (s : MediaServices) (parseUrl : String → Option ParsedUrl)
    {w : MediaWorld} (hlessons : w.db.lessonResources = []) (hcourses : w.db.courseResources = [])
    (events : List MediaEvent) (startedAt : Instant) (clock : ℕ → Instant) (ctx : AccessContext)
    (lessonId : Uuid) :
    let h := run (recordMedia s parseUrl) (.start w) events
    ExactMedia h (s.issuer startedAt clock) ctx lessonId ↔
      (decideLessonAccess ⟨ctx.tenantId, startedAt⟩ h.world.db ctx lessonId).allowed = false ∨
        ∀ r ∈ h.world.db.lessonResources, r.tenantId = ctx.tenantId → r.lessonId = lessonId →
          r.url = none := by
  intro h
  have hh : Described (s.issuer startedAt clock).env parseUrl h :=
    described_run s parseUrl hlessons hcourses
    events
  constructor
  · intro hexact
    by_contra hcond
    rw [not_or, Bool.not_eq_false] at hcond
    obtain ⟨hallowed, hlink⟩ := hcond
    push Not at hlink
    obtain ⟨r, hr, htenant, hlesson, hurl⟩ := hlink
    -- the link is ready, so one of the entries would have to be its own
    obtain ⟨issued, hissued, hids, -⟩ := hexact.offered hallowed
    obtain ⟨issued', hissued', -, hsigns⟩ := hh.issued hallowed
    rw [hissued] at hissued'
    obtain rfl := Option.some.inj (Except.ok.inj hissued')
    have hitem : r.item ∈ lessonItems h.world.db := List.mem_map_of_mem hr
    have hlinked : r.id ∈ h.lessons.linked := by
      by_contra hunlinked
      by_cases hconfirmed : r.id ∈ h.lessons.confirmed
      · exact hurl (hh.1.confirmed r.item hitem hconfirmed).2.1
      · exact hurl (hh.1.reserved r.item hitem hconfirmed hunlinked).2
    have hready : r.id ∈ (readyRows h ctx.tenantId lessonId).map (·.id) :=
      List.mem_map_of_mem (mem_readyRows.mpr ⟨hr, htenant, hlesson, Or.inr hlinked⟩)
    obtain ⟨e, he, hid⟩ := List.mem_map.mp (hids.mem_iff.mpr hready)
    obtain ⟨resource, hmem, hsign⟩ := hsigns e he
    obtain ⟨r', hr', hoffers, hnone⟩ := hh.offers hmem hsign
    obtain rfl := hh.row_unique hr (mem_readyRows.mp hr').1 (hid.symm.trans hoffers.resourceId)
    exact hurl hnone
  · intro hcond
    refine ⟨fun hdenied => ?_, fun hallowed => ?_, fun request => traceIssueLessonMedia_prefix⟩
    · rw [traceIssueLessonMedia]
      exact if_neg (by simp [hdenied])
    · obtain ⟨issued, hissued, hids, hsigns⟩ := hh.issued hallowed
      have hlinks := hcond.resolve_left fun hdenied =>
        Bool.false_ne_true (hdenied.symm.trans hallowed)
      refine ⟨issued, hissued, hids ▸ hh.filter_signable hlinks, fun e he => ?_⟩
      obtain ⟨resource, hmem, hsign⟩ := hsigns e he
      obtain ⟨r, hr, hoffers, -⟩ := hh.offers hmem hsign
      exact ⟨r, hr, hoffers⟩

/-- A link to a reading, added to the lesson by its teacher. -/
def linkRun : List MediaEvent :=
  [.teach teacher 0 (.addLessonLink 12 "https://grace.edu/reading" "Reading" 21)]

/-- A parser that takes every text for an address at the institute, unless it is empty. -/
def instituteUrl (text : String) : Option ParsedUrl :=
  if text = "" then none else some { href := text, protocol := "https:", hostname := "grace.edu" }

theorem instituteUrl_href (text : String) (parsed : ParsedUrl)
    (h : instituteUrl text = some parsed) : parsed.href ≠ "" := by
  rw [instituteUrl] at h
  split_ifs at h with hempty
  obtain rfl := Option.some.inj h
  exact hempty

/-- A resource of a lesson that is a link. -/
def linkRow : LessonResourceRow where
  id := 21
  tenantId := 1
  lessonId := 12
  kind := .link
  storageKey := none
  url := some "https://grace.edu/reading"
  filename := some "Reading"
  byteSize := some 0
  isDownloadable := true
  sortOrder := 1

theorem run_linkRun : run (recordMedia studio instituteUrl) (.start classroom) linkRun
    = { world := { classroom with db := { classroom.db with lessonResources := [linkRow] } }
        lessons := ⟨[], [21]⟩
        courses := ⟨[], []⟩ } := by
  have hlink : addLessonLinkAction classroom.db teacher 0 instituteUrl 12
      "https://grace.edu/reading" "Reading" 21
      = (.ok .ok, { classroom.db with lessonResources := [linkRow] }) := rfl
  simp only [linkRun, Machine.run_cons, Machine.run_nil, recordMedia, teach, MediaHistory.start,
    confirmedUpload, addedLessonLink, confirmedDocument, addedCourseLink, hlink]
  rfl

/-- Everybody else is denied, and exactly nothing is what they get. -/
theorem lessonMedia_exact_iff_visitor :
    let h := run (recordMedia studio instituteUrl) (.start classroom) linkRun
    ExactMedia h (studio.issuer 0 fun _ => 0) ⟨1, none⟩ 12 ↔
      (decideLessonAccess ⟨1, 0⟩ h.world.db ⟨1, none⟩ 12).allowed = false ∨
        ∀ r ∈ h.world.db.lessonResources, r.tenantId = 1 → r.lessonId = 12 → r.url = none :=
  lessonMedia_exact_iff studio instituteUrl rfl rfl linkRun 0 (fun _ => 0) ⟨1, none⟩ 12

/-- The teacher does not find the link on the page. -/
theorem link_never_offered :
    let h := run (recordMedia studio instituteUrl) (.start classroom) linkRun
    readyRows h 1 12 = [linkRow] ∧
      issueLessonMedia (studio.issuer 0 fun _ => 0) h.world.db ⟨1, some 7⟩ 12 = .ok (some []) ∧
      ¬ ExactMedia h (studio.issuer 0 fun _ => 0) ⟨1, some 7⟩ 12 := by
  rw [run_linkRun]
  refine ⟨rfl, rfl, fun hexact => ?_⟩
  obtain ⟨issued, hissued, hids, -⟩ := hexact.offered rfl
  obtain rfl : [] = issued := Option.some.inj (Except.ok.inj hissued)
  exact absurd hids.length_eq (by decide)

/-! ### The page -/

/-- What the page of a lesson is made of. -/
structure LessonPage where
  lesson : LessonWithCourse
  /-- The recording that is played. -/
  first : Option IssuedMedia
  /-- Everything that is opened rather than played. -/
  documents : List IssuedMedia

/-- The page decides for itself whether to render, in a transaction of its own. -/
def lessonPage (issuer : Issuer) (openedAt : Instant) (db : Database) (ctx : AccessContext)
    (lessonId : Uuid) : Except StorageError (Option LessonPage) :=
  let scope : TenantScope := { tenantId := ctx.tenantId, now := openedAt }
  let lesson :=
    if (decideLessonAccess scope db ctx lessonId).allowed then
      findLessonWithCourse scope db lessonId
    else none
  match lesson with
  | none => .ok none
  | some lesson =>
    (issueLessonMedia issuer db ctx lessonId).map fun media =>
      let media := media.getD []
      some
        { lesson := lesson
          first := (media.filter fun item => item.kind = .audio).head?
          documents := media.filter fun item => item.kind ≠ .audio }

/-- Whatever the page plays or lists was issued. -/
theorem mem_lessonPage {issuer : Issuer} {openedAt : Instant} {db : Database} {ctx : AccessContext}
    {lessonId : Uuid} {page : LessonPage}
    (h : lessonPage issuer openedAt db ctx lessonId = .ok (some page)) :
    ∃ media, issueLessonMedia issuer db ctx lessonId = .ok media ∧
      ∀ item, page.first = some item ∨ item ∈ page.documents → item ∈ media.getD [] := by
  rw [lessonPage] at h
  dsimp only at h
  split at h
  · cases h
  · obtain ⟨media, hmedia, hpage⟩ := Machine.map_eq_ok.mp h
    obtain rfl := Option.some.inj hpage
    refine ⟨media, hmedia, ?_⟩
    rintro item (hfirst | hdocument)
    · exact (List.mem_filter.mp (List.mem_of_head? hfirst)).1
    · exact (List.mem_filter.mp hdocument).1

end LampLight
