import LampLight.Access.Media
import LampLight.Player.Listening
import LampLight.Player.Track

/-!
# The player, as a machine

One media element is mounted in the layout and lives through every navigation. What happens to it
comes from many sides: buttons and keys, events of the element, a timer, the page going away, and
answers of the server, which come when they come. All of these are actions here, and a run is a list
of them.

What the player posts is on its way for some time. It may come late, in another order, or never.

The element is known by what it says. An action that stands for one of its events carries what the
handler reads from it, so nothing is assumed about how it plays.

## Main definitions

* `Player`, `playerStep` — the provider, its handlers and what they request
* `Listener`, `listenerStep` — the player with the posts under way and the rows of the server
* `Timely` — an address is renewed for a track that is still open

## Main results

* `stored_heard` — what is stored was heard in that lesson
-/

namespace LampLight

open Js (Json Number toDouble)
open Machine (run Meets Preserves)

/-! ### The element -/

/-- The media element: the track whose address it was given, and what it says of itself. `heard` is
where it has been in each recording and how long it said they were. Nothing in the program reads
that. -/
structure Audio where
  src : Option Track := none
  currentTime : ℚ := 0
  duration : Number := .nan
  paused : Bool := true
  playbackRate : ℚ := 1
  heard : List (Uuid × ℚ) := []

namespace Audio

/-- What is played up to a position has been heard. -/
def hear (audio : Audio) (seconds : ℚ) : Audio :=
  { audio with heard := audio.heard ++ (audio.src.map fun t => (t.resourceId, seconds)).toList }

/-- Another address makes the element forget all but its default rate. -/
def load (audio : Audio) (track : Option Track) : Audio :=
  { src := track, heard := audio.heard }

/-- `audio.play()`. -/
def play (audio : Audio) : Audio := { audio with paused := false }

/-- `audio.pause()`. -/
def pause (audio : Audio) : Audio := { audio with paused := true }

/-- The element is set to another position. -/
def moveTo (audio : Audio) (seconds : ℚ) : Audio :=
  { audio.hear seconds with currentTime := seconds }

end Audio

/-! ### The provider -/

/-- `position` and `shown` are the ref and the state of that name in the provider; `track` and
`duration` are both, since they are always set together. -/
structure Player where
  audio : Audio := {}
  track : Option Track := none
  playing : Bool := false
  position : ℚ := 0
  shown : ℚ := 0
  duration : Option ℚ := none
  speed : ℚ := 1
  failed : Bool := false

/-- The body of a post, with the lesson in its address. A beacon says the same as a request. -/
structure Report where
  lessonId : Uuid
  positionSeconds : ℤ
  completed : Bool
  useBeacon : Bool
deriving DecidableEq

/-- What the player asks of the server. -/
inductive PlayerRequest
  | report (report : Report)
  | askProgress (lessonId : Uuid)
  | askMedia (lessonId : Uuid)
deriving DecidableEq

namespace Player

/-- Reports where the player is. -/
def sync (p : Player) (useBeacon : Bool) : List PlayerRequest :=
  p.track.toList.map fun current =>
    .report ⟨current.lessonId, ⌊p.position⌋, isComplete p.position (p.duration.map .finite),
      useBeacon⟩

/-- Plays what is paused, and the other way round. -/
def toggle (p : Player) : Player :=
  if p.track.isNone then p
  else if p.audio.paused then { p with audio := p.audio.play }
  else { p with audio := p.audio.pause }

/-- `Math.max(0, Math.min(audio.duration || seconds, seconds))`. -/
def bounded (audio : Audio) (seconds : ℚ) : ℚ :=
  match audio.duration with
  | .finite d => max 0 (min (if d = 0 then seconds else d) seconds)
  | .infinite true => 0
  | _ => max 0 seconds

/-- Moves to a position of the recording. -/
def seekTo (p : Player) (seconds : ℚ) : Player :=
  { p with
    audio := p.audio.moveTo (bounded p.audio seconds)
    shown := bounded p.audio seconds
    position := bounded p.audio seconds }

/-- Moves by some seconds. -/
def seekBy (p : Player) (seconds : ℚ) : Player :=
  p.seekTo (toDouble (p.audio.currentTime + seconds))

end Player

/-- What happens to a player. An answer comes with what its request was made for. -/
inductive PlayerAction
  | play (next : Track)
  | toggle
  | seekBy (seconds : ℚ)
  | seekTo (seconds : ℚ)
  | cycleSpeed
  | close
  | keydown (event : KeyPress)
  /-- The server's answer on where to resume, when it has one. -/
  | resumed (lessonId : Uuid) (positionSeconds : Number)
  /-- The server's answer to `refreshUrl`, nothing when that failed. -/
  | refreshed (current : Track) (media : Option (List IssuedMedia))
  /-- The promise of `audio.play()`, in `refreshUrl` and in `play`. -/
  | replayed (ok : Bool)
  | refused
  /-- Time passes, and the element is further on. -/
  | advance (seconds : ℚ)
  | onPlay
  | onPause
  | onTimeUpdate (currentTime : ℚ)
  | onLoadedMetadata (duration : Number)
  | onEnded
  | onError
  | tick
  | visibilitychange (hidden : Bool)
  | pagehide

/-- The handlers, and what they request. -/
def playerStep (p : Player) : PlayerAction → Player × List PlayerRequest
  | .play next =>
    if p.track.map (·.resourceId) = some next.resourceId then
      -- the same recording goes on from where it was
      ({ p with audio := p.audio.play }, [])
    else
      ({ p with
          audio := { p.audio.load (some next) with playbackRate := p.speed, paused := false }
          track := some next
          failed := false
          shown := 0
          duration := none
          position := 0 },
        p.sync false ++ [.askProgress next.lessonId])
  | .toggle => (p.toggle, [])
  | .seekBy seconds => (p.seekBy seconds, [])
  | .seekTo seconds => (p.seekTo seconds, [])
  | .cycleSpeed =>
    ({ p with
        speed := nextSpeed p.speed
        audio := { p.audio with playbackRate := nextSpeed p.speed } }, [])
  | .close =>
    ({ p with audio := p.audio.pause.load none, track := none, playing := false }, p.sync false)
  | .keydown event =>
    if p.track.isNone || !isPlayerShortcut event then (p, [])
    else if event.key = " " ∨ event.key = "k" then (p.toggle, [])
    else if event.key = "ArrowLeft" ∨ event.key = "j" then (p.seekBy (-SKIP_SECONDS), [])
    else if event.key = "ArrowRight" ∨ event.key = "l" then (p.seekBy SKIP_SECONDS, [])
    else (p, [])
  | .resumed lessonId positionSeconds =>
    let resumeAt := shouldResumeFrom positionSeconds (p.duration.map .finite)
    if p.track.map (·.lessonId) = some lessonId ∧ 0 < resumeAt then
      ({ p with audio := p.audio.moveTo resumeAt }, [])
    else (p, [])
  | .refreshed current media =>
    match media.bind fun items => items.find? fun item => item.resourceId = current.resourceId with
    | none => ({ p with failed := true }, [])
    | some item =>
      -- nothing asks here whether the track is still open
      let renewed := { current with url := item.url }
      ({ p with
          track := some renewed
          audio := ((p.audio.load (some renewed)).moveTo p.position).play }, [])
  | .replayed ok => ({ p with failed := !ok }, [])
  | .refused => ({ p with failed := true }, [])
  | .advance seconds => ({ p with audio := p.audio.moveTo seconds }, [])
  | .onPlay => ({ p with playing := true }, [])
  | .onPause => ({ p with playing := false }, p.sync false)
  | .onTimeUpdate currentTime =>
    ({ p with audio := p.audio.moveTo currentTime, position := currentTime, shown := currentTime },
      [])
  | .onLoadedMetadata duration =>
    match duration with
    | .finite d =>
      ({ p with
          audio := { p.audio.hear d with duration := duration, playbackRate := p.speed }
          duration := some d }, [])
    | _ =>
      ({ p with
          audio := { p.audio with duration := duration, playbackRate := p.speed }
          duration := none }, [])
  | .onEnded =>
    let ended := { p with playing := false, position := p.duration.getD p.position }
    (ended, ended.sync false)
  | .onError => (p, p.track.toList.map fun current => .askMedia current.lessonId)
  -- the interval is there while the state says that something plays
  | .tick => (p, if p.playing then p.sync false else [])
  | .visibilitychange hidden => (p, if hidden then p.sync true else [])
  | .pagehide => (p, p.sync true)

/-! ### The posts and the server -/

/-- `JSON.stringify` of what `sync` posts. -/
def Report.body (r : Report) : Json :=
  .obj [("positionSeconds", .num (.finite r.positionSeconds)), ("completed", .bool r.completed)]

/-- A post when it reaches the server. -/
def Report.post (reader : AccessContext) (r : Report) (now : Instant) : ProgressPost where
  tenantId := some reader.tenantId
  userId := reader.userId
  lessonId := r.lessonId
  body := some r.body
  now := now

/-- The posts among the requests. -/
def reportsIn (requests : List PlayerRequest) : List Report :=
  requests.filterMap fun request =>
    match request with
    | .report r => some r
    | _ => none

/-- A player, all that it requested so far, its posts that are under way, and the rows. -/
structure Listener where
  player : Player := {}
  sent : List PlayerRequest := []
  underWay : List Report := []
  db : Database

/-- A row of progress is the reader's. -/
def AccessContext.holds (reader : AccessContext) (row : ProgressRow) : Bool :=
  row.tenantId = reader.tenantId && some row.userId = reader.userId

/-- What happens to a listener: something in the player, or a report that arrives or is lost. -/
inductive ListenerAction
  | here (action : PlayerAction)
  | arrive (i : ℕ) (now : Instant)
  | lose (i : ℕ)
  /-- Others change the rows, but not what the reader's own rows of progress say. -/
  | elsewhere (db : Database)

/-- The listener afterwards, and what the server has stored. -/
def listenerStep (reader : AccessContext) (w : Listener) : ListenerAction → Listener
  | .here action =>
    let (player, requests) := playerStep w.player action
    { w with
      player := player
      sent := w.sent ++ requests
      underWay := w.underWay ++ reportsIn requests }
  | .arrive i now =>
    match w.underWay[i]? with
    | none => w
    | some r =>
      { w with
        underWay := w.underWay.eraseIdx i
        db := (progressPOST w.db (r.post reader now)).2 }
  | .lose i => { w with underWay := w.underWay.eraseIdx i }
  | .elsewhere db =>
    { w with
      db := { db with
        progress := (db.progress.filter fun row => !reader.holds row) ++
          w.db.progress.filter fun row => reader.holds row } }

/-- An address is renewed for a track that is still open. -/
def Timely (w : Listener) : ListenerAction → Prop
  | .here (.refreshed current _) =>
    w.player.track.map (fun t => (t.lessonId, t.resourceId))
      = some (current.lessonId, current.resourceId)
  | _ => True

/-- So many whole seconds into a lesson: at the start, or where the element said something of a
recording of that lesson, one that was handed to the player. -/
def Listened (actions : List ListenerAction) (audio : Audio) (lessonId : Uuid) (n : ℤ) : Prop :=
  ∃ t q, .here (.play t) ∈ actions ∧ t.lessonId = lessonId ∧
    (q = 0 ∨ (t.resourceId, q) ∈ audio.heard) ∧ n = ⌊q⌋

/-! ### What an action does -/

section Steps

variable {p : Player} {audio : Audio} {actions : List ListenerAction}

theorem Audio.heard_subset_hear (seconds : ℚ) : audio.heard ⊆ (audio.hear seconds).heard :=
  List.subset_append_left _ _

theorem Audio.mem_heard_hear {s : Track} (hs : audio.src = some s) (seconds : ℚ) :
    (s.resourceId, seconds) ∈ (audio.hear seconds).heard := by
  simp [hear, hs]

theorem Player.toggle_eq (p : Player) :
    p.toggle = p ∨ ∃ paused, p.toggle = { p with audio := { p.audio with paused := paused } } := by
  rw [toggle]
  split_ifs
  · exact Or.inl rfl
  · exact Or.inr ⟨false, rfl⟩
  · exact Or.inr ⟨true, rfl⟩

/-- Only two things report: `sync` as it stands, and `sync` at the end of the recording. -/
theorem report_playerStep {action : PlayerAction} {r : Report}
    (h : .report r ∈ (playerStep p action).2) :
    ∃ t, p.track = some t ∧ r.lessonId = t.lessonId ∧
      (r.positionSeconds = ⌊p.position⌋ ∨ ∃ d, p.duration = some d ∧ r.positionSeconds = ⌊d⌋) := by
  have hsync : ∀ {q : Player} {useBeacon}, .report r ∈ q.sync useBeacon →
      ∃ t, q.track = some t ∧ r.lessonId = t.lessonId ∧ r.positionSeconds = ⌊q.position⌋ := by
    intro q useBeacon hr
    obtain ⟨t, ht, heq⟩ := List.mem_map.mp hr
    obtain rfl := PlayerRequest.report.inj heq
    exact ⟨t, Option.mem_toList.mp ht, rfl, rfl⟩
  have hplain : ∀ {useBeacon}, .report r ∈ p.sync useBeacon →
      ∃ t, p.track = some t ∧ r.lessonId = t.lessonId ∧
        (r.positionSeconds = ⌊p.position⌋ ∨
          ∃ d, p.duration = some d ∧ r.positionSeconds = ⌊d⌋) := by
    intro useBeacon hr
    obtain ⟨t, ht, hlesson, hposition⟩ := hsync hr
    exact ⟨t, ht, hlesson, Or.inl hposition⟩
  cases action with
  | play next =>
    simp only [playerStep] at h
    split_ifs at h
    · cases h
    · exact hplain (by simpa using h)
  | close => exact hplain h
  | onPause => exact hplain h
  | pagehide => exact hplain h
  | tick =>
    simp only [playerStep] at h
    split_ifs at h
    · exact hplain h
    · cases h
  | visibilitychange hidden =>
    simp only [playerStep] at h
    split_ifs at h
    · exact hplain h
    · cases h
  | onEnded =>
    obtain ⟨t, ht, hlesson, hposition⟩ := hsync h
    refine ⟨t, ht, hlesson, ?_⟩
    cases hd : p.duration with
    | none => exact Or.inl (by simpa [hd] using hposition)
    | some d => exact Or.inr ⟨d, rfl, by simpa [hd] using hposition⟩
  | onError => simp [playerStep] at h
  | keydown event =>
    simp only [playerStep] at h
    split_ifs at h <;> cases h
  | resumed lessonId positionSeconds =>
    simp only [playerStep] at h
    split_ifs at h <;> cases h
  | refreshed current media =>
    simp only [playerStep] at h
    split at h <;> cases h
  | onLoadedMetadata duration =>
    simp only [playerStep] at h
    split at h <;> cases h
  | _ => cases h

/-- What the provider knows of the open track is about that track. -/
structure Player.Follows (actions : List ListenerAction) (p : Player) : Prop where
  opened : ∀ t, p.track = some t → ∃ t₀, .here (.play t₀) ∈ actions ∧
    t₀.lessonId = t.lessonId ∧ t₀.resourceId = t.resourceId
  source : ∀ t, p.track = some t → ∃ s, p.audio.src = some s ∧ s.resourceId = t.resourceId
  position : ∀ t, p.track = some t → p.position = 0 ∨ (t.resourceId, p.position) ∈ p.audio.heard
  duration : ∀ t d, p.track = some t → p.duration = some d → (t.resourceId, d) ∈ p.audio.heard

/-- While the track and the source stay, a new position and a new duration have to be heard. -/
theorem Player.Follows.keep {p' : Player} (h : p.Follows actions) (htrack : p'.track = p.track)
    (hsrc : p'.audio.src = p.audio.src) (hheard : p.audio.heard ⊆ p'.audio.heard)
    (hposition : p'.position = p.position ∨
      ∀ s, p.audio.src = some s → (s.resourceId, p'.position) ∈ p'.audio.heard)
    (hduration : p'.duration = p.duration ∨
      ∀ d, p'.duration = some d → ∀ s, p.audio.src = some s →
        (s.resourceId, d) ∈ p'.audio.heard) : p'.Follows actions where
  opened t ht := h.opened t (htrack ▸ ht)
  source t ht := by
    rw [hsrc]
    exact h.source t (htrack ▸ ht)
  position t ht := by
    rw [htrack] at ht
    rcases hposition with hsame | hnew
    · rw [hsame]
      exact (h.position t ht).imp_right fun hmem => hheard hmem
    · obtain ⟨s, hs, hid⟩ := h.source t ht
      exact Or.inr (hid ▸ hnew s hs)
  duration t d ht hd := by
    rw [htrack] at ht
    rcases hduration with hsame | hnew
    · exact hheard (h.duration t d ht (hsame ▸ hd))
    · obtain ⟨s, hs, hid⟩ := h.source t ht
      exact hid ▸ hnew d hd s hs

theorem Player.Follows.toggle (h : p.Follows actions) : p.toggle.Follows actions := by
  rcases p.toggle_eq with hsame | ⟨paused, heq⟩
  · rw [hsame]
    exact h
  · rw [heq]
    exact h.keep rfl rfl (List.Subset.refl _) (Or.inl rfl) (Or.inl rfl)

theorem Player.Follows.moveTo (h : p.Follows actions) (seconds : ℚ) :
    ({ p with audio := p.audio.moveTo seconds } : Player).Follows actions :=
  h.keep rfl rfl (Audio.heard_subset_hear seconds) (Or.inl rfl) (Or.inl rfl)

theorem Player.Follows.seekTo (h : p.Follows actions) (seconds : ℚ) :
    (p.seekTo seconds).Follows actions :=
  h.keep rfl rfl (Audio.heard_subset_hear _) (Or.inr fun _ hs => Audio.mem_heard_hear hs _)
    (Or.inl rfl)

/-- Every action keeps to the open track, as long as no address comes late. -/
theorem Player.Follows.step (h : p.Follows actions) {action : PlayerAction}
    (hmem : .here action ∈ actions)
    (htimely : ∀ current media, action = .refreshed current media →
      p.track.map (fun t => (t.lessonId, t.resourceId))
        = some (current.lessonId, current.resourceId)) :
    (playerStep p action).1.Follows actions := by
  have hsame : ∀ {p' : Player}, p'.track = p.track → p'.audio.src = p.audio.src →
      p'.audio.heard = p.audio.heard → p'.position = p.position → p'.duration = p.duration →
      p'.Follows actions := fun htrack hsrc hheard hposition hduration =>
    h.keep htrack hsrc (fun _ hx => hheard ▸ hx) (Or.inl hposition) (Or.inl hduration)
  cases action with
  | play next =>
    simp only [playerStep]
    split_ifs
    · exact hsame rfl rfl rfl rfl rfl
    · refine ⟨fun t ht => ?_, fun t ht => ?_, fun t _ => Or.inl rfl, fun t d _ hd => ?_⟩
      · obtain rfl := Option.some.inj ht
        exact ⟨next, hmem, rfl, rfl⟩
      · obtain rfl := Option.some.inj ht
        exact ⟨next, rfl, rfl⟩
      · cases hd
  | toggle => exact h.toggle
  | seekBy seconds => exact h.seekTo _
  | seekTo seconds => exact h.seekTo _
  | close =>
    refine ⟨fun t ht => ?_, fun t ht => ?_, fun t ht => ?_, fun t d ht => ?_⟩ <;> cases ht
  | keydown event =>
    simp only [playerStep]
    split_ifs
    · exact h
    · exact h.toggle
    · exact h.seekTo _
    · exact h.seekTo _
    · exact h
  | resumed lessonId positionSeconds =>
    simp only [playerStep]
    split_ifs
    · exact h.moveTo _
    · exact h
  | refreshed current media =>
    simp only [playerStep]
    split
    · exact hsame rfl rfl rfl rfl rfl
    · next item _ =>
      -- the track that is renewed is the one that is open
      obtain ⟨t, ht, hids⟩ := Option.map_eq_some_iff.mp (htimely current media rfl)
      obtain ⟨hlesson, hresource⟩ := Prod.mk.inj hids
      have hheard : p.audio.heard ⊆ (((p.audio.load (some { current with url := item.url })).moveTo
          p.position).play).heard := List.subset_append_left _ _
      refine ⟨fun t' ht' => ?_, fun t' ht' => ?_, fun t' ht' => ?_, fun t' d ht' hd => ?_⟩
      · obtain rfl := Option.some.inj ht'
        obtain ⟨t₀, hopened, h₀⟩ := h.opened t ht
        exact ⟨t₀, hopened, h₀.1.trans hlesson, h₀.2.trans hresource⟩
      · obtain rfl := Option.some.inj ht'
        exact ⟨_, rfl, rfl⟩
      · obtain rfl := Option.some.inj ht'
        exact (h.position t ht).imp_right fun hmem => hheard (hresource ▸ hmem)
      · obtain rfl := Option.some.inj ht'
        exact hheard (hresource ▸ h.duration t d ht hd)
  | advance seconds => exact h.moveTo seconds
  | onTimeUpdate currentTime =>
    exact h.keep rfl rfl (Audio.heard_subset_hear _)
      (Or.inr fun _ hs => Audio.mem_heard_hear hs _) (Or.inl rfl)
  | onLoadedMetadata duration =>
    simp only [playerStep]
    split
    · next d =>
      refine h.keep rfl rfl (Audio.heard_subset_hear d) (Or.inl rfl) (Or.inr fun d' hd' s hs => ?_)
      obtain rfl := Option.some.inj hd'
      exact Audio.mem_heard_hear hs _
    · refine h.keep rfl rfl (List.Subset.refl _) (Or.inl rfl) (Or.inr fun d hd => ?_)
      cases hd
  | onEnded =>
    refine ⟨h.opened, h.source, fun t ht => ?_, h.duration⟩
    cases hd : p.duration with
    | none => simpa [playerStep, hd] using h.position t ht
    | some d => exact Or.inr (by simpa [playerStep, hd] using h.duration t d ht hd)
  | _ => exact hsame rfl rfl rfl rfl rfl

theorem Audio.heard_subset_moveTo (seconds : ℚ) : audio.heard ⊆ (audio.moveTo seconds).heard :=
  Audio.heard_subset_hear seconds

theorem Player.heard_subset_toggle : p.audio.heard ⊆ p.toggle.audio.heard := by
  rcases p.toggle_eq with hsame | ⟨paused, heq⟩
  · rw [hsame]
    exact List.Subset.refl _
  · rw [heq]
    exact List.Subset.refl _

/-- What was heard once stays heard. -/
theorem heard_subset_playerStep (p : Player) (action : PlayerAction) :
    p.audio.heard ⊆ (playerStep p action).1.audio.heard := by
  cases action with
  | play next =>
    simp only [playerStep]
    split_ifs <;> exact List.Subset.refl _
  | toggle => exact p.heard_subset_toggle
  | seekBy seconds => exact Audio.heard_subset_moveTo _
  | seekTo seconds => exact Audio.heard_subset_moveTo _
  | keydown event =>
    simp only [playerStep]
    split_ifs
    · exact List.Subset.refl _
    · exact p.heard_subset_toggle
    · exact Audio.heard_subset_moveTo _
    · exact Audio.heard_subset_moveTo _
    · exact List.Subset.refl _
  | resumed lessonId positionSeconds =>
    simp only [playerStep]
    split_ifs
    · exact Audio.heard_subset_moveTo _
    · exact List.Subset.refl _
  | refreshed current media =>
    simp only [playerStep]
    split
    · exact List.Subset.refl _
    · exact List.subset_append_left _ _
  | advance seconds => exact Audio.heard_subset_moveTo _
  | onTimeUpdate currentTime => exact Audio.heard_subset_moveTo _
  | onLoadedMetadata duration =>
    simp only [playerStep]
    split
    · exact Audio.heard_subset_hear _
    · exact List.Subset.refl _
  | _ => exact List.Subset.refl _

end Steps

/-! ### What the server makes of a post -/

section Posts

variable {db db' : Database} {reader : AccessContext}

theorem Report.position?_post (r : Report) (now : Instant) :
    (r.post reader now).position? = some (max 0 (min MAX_POSITION_SECONDS r.positionSeconds)) := by
  show some (max 0 (min MAX_POSITION_SECONDS ⌊(r.positionSeconds : ℚ)⌋)) = _
  rw [Int.floor_intCast]

/-- A post changes nothing, or it records. -/
theorem progressPOST_cases (db : Database) (post : ProgressPost) :
    ((progressPOST db post).2 = db ∧ (progressPOST db post).1 ≠ .ok true) ∨
      ∃ tenantId userId position, post.tenantId = some tenantId ∧ post.userId = some userId ∧
        post.position? = some position ∧
        recordProgress ⟨tenantId, post.now⟩ db ⟨userId, post.lessonId, position, post.completed⟩
          post.now = .ok (progressPOST db post).2 := by
  rw [progressPOST]
  split
  · exact Or.inl ⟨rfl, by simp⟩
  · next tenantId htenant =>
    split
    · exact Or.inl ⟨rfl, by simp⟩
    · next position hposition =>
      split_ifs
      · split
        · exact Or.inl ⟨rfl, by simp⟩
        · next userId huser =>
          split
          · exact Or.inl ⟨rfl, by simp⟩
          · next hrecord =>
            exact Or.inr ⟨tenantId, userId, position, htenant, huser, hposition, hrecord⟩
      · exact Or.inl ⟨rfl, by simp⟩

theorem mem_progress_of_recordProgress {scope : TenantScope} {params : ProgressParams}
    {now : Instant} (h : recordProgress scope db params now = .ok db') {row : ProgressRow}
    (hrow : row ∈ db'.progress) : row ∈ db.progress ∨
      row.lessonId = params.lessonId ∧ row.positionSeconds = params.positionSeconds := by
  simp only [recordProgress] at h
  by_cases hrange : params.positionSeconds < -(2 ^ 31) ∨ 2 ^ 31 ≤ params.positionSeconds
  · rw [if_pos hrange] at h
    cases h
  rw [if_neg hrange] at h
  split at h
  · obtain rfl := Except.ok.inj h
    rcases Table.mem_update.mp hrow with ⟨hold, -⟩ | ⟨old, -, hkey, rfl⟩
    · exact Or.inl hold
    · refine Or.inr ⟨?_, rfl⟩
      simp only [Bool.and_eq_true, decide_eq_true_eq] at hkey
      exact hkey.2
  · obtain ⟨-, rfl⟩ := Database.checked_ok.mp h
    rcases List.mem_append.mp hrow with hold | hnew
    · exact Or.inl hold
    · obtain rfl := List.mem_singleton.mp hnew
      exact Or.inr ⟨rfl, rfl⟩

end Posts

/-! ### Any run -/

section Runs

variable {reader : AccessContext} {actions : List ListenerAction} {db : Database} {w : Listener}

theorem Listened.mono {audio audio' : Audio} (hheard : audio.heard ⊆ audio'.heard) {lessonId : Uuid}
    {n : ℤ} (h : Listened actions audio lessonId n) : Listened actions audio' lessonId n := by
  obtain ⟨t, q, ht, hlesson, hq, hn⟩ := h
  exact ⟨t, q, ht, hlesson, hq.imp_right fun hmem => hheard hmem, hn⟩

theorem mem_reportsIn {requests : List PlayerRequest} {r : Report} :
    r ∈ reportsIn requests ↔ .report r ∈ requests := by
  rw [reportsIn, List.mem_filterMap]
  constructor
  · rintro ⟨request, hmem, h⟩
    cases request with
    | report r' =>
      obtain rfl := Option.some.inj h
      exact hmem
    | askProgress lessonId => cases h
    | askMedia lessonId => cases h
  · exact fun hmem => ⟨.report r, hmem, rfl⟩

/-- Everything that was reported was listened to, and so was what the reader's rows say. -/
structure Listener.Sound (reader : AccessContext) (actions : List ListenerAction) (db : Database)
    (w : Listener) : Prop where
  follows : w.player.Follows actions
  sent : ∀ r, .report r ∈ w.sent →
    Listened actions w.player.audio r.lessonId r.positionSeconds
  underWay : ∀ r ∈ w.underWay, .report r ∈ w.sent
  rows : ∀ row ∈ w.db.progress, reader.holds row = true → row ∈ db.progress ∨
    ∃ n, Listened actions w.player.audio row.lessonId n ∧
      row.positionSeconds = max 0 (min MAX_POSITION_SECONDS n)

theorem sound_opened (reader : AccessContext) (actions : List ListenerAction) (db : Database) :
    Listener.Sound reader actions db { db := db } where
  follows := by
    refine ⟨fun t ht => ?_, fun t ht => ?_, fun t ht => ?_, fun t d ht => ?_⟩ <;> cases ht
  sent r hr := by cases hr
  underWay r hr := by cases hr
  rows row hrow _ := Or.inl hrow

/-- What is reported of a player that follows its track was listened to. -/
theorem Player.Follows.listened {p : Player} (h : p.Follows actions) {action : PlayerAction}
    {r : Report} (hr : .report r ∈ (playerStep p action).2) :
    Listened actions p.audio r.lessonId r.positionSeconds := by
  obtain ⟨t, ht, hlesson, hposition⟩ := report_playerStep hr
  obtain ⟨t₀, hopened, hids⟩ := h.opened t ht
  rcases hposition with hposition | ⟨d, hd, hposition⟩
  · exact ⟨t₀, p.position, hopened, hids.1.trans hlesson.symm, hids.2 ▸ h.position t ht, hposition⟩
  · exact ⟨t₀, d, hopened, hids.1.trans hlesson.symm, Or.inr (hids.2 ▸ h.duration t d ht hd),
      hposition⟩

theorem sound_step (h : w.Sound reader actions db) {action : ListenerAction}
    (htimely : Timely w action) (hmem : action ∈ actions) :
    (listenerStep reader w action).Sound reader actions db := by
  cases action with
  | here action =>
    have hheard := heard_subset_playerStep w.player action
    have hfollows : (playerStep w.player action).1.Follows actions := by
      refine h.follows.step hmem fun current media heq => ?_
      subst heq
      exact htimely
    refine ⟨hfollows, fun r hr => ?_, fun r hr => ?_, fun row hrow hholds => ?_⟩
    · rcases List.mem_append.mp hr with hold | hnew
      · exact (h.sent r hold).mono hheard
      · exact (h.follows.listened hnew).mono hheard
    · rcases List.mem_append.mp hr with hold | hnew
      · exact List.mem_append_left _ (h.underWay r hold)
      · exact List.mem_append_right _ (mem_reportsIn.mp hnew)
    · refine (h.rows row hrow hholds).imp_right ?_
      rintro ⟨n, hn, hrow⟩
      exact ⟨n, hn.mono hheard, hrow⟩
  | arrive i now =>
    simp only [listenerStep]
    split
    · exact h
    · next r hget =>
      have hr : r ∈ w.underWay := List.mem_of_getElem? hget
      refine ⟨h.follows, h.sent, fun r' hr' => h.underWay r' (List.mem_of_mem_eraseIdx hr'),
        fun row hrow hholds => ?_⟩
      rcases progressPOST_cases w.db (r.post reader now) with
        ⟨hsame, -⟩ | ⟨tenantId, userId, position, -, -, hposition, hrecord⟩
      · exact h.rows row (hsame ▸ hrow) hholds
      · rcases mem_progress_of_recordProgress hrecord hrow with hold | ⟨hlesson, hseconds⟩
        · exact h.rows row hold hholds
        · have hclamped := Option.some.inj ((r.position?_post now).symm.trans hposition)
          refine Or.inr ⟨r.positionSeconds, ?_, hseconds.trans hclamped.symm⟩
          rw [hlesson]
          exact h.sent r (h.underWay r hr)
  | lose i =>
    exact ⟨h.follows, h.sent, fun r hr => h.underWay r (List.mem_of_mem_eraseIdx hr), h.rows⟩
  | elsewhere db' =>
    refine ⟨h.follows, h.sent, h.underWay, fun row hrow hholds => ?_⟩
    rcases List.mem_append.mp hrow with hother | hown
    · rw [List.mem_filter, hholds] at hother
      cases hother.2
    · exact h.rows row (List.mem_of_mem_filter hown) hholds

theorem sound_run (htimely : Meets (listenerStep reader) Timely { db := db } actions) :
    (run (listenerStep reader) { db := db } actions).Sound reader actions db := by
  have hpres : Preserves (listenerStep reader) (fun w a => Timely w a ∧ a ∈ actions)
      (Listener.Sound reader actions db) := fun _ _ hok h => sound_step h hok.1 hok.2
  refine hpres.run (sound_opened reader actions db) (htimely.and ?_)
  exact Machine.meets_of_forall_mem _ _ fun a ha => ha

/-- The player has one of the speeds of the list. -/
theorem speed_run (reader : AccessContext) (db : Database) (actions : List ListenerAction) :
    (run (listenerStep reader) { db := db } actions).player.speed ∈ SPEEDS := by
  refine Machine.run_invariant (I := fun w : Listener => w.player.speed ∈ SPEEDS)
    (fun w action hw => ?_) (List.mem_cons_of_mem _ (List.mem_cons_self ..)) actions
  cases action with
  | here action =>
    cases action with
    | cycleSpeed => exact nextSpeed_mem _
    | toggle =>
      rcases w.player.toggle_eq with hsame | ⟨paused, heq⟩
      · simpa only [listenerStep, playerStep, hsame] using hw
      · simpa only [listenerStep, playerStep, heq] using hw
    | play next =>
      simp only [listenerStep, playerStep]
      split_ifs <;> exact hw
    | keydown event =>
      simp only [listenerStep, playerStep]
      split_ifs
      · exact hw
      · rcases w.player.toggle_eq with hsame | ⟨paused, heq⟩
        · simpa only [hsame] using hw
        · simpa only [heq] using hw
      all_goals exact hw
    | resumed lessonId positionSeconds =>
      simp only [listenerStep, playerStep]
      split_ifs <;> exact hw
    | refreshed current media =>
      simp only [listenerStep, playerStep]
      split <;> exact hw
    | onLoadedMetadata duration =>
      simp only [listenerStep, playerStep]
      split <;> exact hw
    | _ => exact hw
  | arrive i now =>
    simp only [listenerStep]
    split <;> exact hw
  | lose i => exact hw
  | elsewhere db' => exact hw

/-- With no track open, only `play` makes the player report again. -/
theorem closed_step (hclosed : w.player.track = none) {action : ListenerAction}
    (htimely : Timely w action) (hplay : ∀ t, action ≠ .here (.play t)) :
    (listenerStep reader w action).player.track = none ∧
      reportsIn (listenerStep reader w action).sent = reportsIn w.sent := by
  have hquiet : ∀ {requests : List PlayerRequest}, (∀ r, .report r ∉ requests) →
      reportsIn requests = [] := by
    intro requests hnone
    refine List.eq_nil_iff_forall_not_mem.mpr fun r hr => ?_
    exact hnone r (mem_reportsIn.mp hr)
  cases action with
  | here action =>
    refine ⟨?_, ?_⟩
    · cases action with
      | play next => exact absurd rfl (hplay next)
      | refreshed current media =>
        rw [Timely, hclosed] at htimely
        cases htimely
      | toggle => simp [listenerStep, playerStep, Player.toggle, hclosed]
      | keydown event => simp [listenerStep, playerStep, hclosed]
      | resumed lessonId positionSeconds => simp [listenerStep, playerStep, hclosed]
      | close => rfl
      | onLoadedMetadata duration =>
        simp only [listenerStep, playerStep]
        split <;> exact hclosed
      | _ => exact hclosed
    · have hnone : reportsIn (playerStep w.player action).2 = [] := by
        refine hquiet fun r hr => ?_
        obtain ⟨t, ht, -⟩ := report_playerStep hr
        rw [hclosed] at ht
        cases ht
      show reportsIn (w.sent ++ (playerStep w.player action).2) = _
      rw [reportsIn, List.filterMap_append]
      simpa [reportsIn] using hnone
  | arrive i now =>
    simp only [listenerStep]
    split <;> exact ⟨hclosed, rfl⟩
  | lose i => exact ⟨hclosed, rfl⟩
  | elsewhere db' => exact ⟨hclosed, rfl⟩

/-- **What is stored was listened to.** Whatever happens to the player and in whatever order, and
whether its posts come late, out of order or never: every report, and every row of progress that the
reader has since, is about a lesson that was handed to the player, and tells where its recording was
in whole seconds. After the player is closed it reports nothing until it is handed a track again.
-/
theorem stored_heard (reader : AccessContext) (db : Database) (actions : List ListenerAction)
    (htimely : Meets (listenerStep reader) Timely { db := db } actions) :
    let w := run (listenerStep reader) { db := db } actions
    (∀ r, .report r ∈ w.sent → Listened actions w.player.audio r.lessonId r.positionSeconds) ∧
      (∀ row ∈ w.db.progress, reader.holds row = true → row ∈ db.progress ∨
        ∃ n, Listened actions w.player.audio row.lessonId n ∧
          row.positionSeconds = max 0 (min 86400 n)) ∧
      ∀ before after, actions = before ++ .here .close :: after →
        (∀ t, .here (.play t) ∉ after) →
        reportsIn w.sent
          = reportsIn (run (listenerStep reader) { db := db } (before ++ [.here .close])).sent := by
  intro w
  have hsound := sound_run htimely
  refine ⟨hsound.sent, hsound.rows, ?_⟩
  rintro before after rfl hplay
  have hclosed : (run (listenerStep reader) { db := db }
      (before ++ [.here .close])).player.track = none := by
    rw [Machine.run_append]
    rfl
  have hsplit : before ++ .here .close :: after = (before ++ [.here .close]) ++ after := by simp
  have hafter := ((Machine.meets_append _).mp (hsplit ▸ htimely)).2
  have hpres : Preserves (listenerStep reader)
      (fun w a => Timely w a ∧ ∀ t, a ≠ .here (.play t))
      (fun v => v.player.track = none ∧ reportsIn v.sent
        = reportsIn (run (listenerStep reader) { db := db } (before ++ [.here .close])).sent) :=
    fun v a hok hv =>
      let hstep := closed_step hv.1 hok.1 hok.2
      ⟨hstep.1, hstep.2.trans hv.2⟩
  have hnoplay : ∀ a ∈ after, ∀ t, a ≠ .here (.play t) := fun a ha t heq => hplay t (heq ▸ ha)
  show reportsIn (run (listenerStep reader) { db := db } (before ++ .here .close :: after)).sent = _
  rw [hsplit, Machine.run_append]
  exact (hpres.run ⟨hclosed, rfl⟩ (hafter.and (Machine.meets_of_forall_mem _ _ hnoplay))).2

end Runs

/-- A recording. -/
def lecture : Track where
  lessonId := 20
  resourceId := 30
  title := "In the beginning"
  courseTitle := "Genesis"
  href := "/lessons/20"
  kind := .audio
  url := "https://media.example.org/1"
  filename := none
  isDownloadable := false

/-- A lecture that outlives its address, and a browser that is closed in the middle of it. -/
def evening : List ListenerAction :=
  [.here (.play lecture), .here .onPlay, .here (.onTimeUpdate 100), .here .onError,
    .here (.refreshed lecture
      (some [⟨30, .audio, none, false, "https://media.example.org/2", 900⟩])),
    .here .pagehide, .arrive 0 500]

theorem stored_heard_evening :
    let w := run (listenerStep ⟨5, some 2⟩) { db := {} } evening
    Meets (listenerStep ⟨5, some 2⟩) Timely { db := {} } evening ∧
      .report ⟨20, 100, false, true⟩ ∈ w.sent ∧ Listened evening w.player.audio 20 100 := by
  intro w
  have htimely : Meets (listenerStep ⟨5, some 2⟩) Timely { db := {} } evening :=
    ⟨trivial, trivial, trivial, trivial, rfl, trivial, trivial, trivial⟩
  have hsent : .report ⟨20, 100, false, true⟩ ∈ w.sent := by decide
  exact ⟨htimely, hsent, (stored_heard _ _ _ htimely).1 _ hsent⟩

end LampLight
