import LampLight.Entitlements.Grants
import LampLight.Player.Provider

/-!
# Resuming where somebody left

Whatever was playing has its position written before it is replaced, closed or hidden, and the next
time somebody plays the lesson, the server is asked where that was. When the posts arrive in order
and none is refused, the two ends agree.

## Main definitions

* `Served` — the posts arrive in order, and each of them is stored
* `Leaves` — the actions that end the listening to a lesson, or may end it

## Main results

* `resumes` — a lesson is resumed in the second in which it was left
-/

namespace LampLight

open Machine (run Meets Preserves)

/-- The posts arrive in order, and each of them is stored. -/
def Served (reader : AccessContext) (w : Listener) : ListenerAction → Prop
  | .arrive i now => i = 0 ∧
      ∀ r ∈ w.underWay.head?, (progressPOST w.db (r.post reader now)).1 = .ok true
  | .lose _ => False
  | _ => True

/-- What leaves the open track, or is the last that is heard of it. -/
def PlayerAction.Leaves (p : Player) : PlayerAction → Prop
  | .play next => p.track.map (·.resourceId) ≠ some next.resourceId
  | .close => True
  | .onPause => True
  | .pagehide => True
  | .visibilitychange hidden => hidden = true
  | _ => False

/-- Nothing is reported of a lesson. -/
def Quiet (lessonId : Uuid) (w : Listener) : ListenerAction → Prop
  | .here action => ∀ r, .report r ∈ (playerStep w.player action).2 → r.lessonId ≠ lessonId
  | _ => True

/-- What was reported of a lesson last. -/
def lastReport (lessonId : Uuid) (reports : List Report) : Option Report :=
  (reports.filter fun r => r.lessonId = lessonId).getLast?

/-- A report as it is stored. -/
def Report.storedSeconds (r : Report) : ℤ := max 0 (min MAX_POSITION_SECONDS r.positionSeconds)

section Reports

variable {lessonId : Uuid} {reports more : List Report} {r : Report}

theorem lastReport_append_of_quiet (h : ∀ r ∈ more, r.lessonId ≠ lessonId) :
    lastReport lessonId (reports ++ more) = lastReport lessonId reports := by
  have hnone : (more.filter fun r => r.lessonId = lessonId) = [] := by
    simpa [List.filter_eq_nil_iff] using h
  rw [lastReport, List.filter_append, hnone, List.append_nil, lastReport]

theorem lastReport_concat_self (h : r.lessonId = lessonId) :
    lastReport lessonId (reports ++ [r]) = some r := by
  have hkeep : ([r].filter fun r => r.lessonId = lessonId) = [r] := by simp [h]
  rw [lastReport, List.filter_append, hkeep, List.getLast?_concat]

theorem reportsIn_append (sent requests : List PlayerRequest) :
    reportsIn (sent ++ requests) = reportsIn sent ++ reportsIn requests :=
  List.filterMap_append

/-- Whoever leaves a track reports where it is. -/
theorem reportsIn_of_leaves {p : Player} {t : Track} (ht : p.track = some t)
    {action : PlayerAction} (h : action.Leaves p) :
    ∃ r, reportsIn (playerStep p action).2 = [r] ∧ r.lessonId = t.lessonId ∧
      r.positionSeconds = ⌊p.position⌋ := by
  have hsync : ∀ useBeacon, p.sync useBeacon = [.report ⟨t.lessonId, ⌊p.position⌋,
      isComplete p.position (p.duration.map .finite), useBeacon⟩] := by
    intro useBeacon
    rw [Player.sync, ht]
    rfl
  cases action with
  | play next =>
    have hrequests : reportsIn (playerStep p (.play next)).2 = reportsIn (p.sync false) := by
      rw [playerStep, if_neg h, hsync]
      rfl
    exact ⟨_, hrequests.trans (congrArg reportsIn (hsync false)), rfl, rfl⟩
  | close => exact ⟨_, congrArg reportsIn (hsync false), rfl, rfl⟩
  | onPause => exact ⟨_, congrArg reportsIn (hsync false), rfl, rfl⟩
  | pagehide => exact ⟨_, congrArg reportsIn (hsync true), rfl, rfl⟩
  | visibilitychange hidden =>
    obtain rfl : hidden = true := h
    exact ⟨_, congrArg reportsIn (hsync true), rfl, rfl⟩
  | _ => exact h.elim

end Reports

/-! ### The rows follow the reports -/

section Rows

variable {reader : AccessContext} {userId : Uuid} {db : Database} {w : Listener}

/-- The position a lesson has in the rows. -/
def secondsAt (db : Database) (k : ProgressKey) : List ℤ :=
  (rowsAt db k).map (·.positionSeconds)

/-- A row says what arrived last of its lesson, and what has not arrived is what is under way. -/
def PostedAll (reader : AccessContext) (userId : Uuid) (db : Database) (w : Listener) : Prop :=
  ∃ arrived, reportsIn w.sent = arrived ++ w.underWay ∧
    ∀ lessonId, secondsAt w.db ⟨reader.tenantId, userId, lessonId⟩
      = match lastReport lessonId arrived with
        | none => secondsAt db ⟨reader.tenantId, userId, lessonId⟩
        | some r => [r.storedSeconds]

theorem secondsAt_elsewhere (huser : reader.userId = some userId) (db' : Database)
    (lessonId : Uuid) :
    secondsAt (listenerStep reader w (.elsewhere db')).db ⟨reader.tenantId, userId, lessonId⟩
      = secondsAt w.db ⟨reader.tenantId, userId, lessonId⟩ := by
  have hholds : ∀ row : ProgressRow, row.key = ⟨reader.tenantId, userId, lessonId⟩ →
      reader.holds row = true := by
    intro row hrow
    simp only [ProgressRow.key, ProgressKey.mk.injEq] at hrow
    simp [AccessContext.holds, hrow.1, hrow.2.1, huser]
  have hother : ((db'.progress.filter fun row => !reader.holds row).filter fun row =>
      row.key = ⟨reader.tenantId, userId, lessonId⟩) = [] := by
    rw [List.filter_filter, List.filter_eq_nil_iff]
    intro row _ hrow
    simp only [Bool.and_eq_true, decide_eq_true_eq] at hrow
    rw [hholds row hrow.1] at hrow
    cases hrow.2
  have hown : ((w.db.progress.filter fun row => reader.holds row).filter fun row =>
      row.key = ⟨reader.tenantId, userId, lessonId⟩)
      = w.db.progress.filter fun row => row.key = ⟨reader.tenantId, userId, lessonId⟩ := by
    rw [List.filter_filter]
    refine List.filter_congr fun row _ => ?_
    by_cases hrow : row.key = ⟨reader.tenantId, userId, lessonId⟩
    · simp [hrow, hholds row hrow]
    · simp [hrow]
  simp only [secondsAt, rowsAt, listenerStep, List.filter_append, hother, hown, List.nil_append]

/-- A stored post puts its position into its row and leaves the others. -/
theorem secondsAt_progressPOST {r : Report} {now : Instant} (huser : reader.userId = some userId)
    (hone : ∀ lessonId, (secondsAt w.db ⟨reader.tenantId, userId, lessonId⟩).length ≤ 1)
    (hok : (progressPOST w.db (r.post reader now)).1 = .ok true) (lessonId : Uuid) :
    secondsAt (progressPOST w.db (r.post reader now)).2 ⟨reader.tenantId, userId, lessonId⟩
      = if r.lessonId = lessonId then [r.storedSeconds]
        else secondsAt w.db ⟨reader.tenantId, userId, lessonId⟩ := by
  rcases progressPOST_cases w.db (r.post reader now) with
    ⟨-, hrefused⟩ | ⟨tenantId, userId', position, htenant, huser', hposition, hrecord⟩
  · exact absurd hok hrefused
  obtain rfl := Option.some.inj htenant
  obtain rfl := Option.some.inj (huser.symm.trans huser')
  obtain rfl := Option.some.inj ((r.position?_post now).symm.trans hposition)
  have hrows : (rowsAt w.db ⟨reader.tenantId, userId, r.lessonId⟩).length ≤ 1 := by
    simpa [secondsAt] using hone r.lessonId
  have hput : (progressPOST w.db (r.post reader now)).2
      = w.db.putProgress (upserted ⟨reader.tenantId, now⟩ w.db
          ⟨userId, r.lessonId, r.storedSeconds, (r.post reader now).completed⟩ now) :=
    recordProgress_eq hrows hrecord
  obtain ⟨row, hrow, hkey, hseconds⟩ : ∃ row : ProgressRow,
      (progressPOST w.db (r.post reader now)).2 = w.db.putProgress row ∧
        row.key = ⟨reader.tenantId, userId, r.lessonId⟩ ∧ row.positionSeconds = r.storedSeconds :=
    ⟨_, hput, rfl, rfl⟩
  rw [hrow, secondsAt]
  split_ifs with hlesson
  · rw [← hlesson, ← hkey, rowsAt_putProgress (hkey ▸ hrows), List.map_singleton, hseconds]
  · have hne : row.key ≠ ⟨reader.tenantId, userId, lessonId⟩ := by
      rw [hkey]
      exact fun heq => hlesson (ProgressKey.mk.inj heq).2.2
    rw [rowsAt_putProgress_of_ne hne, secondsAt]

theorem PostedAll.length_le (h : PostedAll reader userId db w)
    (hone : ∀ k, (rowsAt db k).length ≤ 1) (lessonId : Uuid) :
    (secondsAt w.db ⟨reader.tenantId, userId, lessonId⟩).length ≤ 1 := by
  obtain ⟨arrived, -, hrows⟩ := h
  rw [hrows lessonId]
  cases lastReport lessonId arrived with
  | none => simpa [secondsAt] using hone _
  | some r => simp

theorem postedAll_step (huser : reader.userId = some userId)
    (hone : ∀ k, (rowsAt db k).length ≤ 1) (h : PostedAll reader userId db w)
    {action : ListenerAction} (hserved : Served reader w action) :
    PostedAll reader userId db (listenerStep reader w action) := by
  have hrowsone := h.length_le hone
  obtain ⟨arrived, hsent, hrows⟩ := h
  cases action with
  | here action =>
    refine ⟨arrived, ?_, hrows⟩
    show reportsIn (w.sent ++ _) = arrived ++ (w.underWay ++ _)
    rw [reportsIn_append, hsent, List.append_assoc]
  | lose i => exact hserved.elim
  | elsewhere db' =>
    refine ⟨arrived, hsent, fun lessonId => ?_⟩
    rw [secondsAt_elsewhere huser, hrows]
  | arrive i now =>
    obtain ⟨rfl, hok⟩ := hserved
    cases hway : w.underWay with
    | nil =>
      simp only [listenerStep, hway, List.getElem?_nil]
      exact ⟨arrived, hsent, hrows⟩
    | cons r rest =>
      have hstep : listenerStep reader w (.arrive 0 now)
          = { w with underWay := rest, db := (progressPOST w.db (r.post reader now)).2 } := by
        simp [listenerStep, hway]
      rw [hstep]
      refine ⟨arrived ++ [r], by simpa [hway] using hsent, fun lessonId => ?_⟩
      have hstored : (progressPOST w.db (r.post reader now)).1 = .ok true :=
        hok r (by simp [hway])
      show secondsAt (progressPOST w.db (r.post reader now)).2 _ = _
      rw [secondsAt_progressPOST huser hrowsone hstored]
      split_ifs with hlesson
      · rw [lastReport_concat_self hlesson]
      · rw [lastReport_append_of_quiet (by simpa using hlesson), hrows]

theorem postedAll_run (huser : reader.userId = some userId) (hone : ∀ k, (rowsAt db k).length ≤ 1)
    {actions : List ListenerAction}
    (hserved : Meets (listenerStep reader) (Served reader) { db := db } actions) :
    PostedAll reader userId db (run (listenerStep reader) { db := db } actions) := by
  have hpres : Preserves (listenerStep reader) (Served reader) (PostedAll reader userId db) :=
    fun _ _ hok h => postedAll_step huser hone h hok
  exact hpres.run ⟨[], rfl, fun _ => rfl⟩ hserved

/-- While nothing is reported of a lesson, what was reported last stays. -/
theorem lastReport_run {lessonId : Uuid} {actions : List ListenerAction}
    (hquiet : Meets (listenerStep reader) (Quiet lessonId) w actions) :
    lastReport lessonId (reportsIn (run (listenerStep reader) w actions).sent)
      = lastReport lessonId (reportsIn w.sent) := by
  have hpres : Preserves (listenerStep reader) (Quiet lessonId) (fun v =>
      lastReport lessonId (reportsIn v.sent) = lastReport lessonId (reportsIn w.sent)) := by
    intro v action hok hv
    cases action with
    | here action =>
      show lastReport lessonId (reportsIn (v.sent ++ _)) = _
      rw [reportsIn_append, lastReport_append_of_quiet, hv]
      exact fun r hr => hok r (mem_reportsIn.mp hr)
    | arrive i now =>
      simp only [listenerStep]
      split <;> exact hv
    | lose i => exact hv
    | elsewhere db' => exact hv
  exact hpres.run rfl hquiet

theorem progressGET_secondsAt {decided read : Database} {tenantId lessonId : Uuid} {now : Instant}
    {report : ProgressReport}
    (h : progressGET decided read (some tenantId) (some userId) lessonId now = some report) :
    report.positionSeconds = (secondsAt read ⟨tenantId, userId, lessonId⟩).head?.getD 0 := by
  simp only [progressGET, findProgress_eq] at h
  split_ifs at h
  obtain rfl := Option.some.inj h
  simp only [secondsAt, Option.map_map, List.head?_map]
  rfl

end Rows

/-! ### Leaving and resuming -/

/-- Where the answer takes the element. -/
theorem playerStep_resumed {q : Player} {s : Track} (hs : q.track = some s) (n : ℤ) :
    (playerStep q (.resumed s.lessonId (.finite n))).1
      = if WorthResuming n q.duration then { q with audio := q.audio.moveTo n } else q := by
  simp only [playerStep, hs, Option.map_some, true_and, shouldResumeFrom_intCast]
  by_cases hworth : WorthResuming n q.duration
  · have hpos : 0 < n := by linarith [hworth.1]
    simp only [if_pos hworth, if_pos hpos]
  · simp only [if_neg hworth, if_neg (lt_irrefl _)]

/-- **A lesson is resumed where it was left.** A track is left at some position, by closing the
player, by playing another, by pausing or by going away. While nothing more is reported of its
lesson, and once the posts have arrived, in order and each of them stored: the server tells the
whole seconds of that position, and a player that has the lesson open by then goes there, unless
that is near the start or the end. -/
theorem resumes {reader : AccessContext} {userId : Uuid} (huser : reader.userId = some userId)
    {db : Database} (hone : ∀ k, (rowsAt db k).length ≤ 1) {before after : List ListenerAction}
    {action : PlayerAction} {t : Track}
    (htrack : (run (listenerStep reader) { db := db } before).player.track = some t)
    (hleaves : action.Leaves (run (listenerStep reader) { db := db } before).player)
    (hquiet : Meets (listenerStep reader) (Quiet t.lessonId)
      (run (listenerStep reader) { db := db } (before ++ [.here action])) after)
    (hserved : Meets (listenerStep reader) (Served reader) { db := db }
      (before ++ .here action :: after))
    (harrived : (run (listenerStep reader) { db := db }
      (before ++ .here action :: after)).underWay = [])
    {decided : Database} {now : Instant} {report : ProgressReport}
    (hget : progressGET decided
      (run (listenerStep reader) { db := db } (before ++ .here action :: after)).db
      (some reader.tenantId) (some userId) t.lessonId now = some report) :
    let left := (run (listenerStep reader) { db := db } before).player.position
    report.positionSeconds = max 0 (min 86400 ⌊left⌋) ∧
      ∀ (q : Player) (s : Track), q.track = some s → s.lessonId = t.lessonId →
        (playerStep q (.resumed t.lessonId (.finite report.positionSeconds))).1
          = if WorthResuming report.positionSeconds q.duration then
              { q with audio := q.audio.moveTo report.positionSeconds }
            else q := by
  intro left
  refine ⟨?_, ?_⟩
  · -- the report of leaving is the last one, and the last one to arrive
    obtain ⟨r, hr, hlesson, hposition⟩ := reportsIn_of_leaves htrack hleaves
    obtain ⟨arrived, hsent, hrows⟩ := postedAll_run huser hone hserved
    rw [harrived, List.append_nil] at hsent
    have hsplit : before ++ .here action :: after = (before ++ [.here action]) ++ after := by simp
    have hlast : lastReport t.lessonId arrived = some r := by
      rw [← hsent, hsplit, Machine.run_append, lastReport_run hquiet, Machine.run_append]
      show lastReport t.lessonId (reportsIn (_ ++ (playerStep _ action).2)) = some r
      rw [reportsIn_append, hr, lastReport_concat_self hlesson]
    have hstored := hrows t.lessonId
    rw [hlast] at hstored
    rw [progressGET_secondsAt hget, hstored, ← hposition]
    rfl
  · intro q s hs hlesson
    rw [← hlesson]
    exact playerStep_resumed hs report.positionSeconds

/-- An institute with one lecture that anybody may hear. -/
def oneLecture : Database :=
  { smallInstitute with
    modules := [⟨8, 5, 7, "One", 0⟩]
    lessons := [⟨20, 5, 8, "In the beginning", "in-the-beginning", none, none, true, 0⟩] }

/-- A student stops after a hundred seconds and a half. -/
theorem resumes_lecture :
    let before : List ListenerAction := [.here (.play lecture), .here (.onTimeUpdate (201 / 2))]
    let w := run (listenerStep ⟨5, some 2⟩) { db := oneLecture }
      (before ++ .here .close :: [.arrive 0 500])
    progressGET oneLecture w.db (some 5) (some 2) 20 600 = some ⟨100, false⟩ ∧
      (100 : ℤ) = max 0 (min 86400 ⌊(201 / 2 : ℚ)⌋) := by
  intro before w
  have hget : progressGET oneLecture w.db (some 5) (some 2) 20 600 = some ⟨100, false⟩ := by
    decide +kernel
  have hserved : Meets (listenerStep ⟨5, some 2⟩) (Served ⟨5, some 2⟩) { db := oneLecture }
      (before ++ .here .close :: [.arrive 0 500]) := by
    refine ⟨trivial, trivial, trivial, ⟨rfl, ?_⟩, trivial⟩
    rintro r ⟨⟩
    decide +kernel
  have htrack : (run (listenerStep ⟨5, some 2⟩) { db := oneLecture } before).player.track
      = some lecture := rfl
  have hleaves : PlayerAction.close.Leaves
      (run (listenerStep ⟨5, some 2⟩) { db := oneLecture } before).player := trivial
  have hquiet : Meets (listenerStep ⟨5, some 2⟩) (Quiet lecture.lessonId)
      (run (listenerStep ⟨5, some 2⟩) { db := oneLecture } (before ++ [.here .close]))
      [.arrive 0 500] := ⟨trivial, trivial⟩
  exact ⟨hget, (resumes rfl (fun _ => Nat.zero_le _) htrack hleaves hquiet hserved rfl hget).1⟩

end LampLight
