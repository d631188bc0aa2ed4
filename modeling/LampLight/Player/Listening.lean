import LampLight.Access.Predicate
import LampLight.Foundation.Interleave
import LampLight.Foundation.JsText
import LampLight.Player.Progress

/-!
# Listening on several devices

The player posts where somebody has got to, every few seconds and from any number of devices, and
asks for it when it opens. Posts are interleaved statement by statement. The upsert locks its row:
it goes by the row as it was last committed, and until its transaction commits every other upsert of
that row waits.

What a row says is compared with the posts that were stored, in the order in which they were
committed. Nothing in the program reads that history; it is kept to say what the row has to tell.

## Main definitions

* `progressPOST`, `progressGET` — the two routes
* `postStep`, `posted` — the statements of a post, and what a schedule of them leaves
* `Told` — the row is what its stored posts make of it

## Main results

* `post_alone` — a post that nobody interrupts is the route
* `remembers` — what is remembered after any schedule
-/

namespace LampLight

open Interleave (Config turn)
open Js (Json)
open Machine (run)

/-! ### What the player sends -/

/-- No position lies beyond a day. -/
def MAX_POSITION_SECONDS : ℤ := 24 * 60 * 60

/-- A position out of whatever a browser sent. -/
def clampPosition : Option Json → Option ℤ
  | some (.num (.finite q)) => some (max 0 (min MAX_POSITION_SECONDS q.floor))
  | _ => none

/-- The position a body reports. -/
def readPosition (body : Json) : Option ℤ := clampPosition (body.get? "positionSeconds")

/-- `body.completed === true`. -/
def readCompleted (body : Json) : Bool :=
  match body.get? "completed" with
  | some (.bool b) => b
  | _ => false

theorem clampPosition_bounds {value : Option Json} {n : ℤ} (h : clampPosition value = some n) :
    0 ≤ n ∧ n ≤ 86400 := by
  rw [clampPosition.eq_def] at h
  split at h
  · obtain rfl := Option.some.inj h
    rw [MAX_POSITION_SECONDS]
    omega
  · cases h

/-- Where a row of progress belongs. -/
structure ProgressKey where
  tenantId : Uuid
  userId : Uuid
  lessonId : Uuid
deriving DecidableEq

/-- Whose progress in which lesson a row holds. -/
def ProgressRow.key (p : ProgressRow) : ProgressKey := ⟨p.tenantId, p.userId, p.lessonId⟩

/-- Whose progress in which lesson is stored. -/
def ProgressParams.key (scope : TenantScope) (params : ProgressParams) : ProgressKey :=
  ⟨scope.tenantId, params.userId, params.lessonId⟩

/-- A request with the tenant its host belongs to, the user its session belongs to, and its body
when that is JSON. -/
structure ProgressPost where
  tenantId : Option Uuid
  userId : Option Uuid
  lessonId : Uuid
  body : Option Json
  now : Instant

namespace ProgressPost

/-- The position a post reports. -/
def position? (post : ProgressPost) : Option ℤ := post.body.bind readPosition

/-- Whether a post reports the lesson as completed. -/
def completed (post : ProgressPost) : Bool := post.body.any readCompleted

/-- Whose progress in which lesson a post is about. -/
def key? (post : ProgressPost) : Option ProgressKey :=
  post.tenantId.bind fun tenantId => post.userId.map fun userId =>
    ⟨tenantId, userId, post.lessonId⟩

end ProgressPost

/-! ### The routes -/

/-- What a post is answered. -/
inductive ProgressAnswer where
  | notFound
  | badRequest
  | ok (stored : Bool)
  | failed (e : DbError)
deriving DecidableEq

/-- `POST /api/tenant/lessons/[lessonId]/progress`. -/
def progressPOST (db : Database) (post : ProgressPost) : ProgressAnswer × Database :=
  match post.tenantId with
  | none => (.notFound, db)
  | some tenantId =>
    match post.position? with
    | none => (.badRequest, db)
    | some position =>
      if (decideLessonAccess ⟨tenantId, post.now⟩ db ⟨tenantId, post.userId⟩
          post.lessonId).allowed then
        match post.userId with
        -- anonymous on a free preview: there is no one to remember
        | none => (.ok false, db)
        | some userId =>
          match recordProgress ⟨tenantId, post.now⟩ db
              ⟨userId, post.lessonId, position, post.completed⟩ post.now with
          | .error e => (.failed e, db)
          | .ok db' => (.ok true, db')
      else (.notFound, db)

/-- What is stored of somebody's progress in a lesson. -/
structure LessonProgress where
  lessonId : Uuid
  positionSeconds : ℤ
  completedAt : Option Instant
deriving DecidableEq

/-- Somebody's progress in a lesson. -/
def findProgress (scope : TenantScope) (db : Database) (userId lessonId : Uuid) :
    Option LessonProgress :=
  (db.progress.find? fun p =>
    p.tenantId = scope.tenantId && p.userId = userId && p.lessonId = lessonId).map fun p =>
      ⟨p.lessonId, p.positionSeconds, p.completedAt⟩

/-- What a post says about a lesson. -/
structure ProgressReport where
  positionSeconds : ℤ
  completed : Bool
deriving DecidableEq

/-- What a player is told, or nothing when the answer is 404. The decision and the row are read by
different statements, so others may commit in between. -/
def progressGET (decided read : Database) (tenantId userId : Option Uuid) (lessonId : Uuid)
    (now : Instant) : Option ProgressReport :=
  match tenantId with
  | none => none
  | some tenantId =>
    if (decideLessonAccess ⟨tenantId, now⟩ decided ⟨tenantId, userId⟩ lessonId).allowed then
      match userId with
      | none => some ⟨0, false⟩
      | some userId =>
        let row := findProgress ⟨tenantId, now⟩ read userId lessonId
        some ⟨(row.map (·.positionSeconds)).getD 0, (row.bind (·.completedAt)).isSome⟩
    else none

/-! ### The statements of a post -/

/-- The row an upsert leaves. -/
def upserted (scope : TenantScope) (db : Database) (params : ProgressParams) (now : Instant) :
    ProgressRow where
  tenantId := scope.tenantId
  userId := params.userId
  lessonId := params.lessonId
  positionSeconds := params.positionSeconds
  completedAt :=
    if params.completed then some now
    else (db.progress.find? fun p => p.key = params.key scope).bind (·.completedAt)
  updatedAt := now

/-- A row takes the place of the one with its key. -/
def Database.putProgress (db : Database) (row : ProgressRow) : Database :=
  { db with progress := Table.upsert ProgressRow.key row db.progress }

/-- How far a post has come. -/
inductive PostPhase
  | received
  | parsed (scope : TenantScope) (position : ℤ)
  | allowed (scope : TenantScope) (params : ProgressParams)
  | written (row : ProgressRow)
  | answered (answer : ProgressAnswer)

/-- The committed rows, who holds which row, and the posts that were stored, in order. -/
structure ProgressStore (ι : Type*) where
  db : Database
  holder : ProgressKey → Option ι := fun _ => none
  history : List ι := []

variable {ι : Type*}

/-- The next statement of a post. -/
def postStep (posts : ι → ProgressPost) (i : ι) (phase : PostPhase) (s : ProgressStore ι) :
    PostPhase × ProgressStore ι :=
  match phase with
  | .received =>
    match (posts i).tenantId with
    | none => (.answered .notFound, s)
    | some tenantId =>
      match (posts i).position? with
      | none => (.answered .badRequest, s)
      | some position => (.parsed ⟨tenantId, (posts i).now⟩ position, s)
  | .parsed scope position =>
    -- No post writes to what the predicate reads, so its queries are one statement here.
    if (decideLessonAccess scope s.db ⟨scope.tenantId, (posts i).userId⟩
        (posts i).lessonId).allowed then
      match (posts i).userId with
      | none => (.answered (.ok false), s)
      | some userId =>
        (.allowed scope ⟨userId, (posts i).lessonId, position, (posts i).completed⟩, s)
    else (.answered .notFound, s)
  | .allowed scope params =>
    if (s.holder (params.key scope)).isSome then (.allowed scope params, s)
    else
      match recordProgress scope s.db params (posts i).now with
      | .error e => (.answered (.failed e), s)
      | .ok db' =>
        -- What is committed later is the row with its key, as the statement has left it.
        match db'.progress.find? fun p => p.key = params.key scope with
        | none => (.answered (.ok true), s)
        | some row => (.written row,
            { s with holder := Function.update s.holder (params.key scope) (some i) })
  | .written row =>
    (.answered (.ok true),
      { db := s.db.putProgress row
        holder := Function.update s.holder row.key none
        history := s.history ++ [i] })
  | .answered answer => (.answered answer, s)

/-- Nobody has posted yet. -/
def Database.listening (db : Database) : Config ι PostPhase (ProgressStore ι) where
  phase _ := .received
  shared := { db := { db with progress := [] } }

/-- What a schedule of posts leaves. -/
def posted [DecidableEq ι] (posts : ι → ProgressPost) (db : Database) (schedule : List ι) :
    Config ι PostPhase (ProgressStore ι) :=
  run (turn (postStep posts)) db.listening schedule

/-! ### One row for a key -/

/-- The rows with a key. -/
def rowsAt (db : Database) (k : ProgressKey) : List ProgressRow :=
  db.progress.filter fun p => p.key = k

section Rows

variable {db db' : Database} {scope : TenantScope} {params : ProgressParams} {now : Instant}
  {row : ProgressRow} {k : ProgressKey}

theorem rowsAt_putProgress_of_ne (h : row.key ≠ k) :
    rowsAt (db.putProgress row) k = rowsAt db k :=
  Table.filter_upsert_of_ne h

theorem rowsAt_putProgress (h : (rowsAt db row.key).length ≤ 1) :
    rowsAt (db.putProgress row) row.key = [row] :=
  Table.filter_upsert_self h

theorem upserted_key : (upserted scope db params now).key = params.key scope := rfl

/-- What the upsert of `recordProgress` does to the table. -/
theorem recordProgress_eq (hone : (rowsAt db (params.key scope)).length ≤ 1)
    (h : recordProgress scope db params now = .ok db') :
    db' = db.putProgress (upserted scope db params now) := by
  have hwhere : (fun p : ProgressRow => p.tenantId = scope.tenantId && p.userId = params.userId &&
      p.lessonId = params.lessonId) = fun p => decide (p.key = params.key scope) := by
    funext p
    simp [ProgressRow.key, ProgressParams.key, Bool.and_assoc]
  simp only [recordProgress, hwhere] at h
  by_cases hrange : params.positionSeconds < -(2 ^ 31) ∨ 2 ^ 31 ≤ params.positionSeconds
  · rw [if_pos hrange] at h
    cases h
  rw [if_neg hrange] at h
  by_cases hany : (db.progress.any fun p => p.key = params.key scope) = true
  · rw [if_pos hany] at h
    obtain rfl := Except.ok.inj h
    rw [Database.putProgress, Table.upsert, upserted_key, if_pos hany]
    congr 1
    refine List.map_congr_left fun p hp => ?_
    by_cases hkey : p.key = params.key scope
    · have hfound : db.progress.find? (fun p => p.key = params.key scope) = some p := by
        refine Table.find?_eq_some_of_unique hp (decide_eq_true hkey) fun b hb hbkey => ?_
        exact Table.eq_of_length_le_one hone (List.mem_filter.mpr ⟨hb, hbkey⟩)
          (List.mem_filter.mpr ⟨hp, decide_eq_true hkey⟩)
      rw [if_pos (decide_eq_true hkey), if_pos (decide_eq_true hkey), upserted, hfound]
      simp only [ProgressRow.key, ProgressParams.key, ProgressKey.mk.injEq] at hkey
      simp only [hkey, Option.bind_some]
    · rw [if_neg (by simpa using hkey), if_neg (by simpa using hkey)]
  · rw [if_neg hany] at h
    obtain ⟨-, rfl⟩ := Database.checked_ok.mp h
    have hnone : db.progress.find? (fun p => p.key = params.key scope) = none := by
      simpa using hany
    rw [Database.putProgress, Table.upsert, upserted_key, if_neg hany]
    simp [upserted, hnone]

theorem any_key_eq (db : Database) (k : ProgressKey) :
    (db.progress.any fun p => p.key = k) = !(rowsAt db k).isEmpty := by
  rw [Bool.eq_iff_iff]
  simp [rowsAt, List.filter_eq_nil_iff]

/-- The row that `recordProgress` has left. -/
theorem find?_recordProgress (hone : (rowsAt db (params.key scope)).length ≤ 1)
    (h : recordProgress scope db params now = .ok db') :
    db'.progress.find? (fun p => p.key = params.key scope)
      = some (upserted scope db params now) := by
  have hrows : rowsAt db' (params.key scope) = [upserted scope db params now] := by
    rw [recordProgress_eq hone h]
    exact rowsAt_putProgress hone
  rw [← List.head?_filter]
  exact congrArg List.head? hrows

theorem upserted_putProgress_of_ne (h : row.key ≠ params.key scope) :
    upserted scope (db.putProgress row) params now = upserted scope db params now := by
  have hfind : (db.putProgress row).progress.find? (fun p => p.key = params.key scope)
      = db.progress.find? fun p => p.key = params.key scope := by
    rw [← List.head?_filter, ← List.head?_filter]
    exact congrArg List.head? (rowsAt_putProgress_of_ne h)
  rw [upserted, upserted, hfind]

/-- What can be recorded can be recorded after a row with another key was committed, and comes to
the same row. -/
theorem recordProgress_putProgress_of_ne (hkey : row.key ≠ params.key scope)
    (hone : (rowsAt db (params.key scope)).length ≤ 1)
    (h : recordProgress scope db params now = .ok db') :
    recordProgress scope (db.putProgress row) params now
      = .ok ((db.putProgress row).putProgress (upserted scope db params now)) := by
  have hwhere : (fun p : ProgressRow => p.tenantId = scope.tenantId && p.userId = params.userId &&
      p.lessonId = params.lessonId) = fun p => decide (p.key = params.key scope) := by
    funext p
    simp [ProgressRow.key, ProgressParams.key, Bool.and_assoc]
  have hsame : rowsAt (db.putProgress row) (params.key scope) = rowsAt db (params.key scope) :=
    rowsAt_putProgress_of_ne hkey
  obtain ⟨db'', hok⟩ : ∃ db'', recordProgress scope (db.putProgress row) params now = .ok db'' := by
    simp only [recordProgress, hwhere, any_key_eq] at h ⊢
    rw [hsame]
    by_cases hrange : params.positionSeconds < -(2 ^ 31) ∨ 2 ^ 31 ≤ params.positionSeconds
    · rw [if_pos hrange] at h
      cases h
    rw [if_neg hrange] at h ⊢
    by_cases hany : (!(rowsAt db (params.key scope)).isEmpty) = true
    · rw [if_pos hany]
      exact ⟨_, rfl⟩
    · rw [if_neg hany] at h ⊢
      exact ⟨_, Database.checked_ok.mpr ⟨(Database.checked_ok.mp h).1, rfl⟩⟩
  rw [hok, recordProgress_eq (hsame ▸ hone) hok, upserted_putProgress_of_ne hkey]

end Rows

/-! ### What a row tells -/

section Runs

variable {posts : ι → ProgressPost} {s s' : ProgressStore ι} {i j : ι} {phase : PostPhase}
  {k : ProgressKey}

/-- The stored posts of a key, oldest first. -/
def writesAt (posts : ι → ProgressPost) (s : ProgressStore ι) (k : ProgressKey) :
    List ProgressPost :=
  (s.history.map posts).filter fun post => post.key? = some k

/-- The row is what its stored posts make of it: the last position, and whether any of them was
completed. -/
def Told (posts : ι → ProgressPost) (s : ProgressStore ι) (k : ProgressKey) : Prop :=
  (rowsAt s.db k).map (fun p => (some p.positionSeconds, p.completedAt.isSome))
    = ((writesAt posts s k).getLast?.map fun post =>
        (post.position?, (writesAt posts s k).any (·.completed))).toList

theorem Told.length_le (h : Told posts s k) : (rowsAt s.db k).length ≤ 1 := by
  have hlength := congrArg List.length h
  rw [List.length_map] at hlength
  rw [hlength]
  cases (writesAt posts s k).getLast? <;> simp

theorem Told.any_completedAt (h : Told posts s k) :
    (rowsAt s.db k).any (·.completedAt.isSome) = (writesAt posts s k).any (·.completed) := by
  have hany := congrArg (fun l => l.any Prod.snd) h
  rw [List.any_map] at hany
  refine hany.trans ?_
  cases hlast : (writesAt posts s k).getLast? with
  | none => simp [List.getLast?_eq_none_iff.mp hlast]
  | some post => simp

/-- What a post has come to, between its statements. -/
def Knows (posts : ι → ProgressPost) (i : ι) (phase : PostPhase) (s : ProgressStore ι) : Prop :=
  (i ∈ s.history ↔ phase = .answered (.ok true)) ∧
    match phase with
    | .parsed scope position =>
      (posts i).tenantId = some scope.tenantId ∧ (posts i).position? = some position
    | .allowed scope params => (posts i).key? = some (params.key scope) ∧
        (posts i).position? = some params.positionSeconds ∧ (posts i).completed = params.completed
    | .written row => s.holder row.key = some i ∧ (posts i).key? = some row.key ∧
        (posts i).position? = some row.positionSeconds ∧
        row.completedAt.isSome
          = ((rowsAt s.db row.key).any (·.completedAt.isSome) || (posts i).completed) ∧
        ∃ scope params, params.key scope = row.key ∧ params.completed = (posts i).completed ∧
          row = upserted scope s.db params (posts i).now ∧
          recordProgress scope s.db params (posts i).now = .ok (s.db.putProgress row)
    | _ => True

/-- What a step does to what the others see. -/
theorem postStep_cases (posts : ι → ProgressPost) (i : ι) (phase : PostPhase)
    (s : ProgressStore ι) :
    (postStep posts i phase s).2 = s ∨
      (∃ scope params, phase = .allowed scope params ∧ s.holder (params.key scope) = none ∧
        (postStep posts i phase s).2
          = { s with holder := Function.update s.holder (params.key scope) (some i) }) ∨
      ∃ row, phase = .written row ∧
        (postStep posts i phase s).2 =
          { db := s.db.putProgress row
            holder := Function.update s.holder row.key none
            history := s.history ++ [i] } := by
  cases phase with
  | received =>
    left
    simp only [postStep]
    split
    · rfl
    · split <;> rfl
  | parsed scope position =>
    left
    simp only [postStep]
    split_ifs
    · split <;> rfl
    · rfl
  | allowed scope params =>
    simp only [postStep]
    split_ifs with hheld
    · exact Or.inl rfl
    · split
      · exact Or.inl rfl
      · split
        · exact Or.inl rfl
        · exact Or.inr (Or.inl ⟨scope, params, rfl, by simpa using hheld, rfl⟩)
  | written row => exact Or.inr (Or.inr ⟨row, rfl, rfl⟩)
  | answered answer => exact Or.inl rfl

theorem isSome_completedAt_upserted {scope : TenantScope} {db : Database} {params : ProgressParams}
    {now : Instant} (hone : (rowsAt db (params.key scope)).length ≤ 1) :
    (upserted scope db params now).completedAt.isSome
      = ((rowsAt db (params.key scope)).any (·.completedAt.isSome) || params.completed) := by
  have hhead : db.progress.find? (fun p => p.key = params.key scope)
      = (rowsAt db (params.key scope)).head? := by
    rw [rowsAt, List.head?_filter]
  have hrows : ((rowsAt db (params.key scope)).head?.bind (·.completedAt)).isSome
      = (rowsAt db (params.key scope)).any (·.completedAt.isSome) := by
    match rowsAt db (params.key scope), hone with
    | [], _ => rfl
    | [p], _ => simp
  rw [upserted, hhead, ← hrows]
  cases params.completed <;> simp

/-- A post's own steps keep what it knows. -/
theorem knows_postStep (htold : ∀ k, Told posts s k) (h : Knows posts i phase s) :
    Knows posts i (postStep posts i phase s).1 (postStep posts i phase s).2 := by
  obtain ⟨hstored, hphase⟩ := h
  cases phase with
  | received =>
    simp only [postStep]
    split
    · exact ⟨by simpa using hstored, trivial⟩
    · next tenantId htenant =>
      split
      · exact ⟨by simpa using hstored, trivial⟩
      · next position hposition => exact ⟨by simpa using hstored, htenant, hposition⟩
  | parsed scope position =>
    simp only [postStep]
    split_ifs
    · split
      · exact ⟨by simpa using hstored, trivial⟩
      · next userId huser =>
        refine ⟨by simpa using hstored, ?_, hphase.2, rfl⟩
        rw [ProgressPost.key?, hphase.1, huser]
        rfl
    · exact ⟨by simpa using hstored, trivial⟩
  | allowed scope params =>
    simp only [postStep]
    split_ifs
    · exact ⟨hstored, hphase⟩
    · split
      · exact ⟨by simpa using hstored, trivial⟩
      · next db' hrecord =>
        have hone := (htold (params.key scope)).length_le
        obtain ⟨hkey, hposition, hcompleted⟩ := hphase
        rw [find?_recordProgress hone hrecord]
        refine ⟨by simpa using hstored, ?_, hkey, hposition, ?_, scope, params, rfl,
          hcompleted.symm, rfl, ?_⟩
        · exact Function.update_self _ _ _
        · rw [hcompleted]
          exact isSome_completedAt_upserted hone
        · rw [hrecord, recordProgress_eq hone hrecord]
  | written row => exact ⟨by simp [postStep], trivial⟩
  | answered answer => exact ⟨hstored, trivial⟩

/-- Nor do the others interfere: a held row stays as it is. -/
theorem knows_of_ne (htold : ∀ k, Told posts s k) (hij : j ≠ i) (h : Knows posts i phase s)
    {p : PostPhase}
    (hj : Knows posts j p s) : Knows posts j p (postStep posts i phase s).2 := by
  rcases postStep_cases posts i phase s with
    hsame | ⟨scope, params, -, hfree, hstep⟩ | ⟨row, rfl, hstep⟩
  · rw [hsame]
    exact hj
  · rw [hstep]
    refine ⟨hj.1, ?_⟩
    cases p with
    | written row' =>
      obtain ⟨hheld, hrest⟩ := hj.2
      have hne : row'.key ≠ params.key scope := by
        intro heq
        rw [heq, hfree] at hheld
        cases hheld
      exact ⟨(Function.update_of_ne hne _ _).trans hheld, hrest⟩
    | _ => exact hj.2
  · rw [hstep]
    refine ⟨by simp [hij, hj.1], ?_⟩
    cases p with
    | written row' =>
      obtain ⟨hheld, hkey, hposition, hcompleted, scope, params, hparams, hflag, hrow, hrecord⟩ :=
        hj.2
      have hne : row'.key ≠ row.key := by
        intro heq
        rw [heq, h.2.1] at hheld
        exact hij (Option.some.inj hheld).symm
      have hother : row.key ≠ params.key scope := hparams ▸ hne.symm
      refine ⟨(Function.update_of_ne hne _ _).trans hheld, hkey, hposition, ?_, scope, params,
        hparams, hflag, ?_, ?_⟩
      · rw [rowsAt_putProgress_of_ne hne.symm]
        exact hcompleted
      · rw [upserted_putProgress_of_ne hother]
        exact hrow
      · rw [recordProgress_putProgress_of_ne hother (htold _).length_le hrecord, ← hrow]
    | _ => exact hj.2

/-- A commit writes what the row has to tell. -/
theorem told_postStep (htold : ∀ k, Told posts s k) (h : Knows posts i phase s)
    (k : ProgressKey) : Told posts (postStep posts i phase s).2 k := by
  rcases postStep_cases posts i phase s with
    hsame | ⟨scope, params, -, -, hstep⟩ | ⟨row, rfl, hstep⟩
  · rw [hsame]
    exact htold k
  · rw [hstep]
    exact htold k
  · rw [hstep]
    obtain ⟨-, hkey, hposition, hcompleted, -⟩ := h.2
    by_cases hk : row.key = k
    · subst hk
      have hwrites : (((s.history ++ [i]).map posts).filter fun post => post.key? = some row.key)
          = writesAt posts s row.key ++ [posts i] := by
        simp [writesAt, List.filter_append, hkey]
      rw [Told, rowsAt_putProgress (htold _).length_le, writesAt, hwrites,
        List.getLast?_append_cons]
      simp [hposition, hcompleted, (htold row.key).any_completedAt]
    · have hwrites : (((s.history ++ [i]).map posts).filter fun post => post.key? = some k)
          = writesAt posts s k := by
        simp [writesAt, List.filter_append, hkey, hk]
      rw [Told, rowsAt_putProgress_of_ne hk, writesAt, hwrites]
      exact htold k

/-- A post that nobody interrupts is the route. -/
theorem post_alone (posts : ι → ProgressPost) (i : ι) (hone : ∀ k, (rowsAt s.db k).length ≤ 1)
    (hfree : ∀ k, s.holder k = none) :
    ((Function.uncurry (postStep posts i))^[4] (.received, s)).1
        = .answered (progressPOST s.db (posts i)).1 ∧
      ((Function.uncurry (postStep posts i))^[4] (.received, s)).2.db
        = (progressPOST s.db (posts i)).2 := by
  have hanswered : ∀ (n : ℕ) (answer : ProgressAnswer),
      (Function.uncurry (postStep posts i))^[n] (.answered answer, s) = (.answered answer, s) :=
    fun n _ => Function.iterate_fixed rfl n
  rw [Function.iterate_succ_apply, Function.uncurry_apply_pair, postStep, progressPOST]
  cases (posts i).tenantId with
  | none => exact ⟨congrArg Prod.fst (hanswered 3 _), congrArg (·.2.db) (hanswered 3 _)⟩
  | some tenantId =>
    cases (posts i).position? with
    | none => exact ⟨congrArg Prod.fst (hanswered 3 _), congrArg (·.2.db) (hanswered 3 _)⟩
    | some position =>
      dsimp only
      rw [Function.iterate_succ_apply, Function.uncurry_apply_pair, postStep]
      split_ifs
      · cases (posts i).userId with
        | none => exact ⟨congrArg Prod.fst (hanswered 2 _), congrArg (·.2.db) (hanswered 2 _)⟩
        | some userId =>
          dsimp only
          rw [Function.iterate_succ_apply, Function.uncurry_apply_pair, postStep, hfree,
            if_neg (by simp)]
          cases hrecord : recordProgress ⟨tenantId, (posts i).now⟩ s.db
              ⟨userId, (posts i).lessonId, position, (posts i).completed⟩ (posts i).now with
          | error e => exact ⟨congrArg Prod.fst (hanswered 1 _), congrArg (·.2.db) (hanswered 1 _)⟩
          | ok db' =>
            dsimp only
            rw [find?_recordProgress (hone _) hrecord]
            exact ⟨rfl, (recordProgress_eq (hone _) hrecord).symm⟩
      · exact ⟨congrArg Prod.fst (hanswered 2 _), congrArg (·.2.db) (hanswered 2 _)⟩

theorem findProgress_eq (scope : TenantScope) (db : Database) (userId lessonId : Uuid) :
    findProgress scope db userId lessonId = (rowsAt db ⟨scope.tenantId, userId, lessonId⟩).head?.map
      fun p => ⟨p.lessonId, p.positionSeconds, p.completedAt⟩ := by
  rw [findProgress, rowsAt, List.head?_filter]
  congr 2
  funext p
  simp [ProgressRow.key, Bool.and_assoc]

/-- What a player is told is what the row has to tell. -/
theorem progressGET_told (htold : ∀ k, Told posts s k) {decided : Database}
    {tenantId userId lessonId : Uuid} {now : Instant} {report : ProgressReport}
    (h : progressGET decided s.db (some tenantId) (some userId) lessonId now = some report) :
    report.completed = (writesAt posts s ⟨tenantId, userId, lessonId⟩).any (·.completed) ∧
      report.positionSeconds
        = ((writesAt posts s ⟨tenantId, userId, lessonId⟩).getLast?.bind (·.position?)).getD 0 := by
  have hkey := htold ⟨tenantId, userId, lessonId⟩
  simp only [progressGET, findProgress_eq] at h
  split_ifs at h
  obtain rfl := Option.some.inj h
  have hany := hkey.any_completedAt
  rw [Told] at hkey
  rw [← hany]
  cases hlast : (writesAt posts s ⟨tenantId, userId, lessonId⟩).getLast? with
  | none =>
    rw [hlast] at hkey
    have hrows : rowsAt s.db ⟨tenantId, userId, lessonId⟩ = [] := List.map_eq_nil_iff.mp hkey
    simp [hrows]
  | some post =>
    rw [hlast] at hkey
    obtain ⟨p, hrows, hp⟩ := List.map_eq_singleton_iff.mp hkey
    have hposition : some p.positionSeconds = post.position? := congrArg Prod.fst hp
    rw [hrows]
    simp [← hposition]

/-! ### Any schedule -/

/-- The invariant of every run of posts. -/
structure Recorded (posts : ι → ProgressPost) (c : Config ι PostPhase (ProgressStore ι)) :
    Prop where
  told : ∀ k, Told posts c.shared k
  knows : ∀ i, Knows posts i (c.phase i) c.shared

theorem recorded_listening (posts : ι → ProgressPost) (db : Database) :
    Recorded posts db.listening where
  told _ := rfl
  knows _ := ⟨by simp [Database.listening], trivial⟩

section Schedules

variable [DecidableEq ι]

theorem recorded_turn {c : Config ι PostPhase (ProgressStore ι)} (hc : Recorded posts c) (i : ι) :
    Recorded posts (turn (postStep posts) c i) where
  told := told_postStep hc.told (hc.knows i)
  knows := Interleave.turn_invariant_of_ne (knows_postStep hc.told (hc.knows i))
    (fun _ hij hj => knows_of_ne hc.told hij (hc.knows i) hj) hc.knows

theorem recorded_run {c : Config ι PostPhase (ProgressStore ι)} (hc : Recorded posts c)
    (schedule : List ι) : Recorded posts (run (turn (postStep posts)) c schedule) :=
  Machine.run_invariant (I := Recorded posts) (fun _ i hc => recorded_turn hc i) hc schedule

theorem history_run (c : Config ι PostPhase (ProgressStore ι)) (schedule : List ι) :
    c.shared.history <+: (run (turn (postStep posts)) c schedule).shared.history := by
  refine Machine.run_invariant
    (I := fun d : Config ι PostPhase (ProgressStore ι) => c.shared.history <+: d.shared.history)
    (fun d i hd => hd.trans ?_) List.prefix_rfl schedule
  show d.shared.history <+: (postStep posts i (d.phase i) d.shared).2.history
  rcases postStep_cases posts i (d.phase i) d.shared with
    hsame | ⟨scope, params, -, -, hstep⟩ | ⟨row, -, hstep⟩
  · rw [hsame]
  · rw [hstep]
  · rw [hstep]
    exact List.prefix_append _ _

/-- What is remembered after a schedule: the next step of a post changes nothing or is
`recordProgress` on what is committed then, and a post that nobody interrupts is the route; the
stored posts are those answered so, a key has one row at most, a completed lesson stays completed,
and a player is told what the stored posts of its user say: whether any was completed, and the last
position, in seconds of one day. -/
structure Remembers (posts : ι → ProgressPost) (db : Database) (schedule : List ι) : Prop where
  commits : ∀ i, (posted posts db (schedule ++ [i])).shared.db
      = (posted posts db schedule).shared.db ∨
    ∃ scope params, (posts i).key? = some (params.key scope) ∧
      (posts i).position? = some params.positionSeconds ∧ (posts i).completed = params.completed ∧
      recordProgress scope (posted posts db schedule).shared.db params (posts i).now
        = .ok (posted posts db (schedule ++ [i])).shared.db
  alone : ∀ i, (posted posts db schedule).phase i = .received →
    (∀ k, (posted posts db schedule).shared.holder k = none) →
    let route := progressPOST (posted posts db schedule).shared.db (posts i)
    let after := posted posts db (schedule ++ List.replicate 4 i)
    after.phase i = .answered route.1 ∧ after.shared.db = route.2
  stored : ∀ i, i ∈ (posted posts db schedule).shared.history ↔
    (posted posts db schedule).phase i = .answered (.ok true)
  one_row : ∀ k, (rowsAt (posted posts db schedule).shared.db k).length ≤ 1
  sticky : ∀ earlier, earlier <+: schedule → ∀ k,
    (∃ p ∈ rowsAt (posted posts db earlier).shared.db k, p.completedAt ≠ none) →
      ∃ p ∈ rowsAt (posted posts db schedule).shared.db k, p.completedAt ≠ none
  told : ∀ earlier, earlier <+: schedule → ∀ tenantId userId lessonId now report,
    progressGET (posted posts db earlier).shared.db (posted posts db schedule).shared.db
        (some tenantId) (some userId) lessonId now = some report →
      let writes := writesAt posts (posted posts db schedule).shared ⟨tenantId, userId, lessonId⟩
      (report.completed = true ↔ ∃ post ∈ writes, post.completed = true) ∧
        report.positionSeconds = (writes.getLast?.bind (·.position?)).getD 0 ∧
        0 ≤ report.positionSeconds ∧ report.positionSeconds ≤ 86400

theorem posted_append (posts : ι → ProgressPost) (db : Database) (schedule more : List ι) :
    posted posts db (schedule ++ more)
      = run (turn (postStep posts)) (posted posts db schedule) more :=
  Machine.run_append ..

/-- A step of a post changes nothing, or is `recordProgress` on what is committed. -/
theorem recordProgress_turn {c : Config ι PostPhase (ProgressStore ι)} (hc : Recorded posts c)
    (i : ι) :
    (turn (postStep posts) c i).shared.db = c.shared.db ∨
      ∃ scope params, (posts i).key? = some (params.key scope) ∧
        (posts i).position? = some params.positionSeconds ∧
        (posts i).completed = params.completed ∧
        recordProgress scope c.shared.db params (posts i).now
          = .ok (turn (postStep posts) c i).shared.db := by
  simp only [turn]
  rcases postStep_cases posts i (c.phase i) c.shared with
    hsame | ⟨scope, params, -, -, hstep⟩ | ⟨row, hphase, hstep⟩
  · rw [hsame]
    exact Or.inl rfl
  · rw [hstep]
    exact Or.inl rfl
  · have hknows := (hc.knows i).2
    rw [hphase] at hknows
    obtain ⟨-, hkey, hposition, -, scope, params, hparams, hflag, hrow, hrecord⟩ := hknows
    refine Or.inr ⟨scope, params, hparams ▸ hkey, ?_, hflag.symm, ?_⟩
    · rw [hposition, hrow]
      rfl
    · rw [hstep]
      exact hrecord

/-- **Progress is kept.** Whatever is posted, from whatever devices and in whatever order the
statements of the posts come: nothing that was completed is forgotten, and the position is that of
the last post that was stored. -/
theorem remembers (posts : ι → ProgressPost) (db : Database) (schedule : List ι) :
    Remembers posts db schedule := by
  have hrecorded : ∀ schedule, Recorded posts (posted posts db schedule) := fun schedule =>
    recorded_run (recorded_listening posts db) schedule
  have hsome : ∀ rows : List ProgressRow, (∃ p ∈ rows, p.completedAt ≠ none) ↔
      rows.any (·.completedAt.isSome) = true := by
    intro rows
    simp [Option.isSome_iff_ne_none]
  refine ⟨fun i => ?_, fun i hphase hfree => ?_, fun i => ((hrecorded schedule).knows i).1,
    fun k => ((hrecorded schedule).told k).length_le, ?_, ?_⟩
  · rw [posted_append]
    exact recordProgress_turn (hrecorded schedule) i
  · have hone : ∀ k, (rowsAt (posted posts db schedule).shared.db k).length ≤ 1 :=
      fun k => ((hrecorded schedule).told k).length_le
    rw [posted_append, Interleave.run_replicate, hphase]
    dsimp only
    rw [Function.update_self]
    exact post_alone posts i hone hfree
  · rintro earlier ⟨rest, rfl⟩ k hearlier
    rw [hsome, ((hrecorded earlier).told k).any_completedAt] at hearlier
    rw [hsome, ((hrecorded _).told k).any_completedAt]
    have hhistory : (posted posts db earlier).shared.history
        <+: (posted posts db (earlier ++ rest)).shared.history := by
      rw [posted, posted, Machine.run_append]
      exact history_run _ rest
    obtain ⟨post, hpost, hcompleted⟩ := List.any_eq_true.mp hearlier
    refine List.any_eq_true.mpr ⟨post, ?_, hcompleted⟩
    exact ((hhistory.sublist.map posts).filter _).subset hpost
  · intro earlier _ tenantId userId lessonId now report h writes
    obtain ⟨hcompleted, hposition⟩ := progressGET_told (hrecorded schedule).told h
    refine ⟨by rw [hcompleted, List.any_eq_true], hposition, ?_⟩
    rw [hposition]
    cases hlast : writes.getLast?.bind (·.position?) with
    | none => simp
    | some n =>
      obtain ⟨post, -, hn⟩ := Option.bind_eq_some_iff.mp hlast
      obtain ⟨body, -, hbody⟩ := Option.bind_eq_some_iff.mp hn
      exact clampPosition_bounds hbody

end Schedules

end Runs

/-- One device has heard the lesson to its end, and another is twelve seconds into it. -/
def twoDevices (device : Bool) : ProgressPost where
  tenantId := some 1
  userId := some 2
  lessonId := 5
  body := some (.obj [("positionSeconds", .num (.finite (if device then 12 else 30))),
    ("completed", .bool !device)])
  now := 50

/-- The second device is let in before the first one commits, and waits for the row. -/
theorem remembers_twoDevices :
    Remembers twoDevices institute [false, true, false, true, false, true, false, true, true] ∧
      progressGET institute (posted twoDevices institute
          [false, true, false, true, false, true, false, true, true]).shared.db
        (some 1) (some 2) 5 60 = some ⟨12, true⟩ :=
  ⟨remembers twoDevices institute _, by decide +kernel⟩

end LampLight
