import LampLight.Foundation.Interleave
import LampLight.Foundation.Positions
import LampLight.Teach.Appending

/-!
# Appending at the same time

Several calls append items at once, statement by statement. A query sees what has been committed,
and what a transaction inserts is there for the others once it commits. The next position is read by
one statement and written by a later one, with no lock in between, so two calls under one parent can
come to the same position.

## Main definitions

* `appendStep`, `appendTurn` — the statements of a call, and the calls taking turns
* `KeepsOrder` — what is asked of the listing under one parent
* `Undisturbed` — nobody has added an item since this call read the positions

## Main results

* `append_alone` — a call that nobody interrupts is the action
* `listed_listLessonsForCourse` — where the order of the lessons shows
* `keepsOrder_iff` — exactly when the order under a parent is kept
-/

namespace LampLight

open Interleave (Config turn)
open Machine (run Meets)
open Positions (Grown Lists)

/-! ### The statements of a call -/

/-- How far a call has come. The positions are those its query went over. -/
inductive AppendPhase
  | start
  | resolved (courseId : Uuid)
  | allowed
  | counted (seen : List ℤ)
  | inserted (seen : List ℤ)
  | logged (seen : List ℤ)
  | committed (seen : List ℤ)
  | ended
deriving DecidableEq

/-- The next statement of a call. What is inserted is checked against the committed rows, when it is
written and again when it is committed. -/
def appendStep (call : AppendCall) (phase : AppendPhase) (db : Database) :
    AppendPhase × Database :=
  match phase with
  | .start =>
    if call.stored = "" then (.ended, db)
    else
      match call.course? db with
      | none => (.ended, db)
      | some courseId => (.resolved courseId, db)
  | .resolved courseId =>
    -- No call writes to what the predicate reads, so its queries are one statement here.
    if (decideCourseAuthoring call.scope db call.ctx courseId).allowed then (.allowed, db)
    else (.ended, db)
  | .allowed => (.counted (call.orders db), db)
  | .counted seen =>
    match call.insert db seen with
    | .ok _ => (.inserted seen, db)
    | .error _ => (.ended, db)
  | .inserted seen =>
    match call.write db seen with
    | .ok _ => (.logged seen, db)
    | .error _ => (.ended, db)
  | .logged seen =>
    match call.write db seen with
    | .ok db' => (.committed seen, db')
    | .error _ => (.ended, db)
  | .committed seen => (.committed seen, db)
  | .ended => (.ended, db)

/-- A call that nobody interrupts is the action. -/
theorem append_alone (call : AppendCall) (db : Database) :
    ((Function.uncurry (appendStep call))^[6] (.start, db)).2 = call.next db := by
  have hended : ∀ n : ℕ, (Function.uncurry (appendStep call))^[n] (.ended, db) = (.ended, db) :=
    fun n => Function.iterate_fixed rfl n
  rw [next_eq, Function.iterate_succ_apply, Function.uncurry_apply_pair, appendStep]
  split_ifs with htitle
  · rw [hended]
  · cases call.course? db with
    | none => rw [hended]
    | some courseId =>
      dsimp only
      rw [Function.iterate_succ_apply, Function.uncurry_apply_pair, appendStep]
      split_ifs with hallowed
      · rw [Function.iterate_succ_apply, Function.uncurry_apply_pair, appendStep,
          Function.iterate_succ_apply, Function.uncurry_apply_pair, appendStep]
        cases hwrite : call.write db (call.orders db) with
        | error e =>
          cases call.insert db (call.orders db) with
          | error e => rw [hended]
          | ok mid =>
            dsimp only
            rw [Function.iterate_succ_apply, Function.uncurry_apply_pair, appendStep, hwrite,
              hended]
        | ok db' =>
          obtain ⟨mid, hmid, -⟩ := write_ok hwrite
          rw [hmid]
          dsimp only
          rw [Function.iterate_succ_apply, Function.uncurry_apply_pair, appendStep, hwrite,
            Function.iterate_one, Function.uncurry_apply_pair, appendStep, hwrite]
      · rw [hended]

/-! ### Places -/

/-- What items hang off. -/
inductive Parent
  | course (courseId : Uuid)
  | module (moduleId : Uuid)
deriving DecidableEq

/-- Where something is appended: the modules of a course, or the lessons of a module. -/
structure Place where
  tenantId : Uuid
  parent : Parent
deriving DecidableEq

namespace Place

/-- The items under a parent, with their positions. -/
def items (db : Database) (q : Place) : List (Uuid × ℤ) :=
  match q.parent with
  | .course courseId => (db.modules.filter fun m =>
      m.tenantId = q.tenantId && m.courseId = courseId).map fun m => (m.id, m.sortOrder)
  | .module moduleId => (db.lessons.filter fun l =>
      l.tenantId = q.tenantId && l.moduleId = moduleId).map fun l => (l.id, l.sortOrder)

/-- The positions that are taken there. -/
def orders (db : Database) (q : Place) : List ℤ := (q.items db).map Prod.snd

/-- The items in the order of their positions, as a query with `order by sort_order` may return
them. -/
def Listed (db : Database) (q : Place) (l : List (Uuid × ℤ)) : Prop := Lists Prod.snd (q.items db) l

end Place

namespace AppendCall

/-- Where a call appends. -/
def place (call : AppendCall) : Place where
  tenantId := call.ctx.tenantId
  parent :=
    match call.target with
    | .course courseId => .course courseId
    | .module moduleId _ => .module moduleId

/-- The item a call adds to those at these positions. -/
def item (call : AppendCall) (seen : List ℤ) : Uuid × ℤ := (call.id, nextSortOrder seen)

end AppendCall

variable {call : AppendCall} {db db' : Database} {phase : AppendPhase} {seen : List ℤ} {q : Place}

theorem orders_place (db : Database) (call : AppendCall) :
    call.orders db = call.place.orders db := by
  obtain ⟨ctx, now, target, title, id⟩ := call
  cases target with
  | course courseId =>
    simp only [AppendCall.orders, AppendCall.place, Place.orders, Place.items, List.map_map]
    rfl
  | module moduleId isFreePreview =>
    simp only [AppendCall.orders, AppendCall.place, Place.orders, Place.items, List.map_map]
    rfl

/-- A commit adds its item under its parent and nothing anywhere else. -/
theorem items_write (h : call.write db seen = .ok db') (q : Place) :
    q.items db' = q.items db ++ if call.place = q then [call.item seen] else [] := by
  obtain ⟨mid, hmid, rfl⟩ := write_ok h
  have hrow := insert_ok hmid
  obtain ⟨tenantId, parent⟩ := q
  cases htarget : call.target with
  | course courseId =>
    rw [htarget] at hrow
    subst hrow
    cases parent with
    | course courseId' =>
      simp only [Place.items, List.filter_append, List.map_append]
      congr 1
      by_cases hplace : call.ctx.tenantId = tenantId ∧ courseId = courseId'
      · simp [AppendCall.place, AppendCall.item, htarget, hplace]
      · simp [AppendCall.place, htarget, hplace]
    | module moduleId => simp [Place.items, AppendCall.place, htarget]
  | module moduleId isFreePreview =>
    rw [htarget] at hrow
    subst hrow
    cases parent with
    | course courseId => simp [Place.items, AppendCall.place, htarget]
    | module moduleId' =>
      simp only [Place.items, List.filter_append, List.map_append]
      congr 1
      by_cases hplace : call.ctx.tenantId = tenantId ∧ moduleId = moduleId'
      · simp [AppendCall.place, AppendCall.item, htarget, hplace]
      · simp [AppendCall.place, htarget, hplace]

/-- The moves of a call that leave the rows alone. -/
inductive Silent (call : AppendCall) (db : Database) : AppendPhase → AppendPhase → Prop
  | resolves (phase : AppendPhase) (courseId : Uuid) : Silent call db phase (.resolved courseId)
  | allows (phase : AppendPhase) : Silent call db phase .allowed
  | ends (phase : AppendPhase) : Silent call db phase .ended
  | counts : Silent call db .allowed (.counted (call.orders db))
  | inserts (seen : List ℤ) : Silent call db (.counted seen) (.inserted seen)
  | logs (seen : List ℤ) : Silent call db (.inserted seen) (.logged seen)
  | rests (seen : List ℤ) : Silent call db (.committed seen) (.committed seen)

/-- The only statement others see is a commit. -/
theorem appendStep_cases (call : AppendCall) (phase : AppendPhase) (db : Database) :
    ((∀ seen db', phase = .logged seen → call.write db seen ≠ .ok db') ∧
        ∃ phase', Silent call db phase phase' ∧ appendStep call phase db = (phase', db)) ∨
      ∃ seen db', phase = .logged seen ∧ call.write db seen = .ok db' ∧
        appendStep call phase db = (.committed seen, db') := by
  cases phase with
  | logged seen =>
    cases hwrite : call.write db seen with
    | error e =>
      refine Or.inl ⟨?_, _, .ends _, by simp [appendStep, hwrite]⟩
      rintro seen' db' ⟨⟩
      simp [hwrite]
    | ok db' => exact Or.inr ⟨seen, db', rfl, hwrite, by simp [appendStep, hwrite]⟩
  | start =>
    refine Or.inl ⟨by simp, ?_⟩
    simp only [appendStep]
    split_ifs
    · exact ⟨_, .ends _, rfl⟩
    · split
      · exact ⟨_, .ends _, rfl⟩
      · exact ⟨_, .resolves _ _, rfl⟩
  | resolved courseId =>
    refine Or.inl ⟨by simp, ?_⟩
    simp only [appendStep]
    split_ifs
    · exact ⟨_, .allows _, rfl⟩
    · exact ⟨_, .ends _, rfl⟩
  | allowed => exact Or.inl ⟨by simp, _, .counts, rfl⟩
  | counted seen =>
    refine Or.inl ⟨by simp, ?_⟩
    simp only [appendStep]
    split
    · exact ⟨_, .inserts seen, rfl⟩
    · exact ⟨_, .ends _, rfl⟩
  | inserted seen =>
    refine Or.inl ⟨by simp, ?_⟩
    simp only [appendStep]
    split
    · exact ⟨_, .logs seen, rfl⟩
    · exact ⟨_, .ends _, rfl⟩
  | committed seen => exact Or.inl ⟨by simp, _, .rests seen, rfl⟩
  | ended => exact Or.inl ⟨by simp, _, .ends _, rfl⟩

theorem items_appendStep (call : AppendCall) (phase : AppendPhase) (db : Database) (q : Place) :
    q.items db <+: q.items (appendStep call phase db).2 := by
  rcases appendStep_cases call phase db with ⟨-, phase', -, hstep⟩ | ⟨seen, db', -, hwrite, hstep⟩
  · rw [hstep]
  · rw [hstep, items_write hwrite q]
    exact List.prefix_append _ _

theorem orders_write (h : call.write db seen = .ok db') (hplace : call.place = q) :
    q.orders db' = q.orders db ++ [nextSortOrder seen] := by
  rw [Place.orders, items_write h q, if_pos hplace, List.map_append]
  rfl

/-- The listing of a course has the lessons of each of its modules in the order of their
positions. -/
theorem listed_listLessonsForCourse {scope : TenantScope} (hdb : db.Consistent) {m : ModuleRow}
    (hm : m ∈ db.modules) (htenant : m.tenantId = scope.tenantId) :
    ∃ l, Place.Listed db ⟨scope.tenantId, .module m.id⟩ l ∧
      ((listLessonsForCourse scope db m.courseId).filter fun found => found.moduleId = m.id).map
        (·.id) = l.map Prod.fst := by
  let wanted (x : (LessonRow × ModuleRow) × CourseRow) : Bool := x.1.1.moduleId = m.id
  let position (x : (LessonRow × ModuleRow) × CourseRow) : ℤ := x.1.1.sortOrder
  let rows := (lessonsWithCourse scope db).filter fun x =>
    x.1.1.tenantId = scope.tenantId && x.1.2.courseId = m.courseId
  have hmodule : ∀ x ∈ (Table.orderBy position rows).filter wanted, x.1.2 = m := by
    intro x hx
    obtain ⟨hx, hwanted⟩ := List.mem_filter.mp hx
    exact module_of_mem_lessonsWithCourse hdb hm (List.mem_filter.mp (Table.mem_orderBy.mp hx)).1
      (of_decide_eq_true hwanted)
  have hitems : Place.items db ⟨scope.tenantId, .module m.id⟩
      = (rows.filter wanted).map fun x => (x.1.1.id, x.1.1.sortOrder) := by
    have hrows : rows.filter wanted = (lessonsWithCourse scope db).filter fun x =>
        x.1.1.tenantId = scope.tenantId && x.1.1.moduleId = m.id := by
      rw [List.filter_filter]
      refine List.filter_congr fun x hx => ?_
      by_cases hid : x.1.1.moduleId = m.id
      · simp [wanted, hid, module_of_mem_lessonsWithCourse hdb hm hx hid]
      · simp [wanted, hid]
    rw [hrows]
    show (db.lessons.filter fun l => l.tenantId = scope.tenantId && l.moduleId = m.id).map _ = _
    rw [← map_filter_lessonsWithCourse hdb hm htenant, List.map_map]
    rfl
  refine ⟨((Table.orderBy position rows).filter wanted).map
    fun x => (x.1.1.id, x.1.1.sortOrder), ⟨?_, ?_⟩, ?_⟩
  · rw [hitems]
    exact ((Table.perm_orderBy position rows).filter wanted).map _
  · rw [List.pairwise_map]
    exact (Table.pairwise_orderBy position rows).filter wanted
  · -- the rows of one module share the leading key
    have hstable : (Table.orderBy (fun x => x.1.2.sortOrder) (Table.orderBy position rows)).filter
        wanted = (Table.orderBy position rows).filter wanted :=
      Table.filter_orderBy_of_key_eq fun a ha b hb => by rw [hmodule a ha, hmodule b hb]
    rw [List.map_map, ← hstable]
    show ((List.map _ _).filter _).map _ = _
    rw [List.filter_map, List.map_map]
    rfl

/-! ### What is asked -/

section Runs

variable {ι : Type*} [DecidableEq ι]

/-- The calls with their database, none of which has begun. -/
def Database.appending (db : Database) : Config ι AppendPhase Database where
  phase _ := .start
  shared := db

/-- The call `i` moves. -/
def appendTurn (calls : ι → AppendCall) :
    Config ι AppendPhase Database → ι → Config ι AppendPhase Database :=
  turn fun i => appendStep (calls i)

/-- What a schedule leaves. -/
def appended (calls : ι → AppendCall) (db : Database) (schedule : List ι) :
    Config ι AppendPhase Database :=
  run (appendTurn calls) db.appending schedule

/-- The listing under one parent after a schedule: positions are distinct, an item that a call has
added comes after every item that was there before the call began, and the items of any earlier
moment are in the order in which they were then. -/
structure KeepsOrder (calls : ι → AppendCall) (db : Database) (q : Place) (schedule : List ι) :
    Prop where
  distinct : (q.orders (appended calls db schedule).shared).Nodup
  added : ∀ earlier, earlier <+: schedule → ∀ i seen, (calls i).place = q →
    (appended calls db earlier).phase i = .start →
    (appended calls db schedule).phase i = .committed seen →
    (calls i).item seen ∈ q.items (appended calls db schedule).shared ∧
      ∀ old ∈ q.items (appended calls db earlier).shared,
        ∀ l, q.Listed (appended calls db schedule).shared l →
          [old, (calls i).item seen].Sublist l
  kept : ∀ earlier, earlier <+: schedule → ∀ l₀ l,
    q.Listed (appended calls db earlier).shared l₀ →
    q.Listed (appended calls db schedule).shared l → l₀.Sublist l

/-- A call that commits finds the positions as its query has seen them: nobody has added an item
under the parent in between. -/
def Undisturbed (call : AppendCall) (phase : AppendPhase) (db : Database) : Prop :=
  match phase with
  | .logged seen => (call.write db seen).isOk = true → call.orders db = seen
  | _ => True

instance : ∀ (call : AppendCall) (phase : AppendPhase) (db : Database),
    Decidable (Undisturbed call phase db)
  | _, .logged _, _ => inferInstanceAs (Decidable (_ → _))
  | _, .start, _ | _, .resolved _, _ | _, .allowed, _ | _, .counted _, _ | _, .inserted _, _
  | _, .committed _, _ | _, .ended, _ => .isTrue trivial

theorem undisturbed_logged (h : call.write db seen = .ok db') :
    Undisturbed call (.logged seen) db ↔ call.orders db = seen := by
  simp [Undisturbed, h, Except.isOk, Except.toBool]

theorem undisturbed_of_no_commit
    (h : ∀ seen db', phase = .logged seen → call.write db seen ≠ .ok db') :
    Undisturbed call phase db := by
  cases phase with
  | logged seen =>
    cases hwrite : call.write db seen with
    | error e => simp [Undisturbed, hwrite, Except.isOk, Except.toBool]
    | ok db' => exact absurd hwrite (h seen db' rfl)
  | _ => trivial

/-! ### Distinct positions -/

/-- What has become of the positions a call has seen. -/
def Sees (q : Place) (phase : AppendPhase) (db : Database) : Prop :=
  match phase with
  | .counted seen => Grown nextSortOrder seen (q.orders db)
  | .inserted seen => Grown nextSortOrder seen (q.orders db)
  | .logged seen => Grown nextSortOrder seen (q.orders db)
  | _ => True

/-- The invariant of runs in which nobody is disturbed. -/
def Untied (calls : ι → AppendCall) (q : Place) (c : Config ι AppendPhase Database) : Prop :=
  (q.orders c.shared).Nodup ∧ ∀ i, (calls i).place = q → Sees q (c.phase i) c.shared

variable {calls : ι → AppendCall} {c : Config ι AppendPhase Database} {i : ι}

/-- A turn leaves the positions distinct exactly when it does not commit over somebody else. -/
theorem distinct_turn_iff (hc : Untied calls q c) :
    (q.orders (appendTurn calls c i).shared).Nodup ↔
      ((calls i).place = q → Undisturbed (calls i) (c.phase i) c.shared) := by
  have hshared : (appendTurn calls c i).shared = (appendStep (calls i) (c.phase i) c.shared).2 :=
    rfl
  rw [hshared]
  rcases appendStep_cases (calls i) (c.phase i) c.shared with
    ⟨hnone, phase', -, hstep⟩ | ⟨seen, db', hphase, hwrite, hstep⟩
  · rw [hstep]
    exact iff_of_true hc.1 fun _ => undisturbed_of_no_commit hnone
  · rw [hstep]
    by_cases hplace : (calls i).place = q
    · have hgrown : Grown nextSortOrder seen (q.orders c.shared) := by
        have := hc.2 i hplace
        rwa [hphase] at this
      have horders : (calls i).orders c.shared = q.orders c.shared := by
        rw [orders_place, hplace]
      rw [orders_write hwrite hplace, hphase, undisturbed_logged hwrite, horders]
      constructor
      · exact fun hnd _ => hgrown.eq_of_nodup hnd
      · intro hundisturbed
        rw [← hundisturbed hplace]
        exact Positions.nodup_append_next (fun _ _ => lt_nextSortOrder) hc.1
    · have hitems : q.orders db' = q.orders c.shared := by
        rw [Place.orders, items_write hwrite q, if_neg hplace, List.append_nil]
        rfl
      rw [hitems]
      exact iff_of_true hc.1 fun h => absurd h hplace

/-- A step of a call keeps what it knows about the positions it has seen. -/
theorem sees_appendStep (hplace : call.place = q) (h : Sees q phase db) :
    Sees q (appendStep call phase db).1 (appendStep call phase db).2 := by
  rcases appendStep_cases call phase db with ⟨-, phase', hmove, hstep⟩ | ⟨seen, db', -, -, hstep⟩
  · rw [hstep]
    cases hmove with
    | counts =>
      show Grown nextSortOrder (call.orders db) (q.orders db)
      rw [orders_place, hplace]
      exact Grown.refl _ _
    | inserts seen => exact h
    | logs seen => exact h
    | _ => trivial
  · rw [hstep]
    trivial

theorem untied_turn (hc : Untied calls q c)
    (h : (calls i).place = q → Undisturbed (calls i) (c.phase i) c.shared) :
    Untied calls q (appendTurn calls c i) := by
  refine ⟨(distinct_turn_iff hc).mpr h, ?_⟩
  -- the positions stay as they are, or the next one is added to them
  have hgrows : q.orders (appendStep (calls i) (c.phase i) c.shared).2 = q.orders c.shared ∨
      q.orders (appendStep (calls i) (c.phase i) c.shared).2
        = q.orders c.shared ++ [nextSortOrder (q.orders c.shared)] := by
    rcases appendStep_cases (calls i) (c.phase i) c.shared with
      ⟨-, phase', -, hstep⟩ | ⟨seen, db', hphase, hwrite, hstep⟩
    · rw [hstep]
      exact Or.inl rfl
    · rw [hstep]
      by_cases hplace : (calls i).place = q
      · right
        have hseen := h hplace
        rw [hphase, undisturbed_logged hwrite, orders_place, hplace] at hseen
        rw [orders_write hwrite hplace, hseen]
      · left
        rw [Place.orders, items_write hwrite q, if_neg hplace, List.append_nil]
        rfl
  refine Interleave.turn_invariant (J := fun j p s => (calls j).place = q → Sees q p s)
    (fun hplace => sees_appendStep hplace (hc.2 i hplace)) (fun j p hj hplace => ?_) hc.2
  have hsees := hj hplace
  have hlater : ∀ seen, Grown nextSortOrder seen (q.orders c.shared) →
      Grown nextSortOrder seen (q.orders (appendStep (calls i) (c.phase i) c.shared).2) := by
    intro seen hgrown
    rcases hgrows with hsame | hnext
    · rw [hsame]
      exact hgrown
    · rw [hnext]
      exact hgrown.append
  cases p with
  | counted seen => exact hlater seen hsees
  | inserted seen => exact hlater seen hsees
  | logged seen => exact hlater seen hsees
  | _ => trivial

/-! ### The order of the items -/

theorem items_run (c : Config ι AppendPhase Database) (q : Place) (schedule : List ι) :
    q.items c.shared <+: q.items (run (appendTurn calls) c schedule).shared :=
  Machine.run_invariant
    (I := fun d : Config ι AppendPhase Database => q.items c.shared <+: q.items d.shared)
    (fun d i hd => hd.trans (items_appendStep (calls i) (d.phase i) d.shared q))
    List.prefix_rfl schedule

/-- What a call has done to the positions that were there when it began. -/
def Clears (old : List ℤ) (q : Place) (call : AppendCall) (phase : AppendPhase) (db : Database) :
    Prop :=
  match phase with
  | .counted seen => old ⊆ seen
  | .inserted seen => old ⊆ seen
  | .logged seen => old ⊆ seen
  | .committed seen => old ⊆ seen ∧ call.item seen ∈ q.items db
  | _ => True

theorem clears_appendStep {old : List ℤ} (hplace : call.place = q) (hold : old ⊆ q.orders db)
    (h : Clears old q call phase db) :
    Clears old q call (appendStep call phase db).1 (appendStep call phase db).2 := by
  rcases appendStep_cases call phase db with
    ⟨-, phase', hmove, hstep⟩ | ⟨seen, db', rfl, hwrite, hstep⟩
  · rw [hstep]
    cases hmove with
    | counts =>
      show old ⊆ call.orders db
      rw [orders_place, hplace]
      exact hold
    | inserts seen => exact h
    | logs seen => exact h
    | rests seen => exact h
    | _ => trivial
  · rw [hstep]
    refine ⟨h, ?_⟩
    rw [items_write hwrite q, if_pos hplace]
    exact List.mem_append_right _ (List.mem_singleton.mpr rfl)

/-- A call that had not begun comes to a position beyond all that were there. -/
theorem clears_run (hplace : (calls i).place = q) (hstart : c.phase i = .start)
    (schedule : List ι) :
    Clears (q.orders c.shared) q (calls i) ((run (appendTurn calls) c schedule).phase i)
      (run (appendTurn calls) c schedule).shared := by
  let knows (j : ι) (p : AppendPhase) (s : Database) : Prop :=
    q.items c.shared <+: q.items s ∧ (j = i → Clears (q.orders c.shared) q (calls i) p s)
  have hrun : ∀ j, knows j ((run (appendTurn calls) c schedule).phase j)
      (run (appendTurn calls) c schedule).shared := by
    refine Interleave.run_invariant (J := knows) (G := fun s s' => q.items s <+: q.items s')
      ?_ ?_ ?_ ?_ schedule
    · exact fun j p s _ => items_appendStep (calls j) p s q
    · rintro j p s ⟨hold, hclears⟩
      refine ⟨hold.trans (items_appendStep (calls j) p s q), ?_⟩
      rintro rfl
      have horders : q.orders c.shared ⊆ q.orders s := List.map_subset _ hold.subset
      exact clears_appendStep hplace horders (hclears rfl)
    · rintro j p s s' hgrows ⟨hold, hclears⟩
      refine ⟨hold.trans hgrows, fun hj => ?_⟩
      have hp := hclears hj
      cases p with
      | committed seen => exact ⟨hp.1, hgrows.subset hp.2⟩
      | _ => exact hp
    · intro j
      refine ⟨List.prefix_rfl, ?_⟩
      rintro rfl
      rw [hstart]
      trivial
  exact (hrun i).2 rfl

/-- **When the order is kept.** Under a parent whose positions are distinct, and whatever calls are
made at the same time, the order is kept at every moment of a schedule exactly when every call under
that parent commits before anybody else has added an item since its query. -/
theorem keepsOrder_iff (calls : ι → AppendCall) (db : Database) (q : Place)
    (hdistinct : (q.orders db).Nodup) (schedule : List ι) :
    (∀ before, before <+: schedule → KeepsOrder calls db q before) ↔
      Meets (appendTurn calls)
        (fun c i => (calls i).place = q → Undisturbed (calls i) (c.phase i) c.shared)
        db.appending schedule := by
  have huntied : Untied calls q (db.appending : Config ι AppendPhase Database) :=
    ⟨hdistinct, fun _ _ => trivial⟩
  have hsteps :
      Meets (appendTurn calls) (fun c i => (q.orders (appendTurn calls c i).shared).Nodup)
        db.appending schedule ↔
      Meets (appendTurn calls)
        (fun c i => (calls i).place = q → Undisturbed (calls i) (c.phase i) c.shared)
        db.appending schedule :=
    Machine.Meets.iff_of_invariant (I := Untied calls q)
      (fun _ _ hc _ h => untied_turn hc h) (fun _ _ hc _ => distinct_turn_iff hc) huntied
      (Machine.meets_true _ _ schedule)
  have hprefixes : (∀ before, before <+: schedule →
      (q.orders (appended calls db before).shared).Nodup) ↔
      Meets (appendTurn calls) (fun c i => (q.orders (appendTurn calls c i).shared).Nodup)
        db.appending schedule :=
    (Machine.meets_step_iff (D := fun c : Config ι AppendPhase Database =>
      (q.orders c.shared).Nodup)).symm.trans (and_iff_right hdistinct)
  rw [← hsteps, ← hprefixes]
  constructor
  · exact fun h before hbefore => (h before hbefore).distinct
  · intro h before hbefore
    have hlater : ∀ earlier, earlier <+: before → ∃ rest,
        appended calls db before = run (appendTurn calls) (appended calls db earlier) rest := by
      rintro earlier ⟨rest, rfl⟩
      exact ⟨rest, Machine.run_append _ _ _ _⟩
    refine ⟨h before hbefore, ?_, ?_⟩
    · intro earlier hearlier i seen hplace hstart hcommitted
      obtain ⟨rest, hrest⟩ := hlater earlier hearlier
      have hclears := clears_run hplace hstart rest
      rw [← hrest, hcommitted] at hclears
      refine ⟨hclears.2, fun old hold l hl => ?_⟩
      have hthere : old ∈ q.items (appended calls db before).shared := by
        rw [hrest]
        exact (items_run _ q rest).subset hold
      exact hl.pair_sublist hthere hclears.2
        (lt_nextSortOrder (hclears.1 (List.mem_map_of_mem hold)))
    · intro earlier hearlier l₀ l hl₀ hl
      obtain ⟨rest, hrest⟩ := hlater earlier hearlier
      refine hl₀.sublist hl ?_ (h before hbefore)
      rw [hrest]
      exact (items_run _ q rest).sublist

end Runs

/-! ### Two authors at once -/

section Example

/-- Two modules are added to the course of `workshop`. -/
def twoModules (i : ℕ) : AppendCall where
  ctx := ⟨1, 2⟩
  now := 0
  target := .course 3
  title := "Exercises"
  id := if i = 0 then 5 else 6

/-- The course of `workshop`, with its modules. -/
def workshopCourse : Place := ⟨1, .course 3⟩

/-- The second call reads the positions after the first has committed. -/
theorem keepsOrder_iff_one_by_one :
    KeepsOrder twoModules workshop workshopCourse [0, 0, 0, 0, 0, 0, 1, 1, 1, 1, 1, 1] :=
  (keepsOrder_iff twoModules workshop workshopCourse (by decide)
    [0, 0, 0, 0, 0, 0, 1, 1, 1, 1, 1, 1]).mpr (by decide) _ List.prefix_rfl

/-- Both calls read the positions first: the two new modules have the same position. -/
theorem order_lost : ¬ ∀ before, before <+: [0, 0, 0, 1, 1, 1, 0, 0, 0, 1, 1, 1] →
    KeepsOrder twoModules workshop workshopCourse before := by
  intro h
  have hdistinct := (h _ List.prefix_rfl).distinct
  exact absurd hdistinct (by decide)

end Example

end LampLight
