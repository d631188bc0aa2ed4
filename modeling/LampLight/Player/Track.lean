import LampLight.Foundation.JsNumber
import LampLight.Schema

/-!
# Tracks and the small decisions of the player

What the player plays, which speed comes next, whether a stored position is worth resuming from, and
whether a key press is the player's.

Positions and speeds are doubles. A product or a difference of two of them is rounded, which is what
`toDouble` stands for.

## Main results

* `nextSpeed_mem` — whatever the speed was, the next one is on the list
* `shouldResumeFrom_intCast` — a whole second is resumed from when it is near neither end
-/

namespace LampLight

open Js (Number toDouble)

/-- What the player plays. -/
inductive PlayableKind
  | audio
  | video
deriving DecidableEq

/-- What the player is given to play. -/
structure Track where
  lessonId : Uuid
  resourceId : Uuid
  title : String
  courseTitle : String
  href : String
  kind : PlayableKind
  url : String
  filename : Option String
  isDownloadable : Bool
deriving DecidableEq

/-! ### Speeds -/

/-- The speeds the player offers. -/
def SPEEDS : List ℚ := [3 / 4, 1, 5 / 4, 3 / 2, 7 / 4, 2]

/-- A speed that is not on the list has index -1, so the first one follows it. -/
def nextSpeed (current : ℚ) : ℚ :=
  let next := (SPEEDS.findIdx? fun speed => speed = current).elim 0 (· + 1)
  SPEEDS[next % SPEEDS.length]?.getD 1

theorem nextSpeed_mem (current : ℚ) : nextSpeed current ∈ SPEEDS := by
  rw [nextSpeed]
  generalize (SPEEDS.findIdx? fun speed => speed = current).elim 0 (· + 1) = next
  have hlt : next % SPEEDS.length < SPEEDS.length := Nat.mod_lt _ (by decide)
  rw [List.getElem?_eq_getElem hlt, Option.getD_some]
  exact List.getElem_mem hlt

/-- The button goes through all of them and around again. -/
theorem nextSpeed_cycle : ∀ speed ∈ SPEEDS, nextSpeed^[SPEEDS.length] speed = speed := by
  decide +kernel

/-! ### Positions -/

/-- How far a skip goes. -/
def SKIP_SECONDS : ℚ := 10

/-- Where to start, given what the server remembers and how long the recording is known to be. -/
def shouldResumeFrom (storedSeconds : Number) (durationSeconds : Option Number) : ℤ :=
  match storedSeconds with
  | .finite stored =>
    if stored < 15 then 0
    else
      match durationSeconds with
      | some (.finite duration) =>
        if duration ≠ 0 ∧ toDouble (duration - 15) ≤ stored then 0 else ⌊stored⌋
      | _ => ⌊stored⌋
  | _ => 0

/-- Near neither end: not in the first seconds, and not in the last ones of a recording whose length
is known. -/
def WorthResuming (n : ℤ) (duration : Option ℚ) : Prop :=
  15 ≤ n ∧ ∀ d ∈ duration, d = 0 ∨ (n : ℚ) < toDouble (d - 15)

instance (n : ℤ) (duration : Option ℚ) : Decidable (WorthResuming n duration) :=
  inferInstanceAs (Decidable (_ ∧ _))

/-- Somebody resumes from the second that was stored, or from the start when that is near one of the
ends. -/
theorem shouldResumeFrom_intCast (n : ℤ) (duration : Option ℚ) :
    shouldResumeFrom (.finite n) (duration.map .finite)
      = if WorthResuming n duration then n else 0 := by
  have hcast : (n : ℚ) < 15 ↔ n < 15 := by exact_mod_cast Iff.rfl
  cases duration with
  | none =>
    simp only [shouldResumeFrom, Option.map_none, hcast, Int.floor_intCast, WorthResuming,
      Option.not_mem_none, false_imp_iff, implies_true, and_true]
    split_ifs <;> omega
  | some d =>
    have hend : (d = 0 ∨ (n : ℚ) < toDouble (d - 15)) ↔ ¬(d ≠ 0 ∧ toDouble (d - 15) ≤ n) := by
      rw [not_and_or, not_not, not_le]
    simp only [shouldResumeFrom, Option.map_some, hcast, Int.floor_intCast, WorthResuming,
      Option.mem_some_iff, forall_eq', hend]
    by_cases hshort : n < 15
    · rw [if_pos hshort, if_neg fun h => absurd h.1 (by omega)]
    · rw [if_neg hshort]
      by_cases hnear : d ≠ 0 ∧ toDouble (d - 15) ≤ n
      · rw [if_pos hnear, if_neg fun h => h.2 hnear]
      · rw [if_neg hnear, if_pos ⟨by omega, hnear⟩]

/-- How much of a recording makes a lesson completed. -/
def COMPLETION_RATIO : ℚ := toDouble (95 / 100)

/-- Enough of a recording has been heard. -/
def isComplete (positionSeconds : ℚ) (durationSeconds : Option Number) : Bool :=
  match durationSeconds with
  | some (.finite duration) =>
    duration ≠ 0 && toDouble (duration * COMPLETION_RATIO) ≤ positionSeconds
  | _ => false

/-! ### Keys -/

/-- What a key press tells about itself, and about the element it went to. -/
structure KeyPress where
  key : String
  ctrlKey : Bool := false
  metaKey : Bool := false
  altKey : Bool := false
  isContentEditable : Bool := false
  tagName : Option String := none

/-- Modifier combinations are the browser's, and what goes into a field is the field's. -/
def isPlayerShortcut (event : KeyPress) : Bool :=
  let tag := event.tagName.map fun name => Js.toLowerCase name.toList
  !(event.ctrlKey || event.metaKey || event.altKey) && !event.isContentEditable &&
    !(tag = some "input".toList || tag = some "textarea".toList || tag = some "select".toList) &&
    [" ", "ArrowLeft", "ArrowRight", "k", "j", "l"].contains event.key

end LampLight
