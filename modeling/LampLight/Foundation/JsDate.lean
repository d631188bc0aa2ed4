import LampLight.Foundation.JsText
import Mathlib.Data.Int.Init
import Mathlib.Data.Nat.ModEq
import Mathlib.Logic.Function.Basic
import Mathlib.Tactic.NormNum

/-!
# Dates and their text

A date is an instant in milliseconds, within a hundred million days of the epoch. `toISOString`
prints it in the proleptic Gregorian calendar at fixed widths, so that the text tells the instant.

The calendar day is computed with the year starting in March: the leap day is then the last of its
year, and a month is found from the day of the year by one division.

## Main results

* `daysOfCivil_civilOfDays` — the calendar tells the day
* `toISOString_inj` — the text tells the instant
-/

namespace Js

/-! ### The calendar -/

/-- Days in 400 years. -/
def DAYS_PER_ERA : ℤ := 146097

/-- From the first of March of the year 0 to the epoch. -/
def EPOCH_OFFSET : ℤ := 719468

/-- A day of the proleptic Gregorian calendar. -/
@[ext] structure CivilDate where
  year : ℤ
  month : ℤ
  day : ℤ
deriving DecidableEq

/-- The year within an era, of a day of the era: by centuries, by fours and by ones. The last
century, and the last year of four, is a day longer than the others. -/
def yearOfEra (doe : ℤ) : ℤ :=
  let century := min (doe / 36524) 3
  let rest := doe - 36524 * century
  100 * century + 4 * (rest / 1461) + min (rest % 1461 / 365) 3

/-- The days of an era before a year of it. -/
def daysBeforeYear (yoe : ℤ) : ℤ := 365 * yoe + yoe / 4 - yoe / 100

/-- The days of a year, from March on, before a month of it. -/
def daysBeforeMonth (mp : ℤ) : ℤ := (153 * mp + 2) / 5

/-- The month of a day of the year, counted from March. -/
def monthIndex (doy : ℤ) : ℤ := (5 * doy + 2) / 153

/-- The number of a month, and back. -/
def monthOf (mp : ℤ) : ℤ := if mp < 10 then mp + 3 else mp - 9

/-- Months counted from March, so that a leap day ends its year. -/
def marchMonth (month : ℤ) : ℤ := if month > 2 then month - 3 else month + 9

/-- January and February belong to the next calendar year. -/
def newYear (month : ℤ) : ℤ := if month ≤ 2 then 1 else 0

/-- The period of 400 years that a day falls in. -/
def eraOf (days : ℤ) : ℤ := (days + EPOCH_OFFSET) / DAYS_PER_ERA

/-- A day counted from the start of its era. -/
def dayOfEra (days : ℤ) : ℤ := (days + EPOCH_OFFSET) % DAYS_PER_ERA

/-- A day of an era counted from the first of March before it. -/
def dayOfYear (doe : ℤ) : ℤ := doe - daysBeforeYear (yearOfEra doe)

/-- The calendar date of a day counted from the epoch. -/
def civilOfDays (days : ℤ) : CivilDate :=
  let doe := dayOfEra days
  let mp := monthIndex (dayOfYear doe)
  { year := yearOfEra doe + 400 * eraOf days + newYear (monthOf mp)
    month := monthOf mp
    day := dayOfYear doe - daysBeforeMonth mp + 1 }

/-- The day of a calendar date, counted from the epoch. -/
def daysOfCivil (date : CivilDate) : ℤ :=
  let year := date.year - newYear date.month
  DAYS_PER_ERA * (year / 400) + daysBeforeYear (year % 400)
    + daysBeforeMonth (marchMonth date.month) + date.day - 1 - EPOCH_OFFSET

/-- A day of an era lies in a year of the era, at a place in it. -/
theorem yearOfEra_bounds {doe : ℤ} (h : 0 ≤ doe) (h' : doe < DAYS_PER_ERA) :
    0 ≤ yearOfEra doe ∧ yearOfEra doe < 400 ∧ 0 ≤ doe - daysBeforeYear (yearOfEra doe) ∧
      doe - daysBeforeYear (yearOfEra doe) ≤ 365 := by
  simp only [yearOfEra, DAYS_PER_ERA] at *
  generalize hc : min (doe / 36524) 3 = century
  obtain ⟨rest, hrest⟩ : ∃ rest, rest = doe - 36524 * century := ⟨_, rfl⟩
  rw [← hrest]
  have hcentury : 0 ≤ century ∧ century ≤ 3 ∧ 0 ≤ rest ∧ rest ≤ 36524 := by omega
  obtain ⟨four, hfour⟩ : ∃ four, four = rest / 1461 := ⟨_, rfl⟩
  obtain ⟨odd, hodd⟩ : ∃ odd, odd = rest % 1461 := ⟨_, rfl⟩
  rw [← hfour, ← hodd]
  have hparts : rest = 1461 * four + odd ∧ 0 ≤ four ∧ four ≤ 24 ∧ 0 ≤ odd ∧ odd ≤ 1460 := by
    omega
  generalize hy : min (odd / 365) 3 = year
  have hyear : 0 ≤ year ∧ year ≤ 3 ∧ 0 ≤ odd - 365 * year ∧ odd - 365 * year ≤ 365 := by omega
  have hbefore : daysBeforeYear (100 * century + 4 * four + year)
      = 36524 * century + 1461 * four + 365 * year := by
    have hquarter : (100 * century + 4 * four + year) / 4 = 25 * century + four := by omega
    have hhundred : (100 * century + 4 * four + year) / 100 = century := by omega
    simp only [daysBeforeYear, hquarter, hhundred]
    omega
  rw [hbefore]
  omega

theorem monthIndex_bounds {doy : ℤ} (h : 0 ≤ doy) (h' : doy ≤ 365) :
    0 ≤ monthIndex doy ∧ monthIndex doy ≤ 11 ∧ 0 ≤ doy - daysBeforeMonth (monthIndex doy) ∧
      doy - daysBeforeMonth (monthIndex doy) ≤ 30 := by
  simp only [monthIndex, daysBeforeMonth]
  omega

theorem marchMonth_monthOf {mp : ℤ} (h : 0 ≤ mp) (h' : mp ≤ 11) : marchMonth (monthOf mp) = mp := by
  rw [marchMonth, monthOf]
  split_ifs <;> omega

theorem dayOfEra_bounds (days : ℤ) : 0 ≤ dayOfEra days ∧ dayOfEra days < DAYS_PER_ERA := by
  simp only [dayOfEra, DAYS_PER_ERA]
  omega

/-- **The calendar tells the day.** -/
theorem daysOfCivil_civilOfDays (days : ℤ) : daysOfCivil (civilOfDays days) = days := by
  obtain ⟨hyoe, hyoe', hdoy, hdoy'⟩ :=
    yearOfEra_bounds (dayOfEra_bounds days).1 (dayOfEra_bounds days).2
  obtain ⟨hmp, hmp', -, -⟩ := monthIndex_bounds hdoy hdoy'
  have hdiv : (yearOfEra (dayOfEra days) + 400 * eraOf days) / 400 = eraOf days := by omega
  have hmod : (yearOfEra (dayOfEra days) + 400 * eraOf days) % 400
      = yearOfEra (dayOfEra days) := by omega
  have hsplit : DAYS_PER_ERA * eraOf days + dayOfEra days = days + EPOCH_OFFSET :=
    Int.mul_ediv_add_emod _ _
  have hmarch : marchMonth (monthOf (monthIndex (dayOfYear (dayOfEra days))))
      = monthIndex (dayOfYear (dayOfEra days)) := marchMonth_monthOf hmp hmp'
  simp only [daysOfCivil, civilOfDays, add_sub_cancel_right, hdiv, hmod, hmarch]
  simp only [dayOfYear]
  omega

/-- The month and the day of the month. -/
theorem civilOfDays_bounds (days : ℤ) :
    1 ≤ (civilOfDays days).month ∧ (civilOfDays days).month ≤ 12 ∧
      1 ≤ (civilOfDays days).day ∧ (civilOfDays days).day ≤ 31 := by
  obtain ⟨-, -, hdoy, hdoy'⟩ :=
    yearOfEra_bounds (dayOfEra_bounds days).1 (dayOfEra_bounds days).2
  obtain ⟨hmp, hmp', hday, hday'⟩ := monthIndex_bounds hdoy hdoy'
  have hmonth : 1 ≤ (civilOfDays days).month ∧ (civilOfDays days).month ≤ 12 := by
    show 1 ≤ monthOf (monthIndex (dayOfYear (dayOfEra days))) ∧
      monthOf (monthIndex (dayOfYear (dayOfEra days))) ≤ 12
    rw [monthOf, dayOfYear]
    split_ifs <;> omega
  refine ⟨hmonth.1, hmonth.2, ?_, ?_⟩ <;> simp only [civilOfDays, dayOfYear] <;> omega

/-- The years of the dates there are have at most six digits. -/
theorem civilOfDays_year {days : ℤ} (h : |days| ≤ 100000000) :
    -1000000 < (civilOfDays days).year ∧ (civilOfDays days).year < 1000000 := by
  obtain ⟨hyoe, hyoe', -, -⟩ :=
    yearOfEra_bounds (dayOfEra_bounds days).1 (dayOfEra_bounds days).2
  have hera : -1000 ≤ eraOf days ∧ eraOf days ≤ 1000 := by
    rw [abs_le] at h
    simp only [eraOf, EPOCH_OFFSET, DAYS_PER_ERA]
    omega
  have hnew : ∀ month, 0 ≤ newYear month ∧ newYear month ≤ 1 := by
    intro month
    rw [newYear]
    split_ifs <;> omega
  have := hnew (monthOf (monthIndex (dayOfYear (dayOfEra days))))
  simp only [civilOfDays]
  omega

theorem civilOfDays_injective : Function.Injective civilOfDays :=
  Function.LeftInverse.injective daysOfCivil_civilOfDays

/-! ### Digits -/

/-- `n` decimal digits, most significant first. -/
def padDigits : ℕ → ℕ → List Char
  | 0, _ => []
  | n + 1, v => padDigits n (v / 10) ++ [Nat.digitChar (v % 10)]

@[simp] theorem padDigits_length (n v : ℕ) : (padDigits n v).length = n := by
  induction n generalizing v with
  | zero => rfl
  | succ n ih => rw [padDigits, List.length_append, ih, List.length_singleton]

theorem padDigits_inj {n v v' : ℕ} (h : padDigits n v = padDigits n v') (hv : v < 10 ^ n)
    (hv' : v' < 10 ^ n) : v = v' := by
  induction n generalizing v v' with
  | zero => omega
  | succ n ih =>
    obtain ⟨hinit, hlast⟩ := List.append_inj' h rfl
    have hquot : v / 10 = v' / 10 := by
      refine ih hinit ?_ ?_ <;> rw [Nat.div_lt_iff_lt_mul (by omega), ← pow_succ] <;> assumption
    have hrem : v % 10 = v' % 10 := digitChar_inj _ (by omega) _ (by omega)
      (List.singleton_inj.mp hlast)
    omega

/-- A field of fixed width at the front of a text. -/
theorem padDigits_append_inj {n v v' : ℕ} {rest rest' : List Char}
    (h : padDigits n v ++ rest = padDigits n v' ++ rest') (hv : v < 10 ^ n) (hv' : v' < 10 ^ n) :
    v = v' ∧ rest = rest' := by
  obtain ⟨hfield, hrest⟩ := List.append_inj h (by simp)
  exact ⟨padDigits_inj hfield hv hv', hrest⟩

/-! ### The text of a date -/

/-- The largest distance from the epoch, in milliseconds. -/
def MAX_DATE : ℤ := 8640000000000000

/-- The milliseconds of a day. -/
def MS_PER_DAY : ℤ := 86400000

/-- A date that prints. -/
structure Date where
  time : ℤ
  inRange : |time| ≤ MAX_DATE
deriving DecidableEq

/-- What `new Date(…)` gives. -/
inductive DateValue where
  | valid (date : Date)
  | invalid
deriving DecidableEq

/-- Four digits, and for the years beyond these a sign and six. -/
def yearText (year : ℤ) : List Char :=
  if 0 ≤ year ∧ year ≤ 9999 then padDigits 4 year.toNat
  else (if year < 0 then '-' else '+') :: padDigits 6 year.natAbs

/-- `YYYY-MM-DD`. -/
def dateText (date : CivilDate) : List Char :=
  yearText date.year ++ '-' :: (padDigits 2 date.month.toNat ++ '-' :: padDigits 2 date.day.toNat)

/-- `THH:mm:ss.sssZ`. -/
def timeText (ms : ℤ) : List Char :=
  'T' :: (padDigits 2 (ms / 3600000).toNat ++ ':' :: (padDigits 2 (ms / 60000 % 60).toNat ++
    ':' :: (padDigits 2 (ms / 1000 % 60).toNat ++ '.' :: (padDigits 3 (ms % 1000).toNat ++ ['Z']))))

/-- `date.toISOString()`. -/
def toISOString (t : ℤ) : String :=
  String.ofList (dateText (civilOfDays (t / MS_PER_DAY)) ++ timeText (t % MS_PER_DAY))

example : toISOString 1785541999123 = "2026-07-31T23:53:19.123Z" := by decide

theorem yearText_append_inj {y y' : ℤ} {rest rest' : List Char}
    (h : yearText y ++ rest = yearText y' ++ rest') (hlen : rest.length = rest'.length)
    (hy : -1000000 < y ∧ y < 1000000) (hy' : -1000000 < y' ∧ y' < 1000000) :
    y = y' ∧ rest = rest' := by
  obtain ⟨hyear, hrest⟩ := List.append_inj' h hlen
  refine ⟨?_, hrest⟩
  have hlong : ∀ (sign : Char) (v v' : ℕ), padDigits 4 v ≠ sign :: padDigits 6 v' := by
    intro sign v v' heq
    have := congrArg List.length heq
    simp at this
  simp only [yearText] at hyear
  by_cases hshort : 0 ≤ y ∧ y ≤ 9999 <;> by_cases hshort' : 0 ≤ y' ∧ y' ≤ 9999
  · rw [if_pos hshort, if_pos hshort'] at hyear
    have := padDigits_inj hyear (by omega) (by omega)
    omega
  · rw [if_pos hshort, if_neg hshort'] at hyear
    exact absurd hyear (hlong _ _ _)
  · rw [if_neg hshort, if_pos hshort'] at hyear
    exact absurd hyear.symm (hlong _ _ _)
  · rw [if_neg hshort, if_neg hshort'] at hyear
    obtain ⟨hsign, hdigits⟩ := List.cons.inj hyear
    have habs := padDigits_inj hdigits (by omega) (by omega)
    by_cases hneg : y < 0 <;> by_cases hneg' : y' < 0
    · omega
    · simp [hneg, hneg'] at hsign
    · simp [hneg, hneg'] at hsign
    · omega

/-- The four fields of a time of day tell the milliseconds. -/
theorem eq_timeFields {ms : ℤ} (hms : 0 ≤ ms) :
    ms = 3600000 * (ms / 3600000).toNat + 60000 * (ms / 60000 % 60).toNat
      + 1000 * (ms / 1000 % 60).toNat + (ms % 1000).toNat := by
  have hhour : ((ms / 3600000).toNat : ℤ) = ms / 60000 / 60 := by omega
  have hminute : ((ms / 60000 % 60).toNat : ℤ) = ms / 1000 / 60 % 60 := by omega
  have hsecond : ((ms / 1000 % 60).toNat : ℤ) = ms / 1000 % 60 := by omega
  have hmilli : ((ms % 1000).toNat : ℤ) = ms % 1000 := by omega
  rw [hhour, hminute, hsecond, hmilli]
  omega

theorem timeText_inj {ms ms' : ℤ} (h : timeText ms = timeText ms') (hms : 0 ≤ ms ∧ ms < MS_PER_DAY)
    (hms' : 0 ≤ ms' ∧ ms' < MS_PER_DAY) : ms = ms' := by
  simp only [MS_PER_DAY] at hms hms'
  obtain ⟨-, h⟩ := List.cons.inj h
  obtain ⟨hhour, h⟩ := padDigits_append_inj h (by omega) (by omega)
  obtain ⟨hminute, h⟩ := padDigits_append_inj (List.cons.inj h).2 (by omega) (by omega)
  obtain ⟨hsecond, h⟩ := padDigits_append_inj (List.cons.inj h).2 (by omega) (by omega)
  obtain ⟨hmilli, -⟩ := padDigits_append_inj (List.cons.inj h).2 (by omega) (by omega)
  rw [eq_timeFields hms.1, hhour, hminute, hsecond, hmilli, ← eq_timeFields hms'.1]

theorem dateText_inj {days days' : ℤ}
    (h : dateText (civilOfDays days) = dateText (civilOfDays days')) (hd : |days| ≤ 100000000)
    (hd' : |days'| ≤ 100000000) : days = days' := by
  have hb := civilOfDays_bounds days
  have hb' := civilOfDays_bounds days'
  obtain ⟨hyear, h⟩ := yearText_append_inj h (by simp) (civilOfDays_year hd) (civilOfDays_year hd')
  obtain ⟨hmonth, h⟩ := padDigits_append_inj (List.cons.inj h).2 (by omega) (by omega)
  have hday := padDigits_inj (List.cons.inj h).2 (by omega) (by omega)
  refine civilOfDays_injective (CivilDate.ext hyear ?_ ?_) <;> omega

/-- **The text of a date tells the instant.** -/
theorem toISOString_inj {t t' : ℤ} (h : toISOString t = toISOString t') (ht : |t| ≤ MAX_DATE)
    (ht' : |t'| ≤ MAX_DATE) : t = t' := by
  have hdays : ∀ {u : ℤ}, |u| ≤ MAX_DATE → |u / MS_PER_DAY| ≤ 100000000 := by
    intro u hu
    rw [abs_le] at hu ⊢
    simp only [MAX_DATE, MS_PER_DAY] at *
    omega
  have hms : ∀ u : ℤ, 0 ≤ u % MS_PER_DAY ∧ u % MS_PER_DAY < MS_PER_DAY := by
    intro u
    simp only [MS_PER_DAY]
    omega
  obtain ⟨hdate, htime⟩ := List.append_inj' (String.ofList_injective h) (by simp [timeText])
  have hday := dateText_inj hdate (hdays ht) (hdays ht')
  have hrest := timeText_inj htime (hms t) (hms t')
  rw [← Int.mul_ediv_add_emod t MS_PER_DAY, hday, hrest, Int.mul_ediv_add_emod]

/-- `date.toISOString()`. -/
def Date.toISOString (date : Date) : String := Js.toISOString date.time

theorem Date.toISOString_injective : Function.Injective Date.toISOString := by
  intro d d' h
  have htime : d.time = d'.time := toISOString_inj h d.inRange d'.inRange
  cases d
  cases d'
  simpa using htime

end Js
