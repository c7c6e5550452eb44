import MalloyPublisher.Givens.TemporalText
import Mathlib.Tactic.IntervalCases

/-!
# Civil dates and their days

The calendar is read from the days and the days are counted from the calendar. Both ways agree
on the dates that there are, and the days come in the order of the dates.

## Main definitions

* `IsCivil` — a year, a month and a day that are a date

## Main results

* `isCivil_civilOfDays` — a day has a date
* `civilOfDays_daysOfCivil` — a date has the day that it is of
* `daysOfCivil_lt_iff` — a later date is a later day
* `day_ne_of_near` — within a month of days no two have the same day of their months
-/

namespace MalloyPublisher.Givens

open Incremental (civilOfDays)

/-- The leap years of the Gregorian calendar. -/
def IsLeap (year : ℤ) : Prop := year % 4 = 0 ∧ (year % 100 ≠ 0 ∨ year % 400 = 0)

instance (year : ℤ) : Decidable (IsLeap year) := inferInstanceAs (Decidable (_ ∧ _))

def daysInMonth (year month : ℤ) : ℤ :=
  if month = 2 then if IsLeap year then 29 else 28
  else if month = 4 ∨ month = 6 ∨ month = 9 ∨ month = 11 then 30
  else 31

/-- A date that there is. -/
def IsCivil (year month day : ℤ) : Prop :=
  (1 ≤ month ∧ month ≤ 12) ∧ 1 ≤ day ∧ day ≤ daysInMonth year month

instance (year month day : ℤ) : Decidable (IsCivil year month day) :=
  inferInstanceAs (Decidable (_ ∧ _))

/-- A date before another. -/
def CivilBefore (first second : ℤ × ℤ × ℤ) : Prop :=
  first.1 < second.1 ∨ first.1 = second.1 ∧
    (first.2.1 < second.2.1 ∨ first.2.1 = second.2.1 ∧ first.2.2 < second.2.2)

/-! ## The years from March on -/

section March

/-- The year a month is of, if years begin in March. -/
def marchYear (year month : ℤ) : ℤ := if month ≤ 2 then year - 1 else year

/-- A month counted from March. -/
def fromMarch (month : ℤ) : ℤ := if 2 < month then month - 3 else month + 9

/-- The day of the first of March of a year. -/
def marchFirst (year : ℤ) : ℤ := 365 * year + year / 4 - year / 100 + year / 400 - 719468

theorem daysOfCivil_eq (year month day : ℤ) :
    daysOfCivil year month day =
      marchFirst (marchYear year month) + (153 * fromMarch month + 2) / 5 + (day - 1) := by
  unfold daysOfCivil marchFirst marchYear fromMarch
  dsimp only
  generalize (if month ≤ 2 then year - 1 else year) = shifted
  omega

/-- The last day before the first of March is of a leap year. -/
theorem isLeap_of_dayOfYear {d year : ℤ} (inEra : 0 ≤ d ∧ d < 146097)
    (isYear : year = (d - d / 1460 + d / 36524 - d / 146096) / 365)
    (last : d - (365 * year + year / 4 - year / 100) = 365) :
    (year + 1) % 4 = 0 ∧ ((year + 1) % 100 ≠ 0 ∨ (year + 1) % 400 = 0) := by
  have century : 0 ≤ d / 36524 ∧ d / 36524 ≤ 4 := by omega
  have quad : 0 ≤ d % 36524 / 1461 ∧ d % 36524 / 1461 ≤ 24 := by omega
  have day : 0 ≤ d % 36524 % 1461 ∧ d % 36524 % 1461 ≤ 1460 := by omega
  have split : d = 36524 * (d / 36524) + 1461 * (d % 36524 / 1461) + d % 36524 % 1461 := by omega
  have common : d % 36524 / 1461 = 24 → d % 36524 % 1461 ≤ 1459 := by omega
  rw [yearOfEra_eq century quad day split (by omega) common] at isYear
  generalize d / 36524 = c at *
  generalize d % 36524 / 1461 = q at *
  generalize d % 36524 % 1461 = s at *
  split_ifs at isYear with lastCentury
  · omega
  · have centuries : year / 100 = c := by omega
    have quads : year / 4 = 25 * c + q := by omega
    rw [centuries, quads] at last
    omega

/-- The months from March are as long as they are. -/
theorem day_le_daysInMonth {dayOfYear month : ℤ} (year : ℤ) (inYear : 0 ≤ dayOfYear ∧ dayOfYear ≤ 365)
    (isMonth : month = (5 * dayOfYear + 2) / 153)
    (leap : dayOfYear = 365 → IsLeap (year + 1)) :
    dayOfYear - (153 * month + 2) / 5 + 1 ≤
      daysInMonth (year + if (if month < 10 then month + 3 else month - 9) ≤ 2 then 1 else 0)
        (if month < 10 then month + 3 else month - 9) := by
  obtain ⟨⟨low, high⟩, -⟩ := month_bounds inYear isMonth
  unfold daysInMonth
  by_cases february : month = 11
  · subst february
    by_cases last : dayOfYear = 365
    · simp [leap last]
      omega
    · simp only [show ¬((11 : ℤ) < 10) by decide, if_false]
      norm_num
      split_ifs <;> omega
  · rw [if_neg (by split_ifs <;> omega)]
    split_ifs <;> omega

/-- The day that a year from March takes up in its calendar. -/
theorem fromMarch_bounds {year month day : ℤ} (civil : IsCivil year month day) :
    (0 ≤ fromMarch month ∧ fromMarch month ≤ 11) ∧
      0 ≤ (153 * fromMarch month + 2) / 5 + (day - 1) ∧
      (153 * fromMarch month + 2) / 5 + (day - 1) < marchFirst (marchYear year month + 1) -
        marchFirst (marchYear year month) := by
  obtain ⟨⟨low, high⟩, first, last⟩ := civil
  unfold fromMarch marchYear marchFirst
  unfold daysInMonth IsLeap at last
  split_ifs at last ⊢ <;> omega

/-- Within a year from March a later month is past all days of an earlier one. -/
theorem month_lt {year month day month' : ℤ} (civil : IsCivil year month day)
    (later : fromMarch month < fromMarch month') :
    (153 * fromMarch month + 2) / 5 + (day - 1) < (153 * fromMarch month' + 2) / 5 := by
  obtain ⟨⟨low, high⟩, first, last⟩ := civil
  -- The next month begins behind the last day of this one.
  have next : (153 * fromMarch month + 2) / 5 + (day - 1) < (153 * (fromMarch month + 1) + 2) / 5 ∨
      fromMarch month = 11 := by
    unfold fromMarch
    unfold daysInMonth at last
    interval_cases month <;> simp at last ⊢ <;> omega
  rcases next with next | february
  · omega
  · unfold fromMarch at later february ⊢
    unfold daysInMonth at last
    split_ifs at last later february ⊢ <;> omega

theorem marchFirst_mono {first second : ℤ} (before : first ≤ second) :
    marchFirst first ≤ marchFirst second := by
  unfold marchFirst
  omega

end March

/-! ## The order of the days -/

section Order

variable {year month day year' month' day' : ℤ}

theorem daysOfCivil_lt (civil : IsCivil year month day) (civil' : IsCivil year' month' day')
    (before : CivilBefore (year, month, day) (year', month', day')) :
    daysOfCivil year month day < daysOfCivil year' month' day' := by
  obtain ⟨⟨low, high⟩, -, ends⟩ := fromMarch_bounds civil
  obtain ⟨⟨low', high'⟩, starts, -⟩ := fromMarch_bounds civil'
  rw [daysOfCivil_eq, daysOfCivil_eq]
  -- The order of the dates is that of their years and months from March.
  have order : marchYear year month < marchYear year' month' ∨
      marchYear year month = marchYear year' month' ∧ (fromMarch month < fromMarch month' ∨
        month = month' ∧ day < day') := by
    obtain ⟨⟨one, twelve⟩, -⟩ := civil
    obtain ⟨⟨one', twelve'⟩, -⟩ := civil'
    unfold CivilBefore at before
    dsimp only at before
    unfold marchYear fromMarch
    split_ifs <;> omega
  rcases order with years | ⟨sameYear, months | ⟨rfl, days⟩⟩
  · have := @marchFirst_mono (marchYear year month + 1) (marchYear year' month') (by omega)
    omega
  · have := month_lt civil months
    have first := civil'.2.1
    rw [sameYear]
    omega
  · rw [sameYear]
    omega

theorem civilBefore_trichotomy (first second : ℤ × ℤ × ℤ) :
    CivilBefore first second ∨ first = second ∨ CivilBefore second first := by
  obtain ⟨year, month, day⟩ := first
  obtain ⟨year', month', day'⟩ := second
  unfold CivilBefore
  simp only [Prod.mk.injEq]
  omega

/-- A later date is a later day. -/
theorem daysOfCivil_lt_iff (civil : IsCivil year month day) (civil' : IsCivil year' month' day') :
    daysOfCivil year month day < daysOfCivil year' month' day' ↔
      CivilBefore (year, month, day) (year', month', day') := by
  constructor
  · intro less
    rcases civilBefore_trichotomy (year, month, day) (year', month', day') with
      before | same | after
    · exact before
    · cases same
      exact absurd less (lt_irrefl _)
    · exact absurd (daysOfCivil_lt civil' civil after) (not_lt.mpr less.le)
  · exact daysOfCivil_lt civil civil'

theorem civil_eq_of_days_eq (civil : IsCivil year month day) (civil' : IsCivil year' month' day')
    (same : daysOfCivil year month day = daysOfCivil year' month' day') :
    (year, month, day) = (year', month', day') := by
  rcases civilBefore_trichotomy (year, month, day) (year', month', day') with
    before | equal | after
  · exact absurd same (daysOfCivil_lt civil civil' before).ne
  · exact equal
  · exact absurd same (daysOfCivil_lt civil' civil after).ne'

/-- A day has a date, and is the day of that. -/
theorem isCivil_civilOfDays (days : ℤ) :
    ∃ year month day, civilOfDays days = (year, month, day) ∧ IsCivil year month day ∧
      daysOfCivil year month day = days := by
  obtain ⟨year, month, day, same, inMonths, inDays, back⟩ := civilOfDays_spec days
  refine ⟨year, month, day, same, ⟨inMonths, inDays.1, ?_⟩, back⟩
  have inEra : 0 ≤ days + 719468 - (days + 719468) / 146097 * 146097 ∧
      days + 719468 - (days + 719468) / 146097 * 146097 < 146097 := by omega
  obtain ⟨dayOfEra, isDayOfEra⟩ : ∃ d, d = days + 719468 - (days + 719468) / 146097 * 146097 :=
    ⟨_, rfl⟩
  obtain ⟨yearOfEra, isYear⟩ : ∃ y, y =
      (dayOfEra - dayOfEra / 1460 + dayOfEra / 36524 - dayOfEra / 146096) / 365 := ⟨_, rfl⟩
  rw [← isDayOfEra] at inEra
  obtain ⟨-, inYear⟩ := dayOfYear_bounds inEra isYear
  have leap := isLeap_of_dayOfYear inEra isYear
  have bound := day_le_daysInMonth (yearOfEra + (days + 719468) / 146097 * 400) inYear rfl
    fun last => by
      have := leap last
      unfold IsLeap
      omega
  unfold civilOfDays at same
  dsimp only at same
  rw [← isDayOfEra, ← isYear] at same
  cases same
  exact bound

/-- A date is what the calendar has for its day. -/
theorem civilOfDays_daysOfCivil (civil : IsCivil year month day) :
    civilOfDays (daysOfCivil year month day) = (year, month, day) := by
  obtain ⟨_, _, _, same, isCivil, back⟩ := isCivil_civilOfDays (daysOfCivil year month day)
  rw [same]
  exact civil_eq_of_days_eq isCivil civil back

/-- Days that are less than a month apart have not the same day of their months. -/
theorem day_ne_of_near {days days' : ℤ} (differ : days < days') (near : days' < days + 28) :
    (civilOfDays days).2.2 ≠ (civilOfDays days').2.2 := by
  obtain ⟨year, month, day, same, civil, rfl⟩ := isCivil_civilOfDays days
  obtain ⟨year', month', day', same', civil', rfl⟩ := isCivil_civilOfDays days'
  rw [same, same']
  intro sameDay
  dsimp only at sameDay
  subst sameDay
  have before := (daysOfCivil_lt_iff civil civil').mp differ
  -- The 28th of the month before the first of a later one, both counted from the same day.
  have early : IsCivil year month 28 := by
    refine ⟨civil.1, by norm_num, ?_⟩
    unfold daysInMonth
    split_ifs <;> norm_num
  have first : IsCivil year' month' 1 := by
    refine ⟨civil'.1, le_rfl, ?_⟩
    unfold daysInMonth
    split_ifs <;> norm_num
  have apart := daysOfCivil_lt early first (by
    unfold CivilBefore at before ⊢
    dsimp only at before ⊢
    omega)
  rw [daysOfCivil_eq, daysOfCivil_eq] at apart near
  omega

end Order

end MalloyPublisher.Givens
