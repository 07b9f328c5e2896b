import Mathlib
import PocketSql.Timestamp.Basic

/-!
# The calendar

No two dates have the same number of days from the epoch, and no two times of day the same
number of seconds.  So an instant and an offset determine the civil time.
-/

namespace PocketSql

namespace CivilTime

/-! ## Years -/

def daysInYear (year : Int) : Nat :=
  if isLeapYear year then 366 else 365

theorem daysBeforeYear_succ (year : Int) :
    daysBeforeYear (year + 1) = daysBeforeYear year + daysInYear year := by
  have hleap : isLeapYear year = true ↔ year % 4 = 0 ∧ (year % 100 ≠ 0 ∨ year % 400 = 0) := by
    simp [isLeapYear]
  rw [daysInYear, daysBeforeYear, daysBeforeYear]
  split_ifs with h <;> rw [hleap] at h <;> omega

theorem daysBeforeYear_mono {year year' : Int} (hle : year ≤ year') :
    daysBeforeYear year ≤ daysBeforeYear year' := by
  rw [daysBeforeYear, daysBeforeYear]
  omega

/-! ## Months -/

theorem daysInMonth_le (year : Int) (month : Nat) : daysInMonth year month ≤ 31 := by
  rw [daysInMonth]
  split_ifs <;> decide

theorem daysBeforeMonth_succ (year : Int) {month : Nat} (hmonth : 1 ≤ month) :
    daysBeforeMonth year (month + 1) = daysBeforeMonth year month + daysInMonth year month := by
  obtain ⟨month, rfl⟩ := Nat.exists_eq_succ_of_ne_zero (Nat.ne_of_gt hmonth)
  rfl

theorem daysBeforeMonth_mono (year : Int) : Monotone (daysBeforeMonth year) := by
  refine monotone_nat_of_le_succ fun month => ?_
  cases month with
  | zero => exact Nat.le_refl 0
  | succ month => exact Nat.le_add_right _ _

theorem daysBeforeMonth_end (year : Int) : daysBeforeMonth year 13 = daysInYear year := by
  rw [daysInYear]
  split <;> simp [daysBeforeMonth, daysInMonth, *]

/-! ## Dates -/

/-- The days of the year before the date. -/
def dayOfYear (t : CivilTime) : Nat :=
  daysBeforeMonth t.year t.month + (t.day - 1)

/-- The time has a month and a day that exist. -/
structure HasDate (t : CivilTime) : Prop where
  month : 1 ≤ t.month ∧ t.month ≤ 12
  day : 1 ≤ t.day ∧ t.day ≤ daysInMonth t.year t.month

namespace HasDate

variable {t u : CivilTime}

theorem daysSinceEpoch_eq (ht : t.HasDate) :
    t.daysSinceEpoch = daysBeforeYear t.year + t.dayOfYear - epochDays := by
  have hday := ht.day.1
  rw [daysSinceEpoch, dayOfYear]
  omega

/-- The month ends behind the date. -/
theorem dayOfYear_lt (ht : t.HasDate) : t.dayOfYear < daysBeforeMonth t.year (t.month + 1) := by
  have hday := ht.day
  rw [daysBeforeMonth_succ t.year ht.month.1, dayOfYear]
  omega

theorem dayOfYear_lt_daysInYear (ht : t.HasDate) : t.dayOfYear < daysInYear t.year := by
  rw [← daysBeforeMonth_end]
  exact ht.dayOfYear_lt.trans_le (daysBeforeMonth_mono t.year (Nat.succ_le_succ ht.month.2))

theorem year_le (ht : t.HasDate) (hu : u.HasDate)
    (hdays : t.daysSinceEpoch = u.daysSinceEpoch) : t.year ≤ u.year := by
  by_contra hlt
  have hyears := daysBeforeYear_mono (Int.add_one_le_of_lt (not_le.mp hlt))
  rw [daysBeforeYear_succ] at hyears
  have hdate := hu.dayOfYear_lt_daysInYear
  rw [ht.daysSinceEpoch_eq, hu.daysSinceEpoch_eq] at hdays
  omega

theorem month_le (hu : u.HasDate) (hyear : t.year = u.year)
    (hday : t.dayOfYear = u.dayOfYear) : t.month ≤ u.month := by
  by_contra hlt
  have hnext : u.month + 1 ≤ t.month := not_le.mp hlt
  have hmonths := daysBeforeMonth_mono u.year hnext
  have hdate := hu.dayOfYear_lt
  rw [dayOfYear, hyear] at hday
  omega

/-- Two dates on the same day are the same. -/
theorem eq_of_days (ht : t.HasDate) (hu : u.HasDate)
    (hdays : t.daysSinceEpoch = u.daysSinceEpoch) :
    t.year = u.year ∧ t.month = u.month ∧ t.day = u.day := by
  have hyear : t.year = u.year := le_antisymm (ht.year_le hu hdays) (hu.year_le ht hdays.symm)
  have hday : t.dayOfYear = u.dayOfYear := by
    rw [ht.daysSinceEpoch_eq, hu.daysSinceEpoch_eq, hyear] at hdays
    omega
  have hmonth : t.month = u.month :=
    le_antisymm (hu.month_le hyear hday) (ht.month_le hyear.symm hday.symm)
  have htday := ht.day.1
  have huday := hu.day.1
  rw [dayOfYear, dayOfYear, hyear, hmonth] at hday
  exact ⟨hyear, hmonth, by omega⟩

end HasDate

theorem Valid.hasDate {t : CivilTime} (ht : t.Valid) : t.HasDate :=
  ⟨ht.2.1, ht.2.2.1⟩

end CivilTime

/-! ## Instants -/

namespace Timestamp

/-- A timestamp is determined by its instant and its offset.  A leap second has the seconds of
the one before it, and shows in the nanoseconds. -/
theorem eq_of_instant {t u : Timestamp} (hseconds : t.unixSeconds = u.unixSeconds)
    (hsubsecond : t.subsecond = u.subsecond) (hoffset : t.offset = u.offset) : t = u := by
  obtain ⟨-, -, -, hthour, htminute, htsecond, htnano, -, -⟩ := t.valid
  obtain ⟨-, -, -, huhour, huminute, husecond, hunano, -, -⟩ := u.valid
  simp only [CivilTime.unixSeconds] at hseconds
  simp only [CivilTime.subsecond] at hsubsecond
  have hdays : t.daysSinceEpoch = u.daysSinceEpoch := by omega
  obtain ⟨hyear, hmonth, hday⟩ := t.valid.hasDate.eq_of_days u.valid.hasDate hdays
  have hsecond : t.second = u.second := by
    split_ifs at hsubsecond <;> omega
  have hhour : t.hour = u.hour := by omega
  have hminute : t.minute = u.minute := by omega
  have hnano : t.nanosecond = u.nanosecond := by
    rw [hsecond] at hsubsecond
    omega
  obtain ⟨⟨_, _, _, _, _, _, _, _⟩, _⟩ := t
  obtain ⟨⟨_, _, _, _, _, _, _, _⟩, _⟩ := u
  simp_all

end Timestamp

end PocketSql
