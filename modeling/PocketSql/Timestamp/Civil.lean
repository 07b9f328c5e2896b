/-!
# Civil time

Dates of the proleptic Gregorian calendar, local times of day and their
distance from UTC. The calendar has a year zero, and it covers 262143 years
before it and 262142 years after it.
-/

namespace PocketSql

/-- A local date and time of day. The second 60 is a leap second, at the end of
any minute; `offset` is how far local time is ahead of UTC, in seconds. -/
structure CivilTime where
  year : Int
  month : Nat
  day : Nat
  hour : Nat
  minute : Nat
  second : Nat
  nanosecond : Nat
  offset : Int
deriving DecidableEq

namespace CivilTime

def isLeapYear (year : Int) : Bool :=
  year % 4 = 0 && (year % 100 ≠ 0 || year % 400 = 0)

def daysInMonth (year : Int) (month : Nat) : Nat :=
  if month = 2 then (if isLeapYear year then 29 else 28)
  else if month ∈ [4, 6, 9, 11] then 30
  else 31

/-- Days from the first of January of the year zero to that of `year`. -/
def daysBeforeYear (year : Int) : Int :=
  365 * year + (year + 3) / 4 - (year + 99) / 100 + (year + 399) / 400

/-- Days from the first of January to the first of `month`. -/
def daysBeforeMonth (year : Int) : (month : Nat) → Nat
  | 0 => 0
  | 1 => 0
  | month + 1 => daysBeforeMonth year month + daysInMonth year month

/-- Days from the first of January of the year zero to the first of January 1970. -/
def epochDays : Int := 719528

/-- Days from the first of January 1970 to the local date. -/
def daysSinceEpoch (t : CivilTime) : Int :=
  daysBeforeYear t.year + daysBeforeMonth t.year t.month + t.day - 1 - epochDays

/-- The day of the week, from Sunday as 0 to Saturday as 6. -/
def weekday (t : CivilTime) : Nat :=
  ((t.daysSinceEpoch + 4) % 7).toNat

/-- Seconds from the start of 1970 in UTC. A leap second counts as the second
before it. -/
def unixSeconds (t : CivilTime) : Int :=
  t.daysSinceEpoch * 86400 + t.hour * 3600 + t.minute * 60 + min t.second 59 - t.offset

/-- The nanoseconds behind `unixSeconds`, a whole second more within a leap second. -/
def subsecond (t : CivilTime) : Nat :=
  t.nanosecond + if t.second = 60 then 1000000000 else 0

/-- The date and the time of day exist, the offset is a whole number of minutes
below a day, and both the local time and the instant in UTC lie in the years
that the calendar covers. -/
def Valid (t : CivilTime) : Prop :=
  (-262143 ≤ t.year ∧ t.year ≤ 262142) ∧
  (1 ≤ t.month ∧ t.month ≤ 12) ∧
  (1 ≤ t.day ∧ t.day ≤ daysInMonth t.year t.month) ∧
  t.hour < 24 ∧ t.minute < 60 ∧ t.second ≤ 60 ∧ t.nanosecond < 1000000000 ∧
  (t.offset % 60 = 0 ∧ -86400 < t.offset ∧ t.offset < 86400) ∧
  ((daysBeforeYear (-262143) - epochDays) * 86400 ≤ t.unixSeconds ∧
    t.unixSeconds < (daysBeforeYear 262143 - epochDays) * 86400)

instance (t : CivilTime) : Decidable t.Valid := by
  unfold Valid
  infer_instance

end CivilTime

end PocketSql
