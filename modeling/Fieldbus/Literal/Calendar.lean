import Fieldbus.Value.Basic

/-!
# The calendar

Which days exist in the Gregorian calendar, and the weekday of each.
-/

namespace Fieldbus.Calendar

/-- Whether a year has a 29th of February. -/
def isLeap (year : Nat) : Bool := year % 4 == 0 && (year % 100 != 0 || year % 400 == 0)

/-- The number of days of a month of a year. -/
def daysInMonth (year month : Nat) : Nat :=
  if month = 2 then (if isLeap year then 29 else 28)
  else if month = 4 ∨ month = 6 ∨ month = 9 ∨ month = 11 then 30
  else 31

/-- Whether a day exists. -/
def exists? (year month day : Nat) : Bool :=
  1 ≤ month && month ≤ 12 && 1 ≤ day && day ≤ daysInMonth year month

/-- The days of a year before a month begins. -/
def daysBeforeMonth (year month : Nat) : Nat :=
  ((List.range' 1 (month - 1)).map (daysInMonth year)).foldl Nat.add 0

/-- The days from the first of January of the year 1 to the first of January of a later year. -/
def daysBeforeYear (year : Nat) : Nat :=
  let past := year - 1
  365 * past + past / 4 - past / 100 + past / 400

/-- The weekday of a day, from 1 for Monday to 7 for Sunday; the first of January of the year 1
was a Monday. -/
def weekday (year month day : Nat) : Nat :=
  (daysBeforeYear year + daysBeforeMonth year month + (day - 1)) % 7 + 1

/-- The date of a day that exists in one of the years 1900 to 2154; the year 2155 would have the
octet of an unspecified year. -/
def date? (year month day : Nat) : Option Date :=
  if exists? year month day && 1900 ≤ year && year ≤ 2154 then
    some ⟨UInt8.ofNat (year - 1900), UInt8.ofNat month, UInt8.ofNat day,
      UInt8.ofNat (weekday year month day)⟩
  else none

end Fieldbus.Calendar
