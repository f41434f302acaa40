import Fieldbus.Literal.Calendar
import Fieldbus.Literal.Field
import Fieldbus.Text.Split

/-!
# Date literals

A date is written as year, month and day with hyphens between them.  A plain date has to exist and
gets its weekday; in one with stars each field stands on its own, and the weekday is unknown.
-/

namespace Fieldbus.Literal

open Fieldbus.Text

/-- Reads a date without stars. -/
def plainDate? (text : List Char) : Option Date := do
  let (year, text) ← leadingYear? text
  let (month, text) ← leadingNumber? 2 (← after? '-' text)
  let (day, text) ← leadingNumber? 2 (← after? '-' text)
  if text.isEmpty && 0 ≤ year then Calendar.date? year.toNat month day else none

/-- The octet of the year field of a date with stars: years from 1900 on have one. -/
def yearField? (field : List Char) : Option UInt8 :=
  if field = ['*'] then some unspecified
  else ((integer? (-2147483648) 2147483647 field).filter fun year =>
    1900 ≤ year && year ≤ 2155).map fun year => UInt8.ofNat (year - 1900).toNat

/-- Reads a date with stars. -/
def starredDate? (text : List Char) : Option Date :=
  match fields '-' text with
  | [year, month, day] => do
    let year ← yearField? year
    let month ← field? 1 12 month
    let day ← field? 1 31 day
    return ⟨year, month, day, unspecified⟩
  | _ => none

/-- Reads a date. -/
def date? (text : List Char) : Option Date :=
  if hasStar text then starredDate? text else plainDate? text

end Fieldbus.Literal
