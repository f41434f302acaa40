import Fieldbus.Literal.Field
import Fieldbus.Text.Split

/-!
# Time literals

A time of day is written as hour and minute, or hour, minute and second, with colons between them;
a fraction of a second may follow the second.  A plain time keeps the first two digits of its
fraction.  In a time with stars the fraction is a field of its own, which counts hundredths.
-/

namespace Fieldbus.Literal

open Fieldbus.Text

/-- The hundredths that a fraction of a second starts with. -/
def hundredths (fraction : List Char) : Nat :=
  match fraction with
  | [] => 0
  | [tenths] => 10 * (digit? tenths).getD 0
  | tenths :: hundredths :: _ => 10 * (digit? tenths).getD 0 + (digit? hundredths).getD 0

/-- The hundredths that the fraction after the second says, if the whole text is a fraction: a
point and digits, or nothing. -/
def fraction? : List Char → Option Nat
  | [] => some 0
  | point :: row =>
    if point = '.' && !row.isEmpty && row.all isDigit then some (hundredths row) else none

/-- The time with the given parts.  A second 60 is the inserted one at the end of a minute, which
counts as its last hundredth. -/
def timeOf? (hour minute second hundredths : Nat) : Option Time :=
  if hour ≤ 23 && minute ≤ 59 && second ≤ 60 then
    if second = 60 then some ⟨UInt8.ofNat hour, UInt8.ofNat minute, 59, 99⟩
    else some ⟨UInt8.ofNat hour, UInt8.ofNat minute, UInt8.ofNat second, UInt8.ofNat hundredths⟩
  else none

/-- Reads hour, minute, second and perhaps a fraction. -/
def timeWithSecond? (text : List Char) : Option Time := do
  let (hour, text) ← leadingNumber? 2 text
  let (minute, text) ← leadingNumber? 2 (← after? ':' text)
  let (second, text) ← leadingNumber? 2 (← after? ':' text)
  timeOf? hour minute second (← fraction? text)

/-- Reads hour and minute. -/
def timeWithoutSecond? (text : List Char) : Option Time := do
  let (hour, text) ← leadingNumber? 2 text
  let (minute, text) ← leadingNumber? 2 (← after? ':' text)
  if text.isEmpty then timeOf? hour minute 0 0 else none

/-- Reads a time without stars. -/
def plainTime? (text : List Char) : Option Time :=
  match timeWithSecond? text with
  | some time => some time
  | none => timeWithoutSecond? text

/-- Reads a time with stars. -/
def starredTime? (text : List Char) : Option Time := do
  let (clock, hundredths) ← match splitFirst? '.' text with
    | some (clock, fraction) => (field? 0 99 fraction).map fun octet => (clock, octet)
    | none => some (text, 0)
  match fields ':' clock with
  | [hour, minute] =>
    return ⟨← field? 0 23 hour, ← field? 0 59 minute, 0, hundredths⟩
  | [hour, minute, second] =>
    return ⟨← field? 0 23 hour, ← field? 0 59 minute, ← field? 0 59 second, hundredths⟩
  | _ => none

/-- Reads a time. -/
def time? (text : List Char) : Option Time :=
  if hasStar text then starredTime? text else plainTime? text

end Fieldbus.Literal
