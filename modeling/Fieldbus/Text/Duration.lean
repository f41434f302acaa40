import Fieldbus.Text.Numeral

/-!
# Durations as text

A span of time is shown in the largest of the units s, ms, µs and ns in which it is at least one,
with the part below the unit as a decimal fraction without trailing zeros.
-/

namespace Fieldbus.Text

/-- The first `places` decimal digits of a fraction whose value is `part / 10 ^ places`, without
trailing zeros. -/
def fractionDigits (places part : Nat) : List Char :=
  let digits := Nat.toDigits 10 part
  let padded := List.replicate (places - digits.length) '0' ++ digits
  (padded.reverse.dropWhile (· == '0')).reverse

/-- A whole number of units and a part of `10 ^ places` of a unit, followed by the unit's name. -/
def withUnit (whole part places : Nat) (unit : String) : String :=
  if part = 0 then decimal whole ++ unit
  else decimal whole ++ "." ++ String.ofList (fractionDigits places part) ++ unit

/-- A duration given in nanoseconds. -/
def duration (nanos : Nat) : String :=
  if 1000000000 ≤ nanos then withUnit (nanos / 1000000000) (nanos % 1000000000) 9 "s"
  else if 1000000 ≤ nanos then withUnit (nanos / 1000000) (nanos % 1000000) 6 "ms"
  else if 1000 ≤ nanos then withUnit (nanos / 1000) (nanos % 1000) 3 "µs"
  else withUnit nanos 0 0 "ns"

end Fieldbus.Text
