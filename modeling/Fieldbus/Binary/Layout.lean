import Fieldbus.Binary.Decimal
import Fieldbus.Text.Numeral

/-!
# The layout of decimal numbers

How a decimal number is written once its digits are known.  A `Layout` holds the decisions: which
orders of magnitude are written positionally, and how the exponent of the others looks.
-/

namespace Fieldbus.Binary

open Fieldbus.Text

/-- The decisions on the text of a decimal number.  The exponent that they speak of is that of the
first digit. -/
structure Layout where
  /-- The least exponent written positionally. -/
  positionalFrom : Int
  /-- The least exponent above it that is not. -/
  positionalBelow : Int
  /-- What stands between the digits and an exponent that is not negative. -/
  exponentMark : String
  /-- What stands between the digits and the absolute value of a negative exponent. -/
  negativeExponentMark : String
  /-- What follows a whole number written positionally. -/
  wholeEnd : String

/-- The text of a number without its sign.  The significand of `d` has no trailing zeros. -/
def Layout.magnitudeText (layout : Layout) (d : Decimal) : String :=
  let digits := Nat.toDigits 10 d.significand
  let order := digits.length + d.exponent
  let exponent := order - 1
  if d.significand = 0 then "0" ++ layout.wholeEnd
  else if layout.positionalFrom ≤ exponent ∧ exponent < layout.positionalBelow then
    if 0 ≤ d.exponent then
      String.ofList (digits ++ List.replicate d.exponent.toNat '0') ++ layout.wholeEnd
    else if 0 < order then
      String.ofList (digits.take order.toNat ++ '.' :: digits.drop order.toNat)
    else
      "0." ++ String.ofList (List.replicate (-order).toNat '0' ++ digits)
  else
    let mark := if exponent < 0 then layout.negativeExponentMark else layout.exponentMark
    let head := match digits with
      | first :: second :: rest => first :: '.' :: second :: rest
      | short => short
    String.ofList head ++ mark ++ decimal exponent.natAbs

/-- The text of a decimal number. -/
def Layout.text (layout : Layout) (d : Decimal) : String :=
  if d.negative then "-" ++ layout.magnitudeText d else layout.magnitudeText d

end Fieldbus.Binary
