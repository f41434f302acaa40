import Fieldbus.Binary.Number
import Fieldbus.Text.Numeral

/-!
# Reading floating-point numbers

The texts that stand for a floating-point number: digits with at most one point among them and an
optional exponent, or one of the words for infinity and for "not a number" in any letter case, each
with an optional sign.
-/

namespace Fieldbus.Binary

open Fieldbus.Text

/-- What a text says before it is rounded to a format. -/
inductive Numeral where
  | nan (negative : Bool)
  | infinite (negative : Bool)
  | decimal (value : Decimal)
  deriving DecidableEq, Repr

/-- Splits an optional sign off a text and tells whether it is a minus. -/
def splitSign : List Char → Bool × List Char
  | '-' :: rest => (true, rest)
  | '+' :: rest => (false, rest)
  | text => (false, text)

/-- The exponent that follows the digits: nothing, or a mark `e` and a number with an optional
sign. -/
def exponent? : List Char → Option Int
  | [] => some 0
  | mark :: rest =>
    if mark = 'e' ∨ mark = 'E' then
      let (negative, row) := splitSign rest
      (digits? row).map fun n => if negative then -(n : Int) else n
    else none

/-- The value of a row of digits known to be such. -/
def digitsValue (row : List Char) : Nat := (continueDigits 0 row).getD 0

/-- Digits, a point and more digits, and an exponent; at least one digit stands somewhere. -/
def decimal? (negative : Bool) (text : List Char) : Option Decimal :=
  let whole := text.takeWhile isDigit
  let rest := text.dropWhile isDigit
  let (fraction, rest) := match rest with
    | '.' :: tail => (tail.takeWhile isDigit, tail.dropWhile isDigit)
    | tail => ([], tail)
  if whole.isEmpty && fraction.isEmpty then none
  else (exponent? rest).map fun exponent =>
    ⟨negative, digitsValue (whole ++ fraction), exponent - fraction.length⟩

namespace Numeral

/-- Reads a whole text. -/
def ofText? (text : List Char) : Option Numeral :=
  let (negative, body) := splitSign text
  match decimal? negative body with
  | some value => some (.decimal value)
  | none =>
    let word := String.ofList (lowercaseWord body)
    if word = "nan" then some (.nan negative)
    else if word = "inf" ∨ word = "infinity" then some (.infinite negative)
    else none
where
  /-- The word in lower case, the letters A to Z being the only ones that matter. -/
  lowercaseWord (body : List Char) : List Char := body.map Char.toLower

/-- The pattern of the number in a format. -/
def round (format : Format) : Numeral → Nat
  | .nan negative => format.withSign negative format.quietNaN
  | .infinite negative => format.withSign negative format.infinity
  | .decimal value => format.roundDecimal value

end Numeral

/-- The single that a text spells. -/
def Single.ofText? (text : List Char) : Option Single :=
  (Numeral.ofText? text).map fun numeral => ⟨UInt32.ofNat (numeral.round single)⟩

/-- The double that a text spells. -/
def Double.ofText? (text : List Char) : Option Double :=
  (Numeral.ofText? text).map fun numeral => ⟨UInt64.ofNat (numeral.round double)⟩

end Fieldbus.Binary
