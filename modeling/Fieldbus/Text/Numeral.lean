/-!
# Decimal numerals

Reading whole numbers from text, and writing small ones with a fixed width.  A numeral is a
non-empty row of the digits 0 to 9; a plus sign may stand before it, and a minus sign where
negative numbers are meant.
-/

namespace Fieldbus.Text

/-- The value of a decimal digit. -/
def digit? (c : Char) : Option Nat :=
  if '0' ≤ c ∧ c ≤ '9' then some (c.toNat - '0'.toNat) else none

/-- Whether a character is one of the digits 0 to 9. -/
def isDigit (c : Char) : Bool := '0' ≤ c && c ≤ '9'

/-- The number that a row of digits continues, `none` at the first character that is no digit. -/
def continueDigits (value : Nat) : List Char → Option Nat
  | [] => some value
  | c :: rest => (digit? c).bind fun d => continueDigits (10 * value + d) rest

/-- The number that a row of digits spells; the empty row spells none. -/
def digits? : List Char → Option Nat
  | [] => none
  | c :: rest => continueDigits 0 (c :: rest)

/-- A number without sign, or with a plus sign, that is at most `bound`. -/
def natural? (bound : Nat) (text : List Char) : Option Nat :=
  let row := match text with
    | '+' :: rest => rest
    | row => row
  (digits? row).filter fun value => value ≤ bound

/-- A number with an optional sign that lies between `low` and `high`. -/
def integer? (low high : Int) (text : List Char) : Option Int :=
  let value := match text with
    | '-' :: rest => (digits? rest).map fun n => -(n : Int)
    | '+' :: rest => (digits? rest).map Int.ofNat
    | row => (digits? row).map Int.ofNat
  value.filter fun v => low ≤ v && v ≤ high

/-- The decimal text of a number. -/
def decimal (n : Nat) : String := String.ofList (Nat.toDigits 10 n)

/-- The decimal text of a number, filled up with zeros on the left to at least two digits. -/
def twoDigits (n : Nat) : String :=
  if n < 10 then "0" ++ decimal n else decimal n

/-- The decimal text of an integer. -/
def signedDecimal (n : Int) : String :=
  if n < 0 then "-" ++ decimal n.natAbs else decimal n.natAbs

/-- The value of a hexadecimal digit, in either case. -/
def hexDigit? (c : Char) : Option Nat :=
  if '0' ≤ c ∧ c ≤ '9' then some (c.toNat - '0'.toNat)
  else if 'a' ≤ c ∧ c ≤ 'f' then some (c.toNat - 'a'.toNat + 10)
  else if 'A' ≤ c ∧ c ≤ 'F' then some (c.toNat - 'A'.toNat + 10)
  else none

/-- The lower-case hexadecimal digit of a number below 16. -/
def hexDigit (n : Nat) : Char :=
  if n < 10 then Char.ofNat ('0'.toNat + n) else Char.ofNat ('a'.toNat + (n - 10))

/-- The two lower-case hexadecimal digits of an octet. -/
def hexOctet (octet : UInt8) : List Char :=
  [hexDigit (octet.toNat / 16), hexDigit (octet.toNat % 16)]

/-- The lower-case hexadecimal text of a row of octets, two digits each. -/
def hex (octets : List UInt8) : String := String.ofList (octets.flatMap hexOctet)

end Fieldbus.Text
