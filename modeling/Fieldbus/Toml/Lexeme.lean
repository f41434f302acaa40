import Fieldbus.Binary.Numeral
import Fieldbus.Literal.Calendar
import Fieldbus.Toml.Value

/-!
# Numbers and dates of TOML

The values that are written without quotes or brackets.  Such a value is recognised as a whole, so
every function here reads a complete row of characters.
-/

namespace Fieldbus.Toml

open Fieldbus.Text Fieldbus.Binary

/-- Whether a character may occur in a value written without quotes. -/
def isPlain (c : Char) : Bool :=
  c.isAlphanum || c = '+' || c = '-' || c = '.' || c = '_' || c = ':'

/-- The digits of a row in which single underscores may stand between digits. -/
def grouped? (isDigit : Char → Bool) : List Char → Option (List Char)
  | [] => none
  | [c] => if isDigit c then some [c] else none
  | c :: '_' :: rest =>
    if isDigit c then (grouped? isDigit rest).map (c :: ·) else none
  | c :: rest => if isDigit c then (grouped? isDigit rest).map (c :: ·) else none

/-- The digits of a decimal number: a zero alone, or a row that does not start with one. -/
def decimalDigits? (row : List Char) : Option (List Char) :=
  (grouped? isDigit row).filter fun digits => digits = ['0'] || digits.head? != some '0'

/-- The value of a row of digits in a base. -/
def valueIn (base : Nat) (row : List Char) : Nat :=
  row.foldl (fun value c => base * value + (hexDigit? c).getD 0) 0

/-- A number in base 16, 8 or 2, after its mark. -/
def based? : List Char → Option Nat
  | '0' :: 'x' :: row => (grouped? (fun c => (hexDigit? c).isSome) row).map (valueIn 16)
  | '0' :: 'o' :: row => (grouped? (fun c => '0' ≤ c && c ≤ '7') row).map (valueIn 8)
  | '0' :: 'b' :: row => (grouped? (fun c => c = '0' || c = '1') row).map (valueIn 2)
  | _ => none

/-- A row without its sign, and whether the sign is a minus. -/
def unsigned : List Char → Bool × List Char
  | '-' :: row => (true, row)
  | '+' :: row => (false, row)
  | row => (false, row)

/-- An integer of 64 bits. -/
def integer? (row : List Char) : Option Int :=
  let value := match based? row with
    | some n => some (n : Int)
    | none =>
      let (negative, digits) := unsigned row
      (decimalDigits? digits).map fun digits =>
        let n := valueIn 10 digits
        if negative then -(n : Int) else n
  value.filter fun n => -9223372036854775808 ≤ n && n ≤ 9223372036854775807

/-- Whether a row is an exponent, its mark included. -/
def isExponent : List Char → Bool
  | [] => false
  | mark :: row =>
    (mark = 'e' || mark = 'E') && (grouped? isDigit (unsigned row).2).isSome

/-- Whether a row is a floating-point number: one of two words, or digits with a fraction, an
exponent or both. -/
def isFloat (row : List Char) : Bool :=
  let body := (unsigned row).2
  let isMark : Char → Bool := fun c => c = 'e' || c = 'E'
  let mantissa := body.takeWhile fun c => !isMark c
  let exponent := body.dropWhile fun c => !isMark c
  let whole := mantissa.takeWhile (· != '.')
  let fraction := mantissa.dropWhile (· != '.')
  body = "inf".toList || body = "nan".toList ||
    ((decimalDigits? whole).isSome &&
      match fraction with
      | [] => isExponent exponent
      | _ :: digits =>
        (grouped? isDigit digits).isSome && (exponent.isEmpty || isExponent exponent))

/-- Whether a row of digits spells a number that is rounded to the positive infinity of the 64-bit
format.  Numbers that are as far below zero are not too great. -/
def isTooGreat (row : List Char) : Bool :=
  match Numeral.ofText? (row.filter (· != '_')) with
  | some (.decimal value) => double.roundDecimal value == double.infinity
  | _ => false

/-- The number that a row of exactly `width` digits spells. -/
def fixed? (width : Nat) (row : List Char) : Option Nat :=
  if row.length = width then digits? row else none

/-- Whether a row is a date: year, month and day of a day that exists. -/
def isDate (row : List Char) : Bool :=
  match fixed? 4 (row.take 4), row[4]?, fixed? 2 ((row.drop 5).take 2), row[7]?,
      fixed? 2 (row.drop 8) with
  | some year, some '-', some month, some '-', some day => Calendar.exists? year month day
  | _, _, _, _, _ => false

/-- Whether a row is a distance from the zero meridian's time: the letter Z, or a sign, hours and
minutes. -/
def isOffset : List Char → Bool
  | [letter] => letter = 'Z' || letter = 'z'
  | sign :: row =>
    (sign = '+' || sign = '-') &&
      match fixed? 2 (row.take 2), row[2]?, fixed? 2 (row.drop 3) with
      | some hour, some ':', some minute => hour ≤ 23 && minute ≤ 59
      | _, _, _ => false
  | [] => false

/-- Whether a row is a time of day, perhaps with a fraction of a second; `withOffset` says whether
an offset may follow. -/
def isTime (withOffset : Bool) (row : List Char) : Bool :=
  match fixed? 2 (row.take 2), row[2]?, fixed? 2 ((row.drop 3).take 2), row[5]?,
      fixed? 2 ((row.drop 6).take 2) with
  | some hour, some ':', some minute, some ':', some second =>
    let rest := row.drop 8
    let (fractionGood, rest) := match rest with
      | '.' :: rest => (!(rest.takeWhile isDigit).isEmpty, rest.dropWhile isDigit)
      | rest => (true, rest)
    hour ≤ 23 && minute ≤ 59 && second ≤ 60 && fractionGood &&
      (rest.isEmpty || (withOffset && isOffset rest))
  | _, _, _, _, _ => false

/-- Whether a row is a date, a time of day, or both with a letter T between them. -/
def isDatetime (row : List Char) : Bool :=
  isDate row || isTime false row ||
    (isDate (row.take 10) && (row[10]? = some 'T' || row[10]? = some 't') &&
      isTime true (row.drop 11))

/-- The value that a row of plain characters spells. -/
def plain? (row : List Char) : Option Toml :=
  if row = "true".toList then some (.boolean true)
  else if row = "false".toList then some (.boolean false)
  else if isDatetime row then some .datetime
  else if isFloat row then (if isTooGreat row then none else some .float)
  else (integer? row).map .integer

end Fieldbus.Toml
