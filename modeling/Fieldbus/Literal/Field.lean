import Fieldbus.Text.Blank
import Fieldbus.Text.Numeral
import Fieldbus.Value.Basic

/-!
# Fields of dates and times

The numbers that dates and times are written with.  A plain date or time is read from left to
right, and blanks may stand before each of its numbers.  In a date or time with stars the
separators cut the text into fields, each a star or a number that fills the field.
-/

namespace Fieldbus.Literal

open Fieldbus.Text

/-- The number that starts a text, of at most `width` digits and with blanks before it, and the
text after it. -/
def leadingNumber? (width : Nat) (text : List Char) : Option (Nat × List Char) :=
  let text := trimStart text
  let row := (text.take width).takeWhile isDigit
  (digits? row).map fun value => (value, text.drop row.length)

/-- The year that starts a text: a number of at most four digits, or a sign and a number of any
length. -/
def leadingYear? (text : List Char) : Option (Int × List Char) :=
  match trimStart text with
  | '-' :: rest => (unbounded rest).map fun found => (-(found.1 : Int), found.2)
  | '+' :: rest => (unbounded rest).map fun found => ((found.1 : Int), found.2)
  | text => (leadingNumber? 4 text).map fun found => ((found.1 : Int), found.2)
where
  /-- The number that starts a text, whatever its length. -/
  unbounded (text : List Char) : Option (Nat × List Char) :=
    let row := text.takeWhile isDigit
    (digits? row).map fun value => (value, text.drop row.length)

/-- The text after a character that it has to start with. -/
def after? (c : Char) : List Char → Option (List Char)
  | [] => none
  | first :: rest => if first = c then some rest else none

/-- Whether a text has a star somewhere, which makes it one of fields. -/
def hasStar (text : List Char) : Bool := text.contains '*'

/-- The octet of a field: a star leaves the part unspecified, a number has to lie between the
bounds. -/
def field? (low high : Nat) (field : List Char) : Option UInt8 :=
  if field = ['*'] then some unspecified
  else ((natural? 255 field).filter fun n => low ≤ n && n ≤ high).map UInt8.ofNat

end Fieldbus.Literal
