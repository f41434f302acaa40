import Fieldbus.Binary.Numeral
import Fieldbus.Catalogue.Basic
import Fieldbus.Json.Printer
import Fieldbus.Text.Blank

/-!
# Present values

Present values arrive as numbers, words and texts of many spellings.  Normalizing gives each the
form that the catalogue asks for; preparing turns a value into the text that a write takes.
-/

namespace Fieldbus.PresentValue

open Fieldbus.Text Fieldbus.Binary

/-- The words for true. -/
def trueWords : List String := ["active", "on", "1", "true", "enabled", "set", "yes"]

/-- The words for false. -/
def falseWords : List String :=
  ["inactive", "off", "0", "false", "disabled", "clear", "reset", "no"]

/-- Whether a text means true: it is one of the words, or it is a number other than zero, or it is
anything else but empty. -/
def wordTruth (text : String) : Bool :=
  let word := lowercaseAll (trim text.toList)
  if trueWords.contains (String.ofList word) then true
  else if falseWords.contains (String.ofList word) then false
  else
    match Double.ofText? word with
    | some number => !number.isZero
    | none => !word.isEmpty

/-- Whether a value means true. -/
def truth : Json → Bool
  | .null => false
  | .bool b => b
  | .int n => n != 0
  | .float x => !x.isZero
  | .string text => wordTruth text
  | .array items => !items.isEmpty
  | .object members => !members.isEmpty

/-- The finite number that a text spells. -/
def finite? (text : List Char) : Option Double :=
  (Double.ofText? text).filter Double.isFinite

/-- The real number that a value stands for. -/
def real? : Json → Option Double
  | .int n => some (.ofInt n)
  | .float x => some x
  | .string text => finite? (trim text.toList)
  | .bool b => some (.ofInt b.toInt)
  | _ => none

/-- The least integer of 64 bits. -/
def minInt : Int := -9223372036854775808

/-- The greatest integer of 64 bits. -/
def maxInt : Int := 9223372036854775807

/-- The integer of 64 bits nearest to a number. -/
def nearest (x : Double) : Int := max minInt (min maxInt x.nearestInt)

/-- The integer that a value stands for.  An integer beyond 63 bits counts as the real number
nearest to it. -/
def integer? : Json → Option Int
  | .int n => some (if n ≤ maxInt then n else nearest (.ofInt n))
  | .float x => some (nearest x)
  | .string text =>
    let body := trim text.toList
    match Text.integer? minInt maxInt body with
    | some n => some n
    | none => (finite? body).map nearest
  | .bool b => some b.toInt
  | _ => none

/-- The text of a value: strings as they are, nothing for null, and JSON text for all else. -/
def textOf : Json → String
  | .null => ""
  | .string text => text
  | value => value.text

/-- The form that the catalogue asks for.  A value that stands for no number gives way to the
stand-in of the object type, or to null where there is none. -/
def normalize (catalogue : Catalogue) (name : String) (raw : Json) : Json :=
  let standIn := (catalogue.standIn name).getD .null
  match catalogue.meaning name with
  | .boolean => .bool (truth raw)
  | .real => ((real? raw).map .float).getD standIn
  | .integer | .unsigned | .enumerated => ((integer? raw).map .int).getD standIn
  | .string | .unknown => .string (textOf raw)

/-- The folded names of the object types whose states are called active and inactive. -/
def twoStateNames : List String := ["binaryoutput", "binaryvalue", "binarylightingoutput"]

/-- The text that writes a value to an object of a type. -/
def writeText (name : String) : Json → String
  | .null => "null"
  | .bool b =>
    if twoStateNames.contains (String.ofList (Name.fold name)) then
      if b then "active" else "inactive"
    else textOf (.bool b)
  | value => textOf value

end Fieldbus.PresentValue
