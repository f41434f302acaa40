import Fieldbus.Json.Value
import Fieldbus.Binary.Layout

/-!
# Compact JSON text

The text of a JSON value without blanks.  Strings escape the quotation mark, the backslash and the
control characters below U+0020; all other characters stand as they are.
-/

namespace Fieldbus.Json

open Fieldbus.Text Fieldbus.Binary

/-- Numbers from 0.00001 up to, but not including, ten to the sixteenth are written positionally,
with a fraction even where it is zero; an exponent shows its sign. -/
def numberLayout : Layout where
  positionalFrom := -5
  positionalBelow := 16
  exponentMark := "e+"
  negativeExponentMark := "e-"
  wholeEnd := ".0"

/-- The text of a floating-point number by its fewest digits. -/
def floatText (x : Double) : String := (x.shortest?.map numberLayout.text).getD "null"

/-- A character as it stands in a string. -/
def escapeChar (c : Char) : List Char :=
  if c = '"' then ['\\', '"']
  else if c = '\\' then ['\\', '\\']
  else if c = '\x08' then ['\\', 'b']
  else if c = '\x0c' then ['\\', 'f']
  else if c = '\n' then ['\\', 'n']
  else if c = '\r' then ['\\', 'r']
  else if c = '\t' then ['\\', 't']
  else if c.toNat < 32 then
    ['\\', 'u', '0', '0', hexDigit (c.toNat / 16), hexDigit (c.toNat % 16)]
  else [c]

/-- A string with its quotation marks. -/
def stringText (text : String) : String :=
  String.ofList ('"' :: text.toList.flatMap escapeChar ++ ['"'])

mutual

/-- The compact text of a value. -/
def text : Json → String
  | .null => "null"
  | .bool true => "true"
  | .bool false => "false"
  | .int n => signedDecimal n
  | .float x => floatText x
  | .string s => stringText s
  | .array items => "[" ++ String.intercalate "," (itemTexts items) ++ "]"
  | .object members => "\x7b" ++ String.intercalate "," (memberTexts members) ++ "\x7d"

/-- The texts of a row of values. -/
def itemTexts : List Json → List String
  | [] => []
  | item :: rest => text item :: itemTexts rest

/-- The texts of a row of members, each a name and a value with a colon between them. -/
def memberTexts : List (String × Json) → List String
  | [] => []
  | (name, value) :: rest => (stringText name ++ ":" ++ text value) :: memberTexts rest

end

end Fieldbus.Json
