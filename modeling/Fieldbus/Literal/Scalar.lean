import Fieldbus.Binary.Numeral
import Fieldbus.Literal.Date
import Fieldbus.Literal.Time
import Fieldbus.Name

/-!
# Literals of primitive values

The texts that stand for the values of each kind.  Blanks around a literal do not count, except
that a character string is taken as it is.
-/

namespace Fieldbus.Literal

open Fieldbus.Text Fieldbus.Binary

/-- Reads a truth value, in any letter case. -/
def boolean? (text : List Char) : Option Bool :=
  let word := String.ofList (lowercaseLatin text)
  if word ∈ ["true", "1", "on", "active"] then some true
  else if word ∈ ["false", "0", "off", "inactive"] then some false
  else none

/-- The octet that two characters spell: two hexadecimal digits, or a plus sign and one. -/
def octet? (high low : Char) : Option UInt8 :=
  if high = '+' then (hexDigit? low).map UInt8.ofNat
  else (hexDigit? high).bind fun h => (hexDigit? low).map fun l => UInt8.ofNat (16 * h + l)

/-- The octets that a row of characters spells, two characters each. -/
def octetPairs? : List Char → Option (List UInt8)
  | [] => some []
  | [_] => none
  | high :: low :: rest =>
    (octet? high low).bind fun octet => (octetPairs? rest).map (octet :: ·)

/-- Reads octets; blanks and colons between the digits do not count. -/
def octets? (text : List Char) : Option (List UInt8) :=
  octetPairs? (text.filter fun c => !isBlank c && c != ':')

/-- The bit that a digit stands for. -/
def bit? (c : Char) : Option Bool :=
  if c = '0' then some false else if c = '1' then some true else none

/-- Reads bits; brackets, commas and spaces between the digits do not count. -/
def bits? (text : List Char) : Option (List Bool) :=
  (text.filter fun c => c != '[' && c != ']' && c != ',' && c != ' ').mapM bit?

/-- Reads an enumerated value: its number, or its name in any spelling. -/
def enumerated? (names : List String) (text : List Char) : Option UInt32 :=
  match natural? 4294967295 text with
  | some n => some (UInt32.ofNat n)
  | none =>
    let folded := Name.fold (String.ofList text)
    (names.findIdx? fun name => Name.fold name = folded).map UInt32.ofNat

/-- Reads an object identifier: the name of a type and an instance number, with a comma between
them, or with a colon where there is no comma. -/
def objectIdentifier? (text : List Char) : Option ObjectIdentifier := do
  let (typeName, number) ← (splitFirst? ',' text).orElse fun _ => splitLast? ':' text
  let type ← ObjectType.ofName? (String.ofList (trim typeName))
  let number ← natural? maxInstance.toNat (trim number)
  return ⟨type, UInt32.ofNat number⟩

/-- Reads the literal of a value of a datatype. -/
def atom? (raw : List Char) (datatype : Datatype) : Option Atom :=
  let text := trim raw
  match datatype with
  | .null => if text = [] ∨ text = "null".toList then some .null else none
  | .boolean => (boolean? text).map .boolean
  | .unsigned => (natural? 18446744073709551615 text).map fun n => .unsigned (UInt64.ofNat n)
  | .signed =>
    (integer? (-9223372036854775808) 9223372036854775807 text).map fun n =>
      .signed (Int64.ofInt n)
  | .real => (Single.ofText? text).map .real
  | .double => (Double.ofText? text).map .double
  | .octetString => (octets? text).map .octetString
  | .characterString => some (.characterString (String.ofList raw))
  | .bitString => (bits? text).map .bitString
  | .enumerated names => (enumerated? names text).map .enumerated
  | .date => (date? text).map .date
  | .time => (time? text).map .time
  | .objectIdentifier => (objectIdentifier? text).map .objectIdentifier
  | .anyAtomic => none
  | .array _ => none

end Fieldbus.Literal
