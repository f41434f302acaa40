import Fieldbus.Value.Basic
import Fieldbus.Json.Value
import Fieldbus.Text.Numeral

/-!
# Values as JSON

How a property value is shown as JSON.  The datatype of the property gives the names of enumerated
values; a number that JSON cannot say, such as infinity, is shown as a word.
-/

namespace Fieldbus

open Fieldbus.Binary Fieldbus.Text

/-- The word for what is not a finite number. -/
def specialText (magnitude : Magnitude) (negative : Bool) : String :=
  match magnitude with
  | .nan => "NaN"
  | _ => if negative then "-inf" else "inf"

/-- A single as JSON: the double that has the single's shortest text. -/
def singleJson (x : Single) : Json :=
  match Double.ofSingle? x with
  | some wide => .float wide
  | none => .string (specialText x.magnitude x.isNegative)

/-- A double as JSON. -/
def doubleJson (x : Double) : Json :=
  if x.isFinite then .float x else .string (specialText x.magnitude x.isNegative)

/-- An enumerated value as JSON: its name where the datatype has one for it, else the number. -/
def enumeratedJson (n : UInt32) : Datatype → Json
  | .enumerated names =>
    match names[n.toNat]? with
    | some name => .string name
    | none => .ofNat n.toNat
  | _ => .ofNat n.toNat

/-- A primitive value as JSON. -/
def Atom.toJson (datatype : Datatype) : Atom → Json
  | .null => .null
  | .boolean b => .bool b
  | .unsigned n => .ofNat n.toNat
  | .signed n => .int n.toInt
  | .real x => singleJson x
  | .double x => doubleJson x
  | .octetString octets => .string (hex octets)
  | .characterString text => .string text
  | .bitString bits => .array (bits.map fun bit => .ofNat bit.toNat)
  | .enumerated n => enumeratedJson n datatype
  | .date d => .string d.text
  | .time t => .string t.text
  | .objectIdentifier id => .array [.string id.type.text, .ofNat id.number.toNat]

mutual

/-- A value as JSON; the elements of an array follow the datatype's element. -/
def Value.toJson (datatype : Datatype) : Value → Json
  | .atom value => value.toJson datatype
  | .array items => .array (Value.toJsonAll (datatype.element?.getD .anyAtomic) items)

/-- A row of values as JSON. -/
def Value.toJsonAll (datatype : Datatype) : List Value → List Json
  | [] => []
  | item :: rest => item.toJson datatype :: Value.toJsonAll datatype rest

end

end Fieldbus
