import Fieldbus.Binary.Number
import Fieldbus.Datatype.Basic
import Fieldbus.Object.Identifier
import Fieldbus.Text.Numeral

/-!
# Property values

The values that objects hold: primitive values of thirteen kinds, and arrays.
-/

namespace Fieldbus

open Fieldbus.Binary Fieldbus.Text

/-- The octet that marks a part of a date or time as unspecified. -/
def unspecified : UInt8 := 255

/-- A date, each part of which may be unspecified. -/
structure Date where
  /-- Years since 1900. -/
  year : UInt8
  month : UInt8
  day : UInt8
  /-- From 1 for Monday to 7 for Sunday. -/
  weekday : UInt8
  deriving DecidableEq, Repr

/-- A time of day, each part of which may be unspecified. -/
structure Time where
  hour : UInt8
  minute : UInt8
  second : UInt8
  hundredths : UInt8
  deriving DecidableEq, Repr

/-- A part of a date or time with two digits, or a star where it is unspecified. -/
def partText (octet : UInt8) : String :=
  if octet = unspecified then "*" else twoDigits octet.toNat

/-- Year, month and day with hyphens between them. -/
def Date.text (date : Date) : String :=
  (if date.year = unspecified then "*" else decimal (1900 + date.year.toNat)) ++
    "-" ++ partText date.month ++ "-" ++ partText date.day

/-- Hour, minute, second and hundredths. -/
def Time.text (time : Time) : String :=
  partText time.hour ++ ":" ++ partText time.minute ++ ":" ++ partText time.second ++ "." ++
    partText time.hundredths

/-- A primitive value. -/
inductive Atom where
  | null
  | boolean (value : Bool)
  | unsigned (value : UInt64)
  | signed (value : Int64)
  | real (value : Single)
  | double (value : Double)
  | octetString (octets : List UInt8)
  | characterString (text : String)
  /-- Bits in order, the first one first. -/
  | bitString (bits : List Bool)
  | enumerated (value : UInt32)
  | date (value : Date)
  | time (value : Time)
  | objectIdentifier (value : ObjectIdentifier)
  deriving DecidableEq, Repr

/-- The kind of a primitive value. -/
def Atom.kind : Atom → Kind
  | .null => .null
  | .boolean _ => .boolean
  | .unsigned _ => .unsigned
  | .signed _ => .signed
  | .real _ => .real
  | .double _ => .double
  | .octetString _ => .octetString
  | .characterString _ => .characterString
  | .bitString _ => .bitString
  | .enumerated _ => .enumerated
  | .date _ => .date
  | .time _ => .time
  | .objectIdentifier _ => .objectIdentifier

/-- A property value. -/
inductive Value where
  | atom (value : Atom)
  | array (items : List Value)
  deriving Repr

namespace Value

/-- The name of the kind of a value. -/
def typeName : Value → String
  | .atom value => value.kind.text
  | .array _ => "Array"

/-- The array of primitive values. -/
def ofAtoms (atoms : List Atom) : Value := .array (atoms.map Value.atom)

end Value

end Fieldbus
