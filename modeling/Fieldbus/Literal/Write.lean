import Fieldbus.Literal.Scalar
import Fieldbus.Text.Quoted

/-!
# Values for writing

The text handed to a write becomes a value of the property's datatype.  The word `null` stands for
the null value whatever the datatype, because null gives up a slot of a commanded value.  Where the
datatype leaves the kind open, the text starts with a type code and a colon.  Arrays are written
one element at a time, and their element 0 is their length.
-/

namespace Fieldbus.Literal

open Fieldbus.Text

/-- Why a text is no value for a property. -/
inductive CastError where
  /-- The text is no literal of the datatype. -/
  | invalid (text : String) (datatype : Datatype)
  /-- A type code is needed, and the text has none. -/
  | untagged (text : String)
  | unknownCode (code : String)
  /-- An array is written without an index. -/
  | wholeArray (datatype : Datatype)
  deriving DecidableEq, Repr

/-- The message that states the cause. -/
def CastError.message : CastError → String
  | .invalid text datatype => quoted text ++ " is not a valid " ++ datatype.text
  | .untagged text => "expected '<code>:<value>' for an untyped property, got " ++ quoted text
  | .unknownCode code => "unknown type code " ++ quoted code
  | .wholeArray datatype =>
    datatype.text ++ " can only be written one element at a time; give an array index"

/-- The type codes, each with its datatype. -/
def typeCodes : List (String × Datatype) :=
  [("b", .boolean), ("u", .unsigned), ("i", .signed), ("r", .real), ("d", .double),
   ("o", .octetString), ("c", .characterString), ("bs", .bitString), ("date", .date),
   ("time", .time), ("id", .objectIdentifier)]

/-- Reads the literal of a value of a datatype. -/
def literal (text : String) (datatype : Datatype) : Except CastError Atom :=
  match atom? text.toList datatype with
  | some value => .ok value
  | none => .error (.invalid text datatype)

/-- Reads a type code, a colon and a literal. -/
def tagged (text : String) : Except CastError Atom :=
  match splitFirst? ':' text.toList with
  | none => .error (.untagged text)
  | some (code, payload) =>
    match typeCodes.find? fun entry => entry.1.toList = code with
    | none => .error (.unknownCode (String.ofList code))
    | some entry => literal (String.ofList payload) entry.2

/-- Reads a value of a datatype that is no array. -/
def scalar (text : String) (datatype : Datatype) : Except CastError Atom :=
  if datatype = .anyAtomic then tagged text else literal text datatype

/-- Reads a value for a property of a datatype, or for an element of it. -/
def write (text : String) (datatype : Datatype) (index : Option UInt32) :
    Except CastError Atom :=
  if text = "null" then .ok .null
  else
    match datatype, index with
    | .array element, some index =>
      if index = 0 then literal text .unsigned else scalar text element
    | .array element, none => .error (.wholeArray (.array element))
    | datatype, _ => scalar text datatype

end Fieldbus.Literal
