import Fieldbus.Datatype.Schema
import Fieldbus.Link.Answer
import Fieldbus.Value.Decode

/-!
# Replies to reads

What a read acknowledgement says.  Its octets are decoded with the datatype of the object and the
property that the acknowledgement itself names; the index it names picks the length or an element
of an array.
-/

namespace Fieldbus

/-- Why an acknowledgement does not answer the request. -/
inductive ReplyError where
  | unexpectedAck (expected found : AckKind)
  /-- Nothing is known of the property that the acknowledgement names. -/
  | unknownDatatype (property : Property) (type : ObjectType)
  | undecodable (datatype : Datatype) (cause : DecodeError)
  deriving DecidableEq, Repr

/-- The message that states the cause. -/
def ReplyError.message : ReplyError → String
  | .unexpectedAck expected found => "expected " ++ expected.text ++ ", got " ++ found.text
  | .unknownDatatype property type =>
    "unknown datatype for " ++ property.text ++ " of " ++ type.text
  | .undecodable datatype cause => "undecodable " ++ datatype.text ++ ": " ++ cause.message

namespace ReadAck

/-- The datatype of the property that an acknowledgement names. -/
def datatype (ack : ReadAck) : Except ReplyError Datatype :=
  match Schema.datatype? ack.object.type ack.property with
  | some datatype => .ok datatype
  | none => .error (.unknownDatatype ack.property ack.object.type)

/-- The octets of an acknowledgement as a value of a datatype. -/
def valueAs (ack : ReadAck) (datatype : Datatype) : Except ReplyError Value :=
  match Value.decode ack.octets datatype with
  | .ok value => .ok value
  | .error cause => .error (.undecodable datatype cause)

/-- The datatype of what an index picks out of a property: element 0 of an array is its length. -/
def picked (datatype : Datatype) (index : Option UInt32) : Datatype :=
  match datatype.element?, index with
  | some element, some index => if index = 0 then .unsigned else element
  | _, _ => datatype

/-- The value that an acknowledgement carries, with its datatype. -/
def decode (ack : ReadAck) : Except ReplyError (Value × Datatype) := do
  let datatype := picked (← ack.datatype) ack.index
  let value ← ack.valueAs datatype
  return (value, datatype)

end ReadAck

end Fieldbus
