/-!
# Datatypes

The kinds of primitive values, and the datatypes that a property can have: one kind of value, any
primitive value, or an array.
-/

namespace Fieldbus

/-- The kinds of primitive values, one for each application tag. -/
inductive Kind where
  | null
  | boolean
  | unsigned
  | signed
  | real
  | double
  | octetString
  | characterString
  | bitString
  | enumerated
  | date
  | time
  | objectIdentifier
  deriving DecidableEq, Repr

namespace Kind

/-- The number of the application tag. -/
def tag : Kind → UInt8
  | .null => 0
  | .boolean => 1
  | .unsigned => 2
  | .signed => 3
  | .real => 4
  | .double => 5
  | .octetString => 6
  | .characterString => 7
  | .bitString => 8
  | .enumerated => 9
  | .date => 10
  | .time => 11
  | .objectIdentifier => 12

/-- Every kind, in the order of the tags. -/
def all : List Kind :=
  [.null, .boolean, .unsigned, .signed, .real, .double, .octetString, .characterString,
   .bitString, .enumerated, .date, .time, .objectIdentifier]

/-- The kind with the given tag. -/
def ofTag? (tag : UInt8) : Option Kind := all.find? fun kind => kind.tag = tag

/-- The name of the kind. -/
def text : Kind → String
  | .null => "Null"
  | .boolean => "Boolean"
  | .unsigned => "Unsigned"
  | .signed => "Integer"
  | .real => "Real"
  | .double => "Double"
  | .octetString => "OctetString"
  | .characterString => "CharacterString"
  | .bitString => "BitString"
  | .enumerated => "Enumerated"
  | .date => "Date"
  | .time => "Time"
  | .objectIdentifier => "ObjectIdentifier"

/-- Reading the tag of a kind gives the kind back. -/
theorem ofTag?_tag (kind : Kind) : ofTag? kind.tag = some kind := by cases kind <;> rfl

/-- A kind read from a tag has that tag. -/
theorem tag_of_ofTag? {tag : UInt8} {kind : Kind} (h : ofTag? tag = some kind) :
    kind.tag = tag := by
  simpa using List.find?_some h

end Kind

/-- The datatype of a property. -/
inductive Datatype where
  | null
  | boolean
  | unsigned
  | signed
  | real
  | double
  | octetString
  | characterString
  | bitString
  /-- An enumeration with the names of its first values; there may be none. -/
  | enumerated (names : List String)
  | date
  | time
  | objectIdentifier
  /-- Any primitive value; the value tells its kind. -/
  | anyAtomic
  | array (element : Datatype)
  deriving DecidableEq, Repr

namespace Datatype

/-- The only kind of values of the datatype, if it has but one. -/
def kind? : Datatype → Option Kind
  | .null => some .null
  | .boolean => some .boolean
  | .unsigned => some .unsigned
  | .signed => some .signed
  | .real => some .real
  | .double => some .double
  | .octetString => some .octetString
  | .characterString => some .characterString
  | .bitString => some .bitString
  | .enumerated _ => some .enumerated
  | .date => some .date
  | .time => some .time
  | .objectIdentifier => some .objectIdentifier
  | .anyAtomic => none
  | .array _ => none

/-- Whether the values are primitive and of one kind. -/
def isAtomic (datatype : Datatype) : Bool := datatype.kind?.isSome

/-- The datatype of the elements of an array. -/
def element? : Datatype → Option Datatype
  | .array element => some element
  | _ => none

/-- Whether values of a kind belong to the datatype; an array is no primitive value. -/
def admits (datatype : Datatype) (kind : Kind) : Bool :=
  datatype = .anyAtomic || datatype.kind? = some kind

/-- The text of a datatype. -/
def text : Datatype → String
  | .anyAtomic => "AnyAtomic"
  | .array element => "ArrayOf(" ++ element.text ++ ")"
  | datatype => (datatype.kind?.map Kind.text).getD ""

end Datatype

end Fieldbus
