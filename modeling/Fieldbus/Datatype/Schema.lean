import Fieldbus.Datatype.Basic
import Fieldbus.Object.Type
import Fieldbus.Object.Property

/-!
# The datatype schema

Which datatype a property of an object has.  The schema lists the properties of the object types
in common use, object type by object type, and the four properties that every standard object
has.  Nothing is known of other pairs.
-/

namespace Fieldbus.Schema

/-- The states of a two-state quantity. -/
def binaryStates : Datatype := .enumerated ["inactive", "active"]

/-- The polarities of a two-state point. -/
def polarities : Datatype := .enumerated ["normal", "reverse"]

/-- The event states of an object. -/
def eventStates : Datatype :=
  .enumerated ["normal", "fault", "offnormal", "highLimit", "lowLimit", "lifeSafetyAlarm"]

/-- The reasons why a value may be unreliable. -/
def reliabilities : Datatype :=
  .enumerated ["noFaultDetected", "noSensor", "overRange", "underRange", "openLoop",
    "shortedLoop", "noOutput", "unreliableOther", "processError", "multiStateFault",
    "configurationError"]

/-- The segmentation capabilities of a device. -/
def segmentations : Datatype :=
  .enumerated ["segmentedBoth", "segmentedTransmit", "segmentedReceive", "noSegmentation"]

/-- The states of a device. -/
def deviceStates : Datatype :=
  .enumerated ["operational", "operationalReadOnly", "downloadRequired", "downloadInProgress",
    "nonOperational", "backupInProgress"]

/-- An enumeration whose values have no names here. -/
def unnamed : Datatype := .enumerated []

/-- The slots of a commanded value, each of which holds a value or null. -/
def priorities : Datatype := .array .anyAtomic

/-- Properties by code, with their datatypes. -/
abbrev Table := List (UInt32 × Datatype)

/-- The datatype that a table gives a property. -/
def Table.find? (table : Table) (property : Property) : Option Datatype :=
  (List.find? (fun entry => entry.1 = property.code) table).map Prod.snd

/-- Status flags, event state, reliability and the out-of-service flag. -/
def status : Table :=
  [(111, .bitString), (36, eventStates), (103, reliabilities), (81, .boolean)]

/-- The priority array of a commanded quantity and the value that it falls back to. -/
def commandable (value : Datatype) : Table := [(87, priorities), (104, value)]

/-- Present value, increment, bounds and resolution, and the units of an analog quantity. -/
def analog : Table :=
  [(85, .real), (22, .real), (69, .real), (65, .real), (106, .real), (117, unnamed)] ++ status

/-- Present value and the texts of the states of a two-state quantity. -/
def binary : Table :=
  [(85, binaryStates), (4, .characterString), (46, .characterString)] ++ status

/-- The polarity of a two-state point that has a wire. -/
def polarity : Table := [(84, polarities)]

/-- Present value, number of states and their texts. -/
def multiState : Table :=
  [(85, .unsigned), (74, .unsigned), (110, .array .characterString)] ++ status

/-- Count, greatest count, rate and units of a counter. -/
def accumulator : Table :=
  [(85, .unsigned), (65, .unsigned), (186, .unsigned), (117, unnamed)] ++ status

/-- The value of a schedule now and when nothing is scheduled. -/
def schedule : Table := [(85, .anyAtomic), (174, .anyAtomic)] ++ status

/-- The properties of a device. -/
def device : Table :=
  [(112, deviceStates), (121, .characterString), (70, .characterString), (44, .characterString),
   (12, .characterString), (58, .characterString), (120, .unsigned), (98, .unsigned),
   (139, .unsigned), (62, .unsigned), (11, .unsigned), (73, .unsigned), (64, .unsigned),
   (63, .unsigned), (155, .unsigned), (76, .array .objectIdentifier), (107, segmentations),
   (56, .date), (57, .time)]

/-- Identifier, name, type and description, which every standard object has. -/
def common : Table :=
  [(75, .objectIdentifier), (77, .characterString), (79, unnamed), (28, .characterString)]

/-- The object types whose own properties are listed. -/
def objects : List (ObjectType × Table) :=
  [(.analogInput, analog), (.analogOutput, analog ++ commandable .real),
   (.analogValue, analog ++ commandable .real), (.binaryInput, binary ++ polarity),
   (.binaryOutput, binary ++ polarity ++ commandable binaryStates),
   (.binaryValue, binary ++ commandable binaryStates), (.multiStateInput, multiState),
   (.multiStateOutput, multiState ++ commandable .unsigned),
   (.multiStateValue, multiState ++ commandable .unsigned), (.accumulator, accumulator),
   (.schedule, schedule), (.device, device)]

/-- The table of an object type: what is listed for it, and the common properties where the type
is a standard one. -/
def tableOf (type : ObjectType) : Table :=
  let own := ((objects.find? fun entry => entry.1 = type).map Prod.snd).getD []
  if type.name?.isSome then own ++ common else own

/-- The datatype of a property of objects of a type, if it is known. -/
def datatype? (type : ObjectType) (property : Property) : Option Datatype :=
  (tableOf type).find? property

/-- An object type and a property with their datatype. -/
structure Resolved where
  type : ObjectType
  property : Property
  datatype : Datatype
  deriving DecidableEq, Repr

/-- Resolves the names of an object type and a property together with the datatype. -/
def resolve? (typeName propertyName : String) : Option Resolved := do
  let type ← ObjectType.ofName? typeName
  let property ← Property.ofName? propertyName
  let datatype ← datatype? type property
  return ⟨type, property, datatype⟩

end Fieldbus.Schema
