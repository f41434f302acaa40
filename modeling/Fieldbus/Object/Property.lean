import Fieldbus.Name

/-!
# Properties

The identifiers of object properties, and the canonical names of the standard ones.
-/

namespace Fieldbus

/-- The code of a property. -/
structure Property where
  code : UInt32
  deriving DecidableEq, Repr

namespace Property

/-- The standard properties; property codes have 22 bits. -/
def vocabulary : Name.Vocabulary where
  entries :=
    [(4, "activeText"), (11, "apduTimeout"), (12, "applicationSoftwareVersion"),
     (22, "covIncrement"), (28, "description"), (30, "deviceAddressBinding"),
     (32, "effectivePeriod"), (36, "eventState"), (44, "firmwareRevision"),
     (46, "inactiveText"), (56, "localDate"), (57, "localTime"), (58, "location"),
     (62, "maxApduLengthAccepted"), (63, "maxInfoFrames"), (64, "maxMaster"),
     (65, "maxPresValue"), (69, "minPresValue"), (70, "modelName"),
     (73, "numberOfApduRetries"), (74, "numberOfStates"), (75, "objectIdentifier"),
     (76, "objectList"), (77, "objectName"), (79, "objectType"), (81, "outOfService"),
     (84, "polarity"), (85, "presentValue"), (87, "priorityArray"), (98, "protocolVersion"),
     (103, "reliability"), (104, "relinquishDefault"), (106, "resolution"),
     (107, "segmentationSupported"), (110, "stateText"), (111, "statusFlags"),
     (112, "systemStatus"), (117, "units"), (120, "vendorIdentifier"), (121, "vendorName"),
     (139, "protocolRevision"), (155, "databaseRevision"), (174, "scheduleDefault"),
     (186, "pulseRate")]
  limit := 4194304

/-- The property that a name or number stands for. -/
def ofName? (name : String) : Option Property :=
  (vocabulary.code? name).map fun code => ⟨UInt32.ofNat code⟩

/-- The canonical name, if the property is a standard one. -/
def name? (property : Property) : Option String := vocabulary.name? property.code.toNat

/-- The canonical name, or `proprietary-` and the code. -/
def text (property : Property) : String := vocabulary.text property.code.toNat

/-- The list of the objects of a device. -/
def objectList : Property := ⟨76⟩

end Property

end Fieldbus
