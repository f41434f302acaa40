import Fieldbus.Name

/-!
# Object types

The type half of an object identifier, and the canonical names of the standard types.
-/

namespace Fieldbus

/-- The code of an object type.  Ten bits of it fit an object identifier. -/
structure ObjectType where
  code : UInt16
  deriving DecidableEq, Repr

namespace ObjectType

/-- The standard object types; their codes have ten bits. -/
def vocabulary : Name.Vocabulary where
  entries :=
    [(0, "analogInput"), (1, "analogOutput"), (2, "analogValue"), (3, "binaryInput"),
     (4, "binaryOutput"), (5, "binaryValue"), (6, "calendar"), (7, "command"), (8, "device"),
     (9, "eventEnrollment"), (10, "file"), (11, "group"), (12, "loop"), (13, "multiStateInput"),
     (14, "multiStateOutput"), (15, "notificationClass"), (16, "program"), (17, "schedule"),
     (18, "averaging"), (19, "multiStateValue"), (20, "trendLog"), (21, "lifeSafetyPoint"),
     (22, "lifeSafetyZone"), (23, "accumulator"), (24, "pulseConverter"), (25, "eventLog"),
     (26, "globalGroup"), (27, "trendLogMultiple"), (28, "loadControl"), (29, "structuredView"),
     (30, "accessDoor"), (40, "characterstringValue"), (45, "integerValue"),
     (46, "largeAnalogValue"), (48, "positiveIntegerValue"), (54, "lightingOutput"),
     (55, "binaryLightingOutput"), (56, "networkPort")]
  limit := 1024

/-- The type that a name or number stands for. -/
def ofName? (name : String) : Option ObjectType :=
  (vocabulary.code? name).map fun code => ⟨UInt16.ofNat code⟩

/-- The canonical name, if the type is a standard one. -/
def name? (type : ObjectType) : Option String := vocabulary.name? type.code.toNat

/-- The canonical name, or `proprietary-` and the code. -/
def text (type : ObjectType) : String := vocabulary.text type.code.toNat

/-- A measured analog quantity. -/
def analogInput : ObjectType := ⟨0⟩

/-- A commanded analog quantity. -/
def analogOutput : ObjectType := ⟨1⟩

/-- An analog quantity held by the device. -/
def analogValue : ObjectType := ⟨2⟩

/-- A measured two-state quantity. -/
def binaryInput : ObjectType := ⟨3⟩

/-- A commanded two-state quantity. -/
def binaryOutput : ObjectType := ⟨4⟩

/-- A two-state quantity held by the device. -/
def binaryValue : ObjectType := ⟨5⟩

/-- The device itself. -/
def device : ObjectType := ⟨8⟩

/-- A measured quantity with numbered states. -/
def multiStateInput : ObjectType := ⟨13⟩

/-- A commanded quantity with numbered states. -/
def multiStateOutput : ObjectType := ⟨14⟩

/-- A schedule of values of any type. -/
def schedule : ObjectType := ⟨17⟩

/-- A quantity with numbered states held by the device. -/
def multiStateValue : ObjectType := ⟨19⟩

/-- A counter of pulses. -/
def accumulator : ObjectType := ⟨23⟩

end ObjectType

end Fieldbus
