import Fieldbus.Catalogue.Basic

/-!
# The standard catalogue

The definitions that hold where an installation brings no catalogue of its own.
-/

namespace Fieldbus.Catalogue

open Fieldbus.Binary

/-- The stand-in zero of real quantities. -/
def zero : Option Json := some (.float ⟨0⟩)

/-- The definition of a real quantity. -/
def real (access : Access) (representation : Representation) : Definition :=
  ⟨access, .real, representation, zero⟩

/-- The definition of a two-state quantity. -/
def twoState (access : Access) : Definition := ⟨access, .boolean, .bool8, some (.bool false)⟩

/-- The definition of a quantity with numbered states, the first of which has the number one. -/
def numbered (access : Access) : Definition := ⟨access, .unsigned, .uint32, some (.int 1)⟩

/-- The definitions by canonical name. -/
def standardDefinitions : List (String × Definition) :=
  [("analogInput", real .read .float32), ("analogOutput", real .readWrite .float32),
   ("analogValue", real .readWrite .float32), ("binaryInput", twoState .read),
   ("binaryOutput", twoState .readWrite), ("binaryValue", twoState .readWrite),
   ("binaryLightingOutput", twoState .readWrite), ("multiStateInput", numbered .read),
   ("multiStateOutput", numbered .readWrite), ("multiStateValue", numbered .readWrite),
   ("accumulator", ⟨.read, .unsigned, .uint32, some (.int 0)⟩),
   ("integerValue", ⟨.readWrite, .integer, .int32, some (.int 0)⟩),
   ("positiveIntegerValue", ⟨.readWrite, .unsigned, .uint32, some (.int 0)⟩),
   ("largeAnalogValue", real .readWrite .float64),
   ("characterstringValue", ⟨.readWrite, .string, .string, some (.string "")⟩),
   ("schedule", ⟨.read, .unknown, .string, none⟩), ("loop", real .read .float32),
   ("device", ⟨.read, .string, .string, none⟩)]

/-- The standard catalogue. -/
def standard : Catalogue :=
  standardDefinitions.foldl (fun catalogue entry => catalogue.insert entry.1 entry.2) empty

end Fieldbus.Catalogue
