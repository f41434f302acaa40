import Fieldbus.Json.Value
import Fieldbus.Name

/-!
# The catalogue of object types

What an installation says about the present values of each object type: whether they may be
written, what they mean, how they are represented outside, and what stands in for a value that is
not there.  Object types are found by any spelling of their names.
-/

namespace Fieldbus

/-- Whether present values may be written. -/
inductive Access where
  | read
  | readWrite
  deriving DecidableEq, Repr

/-- What present values mean. -/
inductive Meaning where
  | boolean
  | real
  | integer
  | unsigned
  | enumerated
  | string
  | unknown
  deriving DecidableEq, Repr

/-- How present values are represented outside. -/
inductive Representation where
  | bool8
  | int8
  | int16
  | int32
  | int64
  | uint8
  | uint16
  | uint32
  | uint64
  | float32
  | float64
  | string
  deriving DecidableEq, Repr

namespace Access

/-- The spellings of the access rights. -/
def spellings : List (String × Access) := [("R", .read), ("R/W", .readWrite)]

/-- The access right with the given spelling. -/
def ofText? (text : String) : Option Access := spellings.lookup text

/-- The spelling of an access right. -/
def text : Access → String
  | .read => "R"
  | .readWrite => "R/W"

end Access

namespace Meaning

/-- The spellings of the meanings. -/
def spellings : List (String × Meaning) :=
  [("BOOLEAN", .boolean), ("REAL", .real), ("INTEGER", .integer), ("UNSIGNED", .unsigned),
   ("ENUMERATED", .enumerated), ("STRING", .string), ("UNKNOWN", .unknown)]

/-- The meaning with the given spelling. -/
def ofText? (text : String) : Option Meaning := spellings.lookup text

/-- The spelling of a meaning. -/
def text : Meaning → String
  | .boolean => "BOOLEAN"
  | .real => "REAL"
  | .integer => "INTEGER"
  | .unsigned => "UNSIGNED"
  | .enumerated => "ENUMERATED"
  | .string => "STRING"
  | .unknown => "UNKNOWN"

end Meaning

namespace Representation

/-- The spellings of the representations. -/
def spellings : List (String × Representation) :=
  [("bool8", .bool8), ("int8", .int8), ("int16", .int16), ("int32", .int32), ("int64", .int64),
   ("uint8", .uint8), ("uint16", .uint16), ("uint32", .uint32), ("uint64", .uint64),
   ("float32", .float32), ("float64", .float64), ("string", .string)]

/-- The representation with the given spelling. -/
def ofText? (text : String) : Option Representation := spellings.lookup text

/-- The spelling of a representation. -/
def text : Representation → String
  | .bool8 => "bool8"
  | .int8 => "int8"
  | .int16 => "int16"
  | .int32 => "int32"
  | .int64 => "int64"
  | .uint8 => "uint8"
  | .uint16 => "uint16"
  | .uint32 => "uint32"
  | .uint64 => "uint64"
  | .float32 => "float32"
  | .float64 => "float64"
  | .string => "string"

end Representation

/-- What the catalogue says about an object type. -/
structure Definition where
  access : Access
  meaning : Meaning
  representation : Representation
  /-- What stands in for a present value that is not there. -/
  standIn : Option Json
  deriving Repr

/-- Definitions under the folded names of their object types. -/
structure Catalogue where
  definitions : List (List Char × Definition)
  deriving Repr

namespace Catalogue

/-- The catalogue that says nothing. -/
def empty : Catalogue := ⟨[]⟩

/-- Definitions with one put under a folded name, in place of the one that was there. -/
def put (key : List Char) (definition : Definition) :
    List (List Char × Definition) → List (List Char × Definition)
  | [] => [(key, definition)]
  | (other, old) :: rest =>
    if key = other then (key, definition) :: rest
    else (other, old) :: put key definition rest

/-- The catalogue with a definition put under a name. -/
def insert (catalogue : Catalogue) (name : String) (definition : Definition) : Catalogue :=
  ⟨put (Name.fold name) definition catalogue.definitions⟩

/-- The definition of an object type, found by any spelling of its name. -/
def find? (catalogue : Catalogue) (name : String) : Option Definition :=
  catalogue.definitions.lookup (Name.fold name)

/-- What the present values of an object type mean. -/
def meaning (catalogue : Catalogue) (name : String) : Meaning :=
  ((catalogue.find? name).map Definition.meaning).getD .unknown

/-- Whether the present values of an object type may be written. -/
def isWritable (catalogue : Catalogue) (name : String) : Bool :=
  (catalogue.find? name).any fun definition => definition.access = .readWrite

/-- How the present values of an object type are represented outside. -/
def representation (catalogue : Catalogue) (name : String) : Representation :=
  ((catalogue.find? name).map Definition.representation).getD .string

/-- What stands in for a present value of an object type, if anything does. -/
def standIn (catalogue : Catalogue) (name : String) : Option Json :=
  (catalogue.find? name).bind Definition.standIn

/-- The number of object types that the catalogue defines. -/
def size (catalogue : Catalogue) : Nat := catalogue.definitions.length

end Catalogue

end Fieldbus
