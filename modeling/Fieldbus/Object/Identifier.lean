import Fieldbus.Object.Type

/-!
# Object identifiers

An object is named by its type and an instance number.  On the wire the pair is one word of 32
bits: ten for the type, 22 for the instance.
-/

namespace Fieldbus

/-- The number of instances of one type, `2 ^ 22`. -/
def instanceCount : UInt32 := 4194304

/-- The greatest instance number that an object identifier can carry. -/
def maxInstance : UInt32 := 4194303

/-- The type and the instance number of an object. -/
structure ObjectIdentifier where
  type : ObjectType
  number : UInt32
  deriving DecidableEq, Repr

namespace ObjectIdentifier

/-- The wire form.  Bits of the instance above the 22nd, and of the type above the tenth, are
lost. -/
def toWord (id : ObjectIdentifier) : UInt32 :=
  id.type.code.toUInt32 * instanceCount + id.number % instanceCount

/-- The identifier with the given wire form. -/
def ofWord (word : UInt32) : ObjectIdentifier :=
  ⟨⟨(word / instanceCount).toUInt16⟩, word % instanceCount⟩

/-- Type and instance with a comma between them. -/
def text (id : ObjectIdentifier) : String :=
  id.type.text ++ "," ++ Text.decimal id.number.toNat

/-- Whether both halves fit the wire form. -/
def InRange (id : ObjectIdentifier) : Prop :=
  id.type.code < 1024 ∧ id.number ≤ maxInstance

instance (id : ObjectIdentifier) : Decidable id.InRange :=
  inferInstanceAs (Decidable (_ ∧ _))

end ObjectIdentifier

/-- A reference to an object by the name of its type. -/
structure ObjectReference where
  typeName : String
  number : UInt32
  deriving DecidableEq, Repr

/-- The reference to the object with the given identifier. -/
def ObjectIdentifier.reference (id : ObjectIdentifier) : ObjectReference :=
  ⟨id.type.text, id.number⟩

end Fieldbus
