import Fieldbus.Binary.Decimal

/-!
# Single and double numbers

Floating-point numbers as their bit patterns.  Two numbers are equal here when their patterns are;
where their values matter, the tests of this module compare values.
-/

namespace Fieldbus.Binary

/-- A number of the 32-bit format. -/
structure Single where
  bits : UInt32
  deriving DecidableEq, Repr

/-- A number of the 64-bit format. -/
structure Double where
  bits : UInt64
  deriving DecidableEq, Repr

namespace Single

/-- What the number stands for, its sign aside. -/
def magnitude (x : Single) : Magnitude := single.magnitude x.bits.toNat

/-- Whether the sign bit is set. -/
def isNegative (x : Single) : Bool := single.isNegative x.bits.toNat

/-- The number nearest to a decimal one. -/
def ofDecimal (d : Decimal) : Single := ⟨UInt32.ofNat (single.roundDecimal d)⟩

/-- The shortest decimal number that rounds to this one; a tie between two goes up. -/
def shortest? (x : Single) : Option Decimal := single.shortest? .up x.bits.toNat

end Single

namespace Double

/-- What the number stands for, its sign aside. -/
def magnitude (x : Double) : Magnitude := double.magnitude x.bits.toNat

/-- Whether the sign bit is set. -/
def isNegative (x : Double) : Bool := double.isNegative x.bits.toNat

/-- Whether the pattern stands for a number. -/
def isFinite (x : Double) : Bool :=
  match x.magnitude with
  | .finite _ _ => true
  | _ => false

/-- Whether the number is zero, of either sign. -/
def isZero (x : Double) : Bool :=
  match x.magnitude with
  | .finite 0 _ => true
  | _ => false

/-- The number with the given sign and pattern of magnitude. -/
def ofMagnitude (negative : Bool) (magnitude : Nat) : Double :=
  ⟨UInt64.ofNat (double.withSign negative magnitude)⟩

/-- The number nearest to a decimal one. -/
def ofDecimal (d : Decimal) : Double := ⟨UInt64.ofNat (double.roundDecimal d)⟩

/-- The number nearest to an integer; the integer zero has no sign. -/
def ofInt (n : Int) : Double := ofMagnitude (n < 0) (double.roundRatio n.natAbs 1)

/-- The shortest decimal number that rounds to this one; a tie between two goes to the even
digit. -/
def shortest? (x : Double) : Option Decimal := double.shortest? .toEven x.bits.toNat

/-- The double nearest to the shortest decimal number of a single: the number that a reader of the
single's text takes it for.  `none` if the pattern stands for no number. -/
def ofSingle? (x : Single) : Option Double := x.shortest?.map ofDecimal

/-- The whole number nearest to the number, a half going away from zero; zero where there is no
number, and infinity far outside every bounded range. -/
def nearestInt (x : Double) : Int :=
  let unsigned : Nat := match x.magnitude with
    | .nan => 0
    | .infinite => twoTo 1024
    | .finite significand exponent =>
      if 0 ≤ exponent then significand * twoTo exponent.toNat
      else (2 * significand + twoTo (-exponent).toNat) / (2 * twoTo (-exponent).toNat)
  if x.isNegative then -(unsigned : Int) else unsigned

/-- The product with a power of ten that is itself rounded to a double first. -/
def scaleUp (x : Double) (power : Nat) : Double :=
  match x.magnitude, double.magnitude (double.roundRatio (tenTo power) 1) with
  | .finite m e, .finite n f =>
    ofMagnitude x.isNegative
      (double.roundRatio (m * n * twoTo (e + f).toNat) (twoTo (-(e + f)).toNat))
  | _, _ => x

/-- The quotient by a power of ten that is itself rounded to a double first. -/
def scaleDown (x : Double) (power : Nat) : Double :=
  match x.magnitude, double.magnitude (double.roundRatio (tenTo power) 1) with
  | .finite m e, .finite n f =>
    ofMagnitude x.isNegative
      (double.roundRatio (m * twoTo (e - f).toNat) (n * twoTo (-(e - f)).toNat))
  | _, _ => x

end Double

end Fieldbus.Binary
