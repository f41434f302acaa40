/-!
# Binary floating-point formats

The binary interchange formats and the number that a bit pattern stands for.  Everything here is
exact arithmetic on natural numbers: a finite pattern is a significand times a power of two, and
rounding picks the nearest such number, with a half going to the even pattern.
-/

namespace Fieldbus.Binary

/-- A binary interchange format, by the widths of its two fields. -/
structure Format where
  fractionBits : Nat
  exponentBits : Nat
  deriving DecidableEq, Repr

/-- The 32-bit format. -/
def single : Format := ⟨23, 8⟩

/-- The 64-bit format. -/
def double : Format := ⟨52, 11⟩

/-- What a bit pattern without its sign stands for. -/
inductive Magnitude where
  | nan
  | infinite
  /-- The number `significand * 2 ^ exponent`. -/
  | finite (significand : Nat) (exponent : Int)
  deriving DecidableEq, Repr

/-- A power of two. -/
def twoTo (exponent : Nat) : Nat := Nat.pow 2 exponent

/-- A power of ten. -/
def tenTo (exponent : Nat) : Nat := Nat.pow 10 exponent

namespace Format

variable (format : Format)

/-- The exponent of the last place of the smallest numbers. -/
def leastExponent : Int := 2 - twoTo (format.exponentBits - 1) - format.fractionBits

/-- The pattern of positive infinity, which lies above those of all numbers. -/
def infinity : Nat := (twoTo format.exponentBits - 1) * twoTo format.fractionBits

/-- The pattern that stands for "not a number". -/
def quietNaN : Nat := format.infinity + twoTo (format.fractionBits - 1)

/-- The weight of the sign bit. -/
def signWeight : Nat := twoTo (format.fractionBits + format.exponentBits)

/-- The pattern of a magnitude with a sign put to it. -/
def withSign (negative : Bool) (magnitude : Nat) : Nat :=
  if negative then format.signWeight + magnitude else magnitude

/-- Whether the sign bit of a pattern is set. -/
def isNegative (bits : Nat) : Bool := format.signWeight ≤ bits

/-- The pattern without its sign bit. -/
def magnitudeBits (bits : Nat) : Nat := bits % format.signWeight

/-- What a pattern stands for, its sign aside. -/
def magnitude (bits : Nat) : Magnitude :=
  let field := format.magnitudeBits bits / twoTo format.fractionBits
  let fraction := format.magnitudeBits bits % twoTo format.fractionBits
  if field = twoTo format.exponentBits - 1 then
    if fraction = 0 then .infinite else .nan
  else if field = 0 then .finite fraction format.leastExponent
  else .finite (twoTo format.fractionBits + fraction) (format.leastExponent + (field - 1))

end Format

/-- The quotient rounded to the nearest whole number, a half going to the even one. -/
def divideToEven (num den : Nat) : Nat :=
  let quotient := num / den
  let twice := 2 * (num % den)
  if twice < den then quotient
  else if den < twice then quotient + 1
  else quotient + quotient % 2

/-- Whether `num / den` is at least `2 ^ exponent`. -/
def atLeastPower (num den : Nat) (exponent : Int) : Bool :=
  den * twoTo exponent.toNat ≤ num * twoTo (-exponent).toNat

/-- The exponent of the greatest power of two that is at most `num / den`. -/
def binaryOrder (num den : Nat) : Int :=
  let guess : Int := (num.log2 : Int) - den.log2
  if atLeastPower num den guess then guess else guess - 1

/-- The pattern, without sign, of the number nearest to `num / den`; what lies beyond the greatest
number becomes infinity.  The patterns of consecutive numbers are consecutive, so a significand
that rounds up to the next power of two needs no case of its own. -/
def Format.roundRatio (format : Format) (num den : Nat) : Nat :=
  if num = 0 then 0
  else
    let last := max (binaryOrder num den - format.fractionBits) format.leastExponent
    let significand := divideToEven (num * twoTo (-last).toNat) (den * twoTo last.toNat)
    min ((last - format.leastExponent).toNat * twoTo format.fractionBits + significand)
      format.infinity

end Fieldbus.Binary
