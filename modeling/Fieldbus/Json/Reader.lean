import Fieldbus.Json.Tree
import Fieldbus.Json.Value

/-!
# Reading JSON

The meaning of the shape of a JSON text.  Code units given by number must form characters, numbers
must be in the range of the 64-bit formats, and values must not nest too deeply.
-/

namespace Fieldbus.Json

open Fieldbus.Text Fieldbus.Binary

/-- The characters of a string.  Two code units form one character where the first is a high
surrogate; then the second has to be a low one. -/
def characters? : List StringPiece → Option (List Char)
  | [] => some []
  | .char c :: rest => (characters? rest).map (c :: ·)
  | .unit high :: .unit low :: rest =>
    if 0xd800 ≤ high ∧ high ≤ 0xdbff then
      if 0xdc00 ≤ low ∧ low ≤ 0xdfff then
        (characters? rest).map
          (Char.ofNat (0x10000 + (high - 0xd800) * 0x400 + (low - 0xdc00)) :: ·)
      else none
    else if 0xdc00 ≤ high ∧ high ≤ 0xdfff then none
    else (characters? (.unit low :: rest)).map (Char.ofNat high :: ·)
  | .unit code :: rest =>
    if 0xd800 ≤ code ∧ code ≤ 0xdfff then none
    else (characters? rest).map (Char.ofNat code :: ·)

/-- The text of a string. -/
def string? (pieces : List StringPiece) : Option String :=
  (characters? pieces).map String.ofList

/-- The greatest significand that is kept exactly. -/
def maxSignificand : Nat := 18446744073709551615

/-- A significand continued by as many digits as it can take, and how many these are. -/
def takeDigits (significand : Nat) : List Char → Nat × Nat
  | [] => (significand, 0)
  | c :: rest =>
    let longer := 10 * significand + (digit? c).getD 0
    if maxSignificand < longer then (significand, 0)
    else
      let (last, count) := takeDigits longer rest
      (last, count + 1)

/-- The significand and the power of ten that the digits of a number give: digits that the
significand cannot take raise the exponent before the point, and are dropped after it. -/
def significand (shape : NumberShape) : Nat × Int :=
  let (whole, taken) := takeDigits 0 shape.whole
  let (all, places) := takeDigits whole (shape.fraction.getD [])
  (all, (shape.whole.length - taken : Nat) - (places : Int))

/-- The exponent that a number writes, which is bounded by that of 32-bit integers. -/
def writtenExponent (shape : NumberShape) : Int :=
  match shape.exponent with
  | none => 0
  | some (negative, row) =>
    let n := min ((digits? row).getD 0) 2147483647
    if negative then -(n : Int) else n

/-- A double divided by powers of ten, at most 308 at a time; a zero stays what it is. -/
def divideSteps (x : Double) (power : Nat) : Nat → Double
  | 0 => x
  | fuel + 1 =>
    if power ≤ 308 then x.scaleDown power
    else if x.isZero then x
    else divideSteps (x.scaleDown 308) (power - 308) fuel

/-- The double for a significand and a power of ten: the significand is rounded to a double first,
and the product or quotient after that.  `none` where the number is too large. -/
def scaled? (significand : Nat) (power : Int) : Option Double :=
  let x := Double.ofInt significand
  if power < 0 then
    -- A quotient by more than `10 ^ 1000` is zero already.
    some (divideSteps x (min (-power).toNat 1000) 4)
  else if 308 < power then (if x.isZero then some x else none)
  else
    let product := x.scaleUp power.toNat
    if product.isFinite then some product else none

/-- The value of a number without fraction and exponent, where it is an integer in range. -/
def integer? (shape : NumberShape) : Option Int :=
  if shape.fraction.isSome || shape.exponent.isSome then none
  else
    let n := (digits? shape.whole).getD 0
    if shape.negative then
      (if n = 0 ∨ 9223372036854775808 < n then none else some (-(n : Int)))
    else if maxSignificand < n then none
    else some n

/-- The value of a number: an integer where it can be one, else a floating-point number. -/
def number? (shape : NumberShape) : Option Json :=
  match integer? shape with
  | some n => some (.int n)
  | none =>
    let (significand, power) := significand shape
    (scaled? significand (power + writtenExponent shape)).map fun x =>
      .float (if shape.negative then
        .ofMagnitude true (double.magnitudeBits x.bits.toNat) else x)

mutual

/-- The value that a shape stands for, nested at most `levels` deep. -/
def ofTree? (levels : Nat) : Tree → Option Json
  | .null => some .null
  | .bool b => some (.bool b)
  | .number shape => number? shape
  | .string pieces => (string? pieces).map .string
  | .array items => if levels = 0 then none else (itemsOf? (levels - 1) items).map .array
  | .object members =>
    if levels = 0 then none else (membersOf? (levels - 1) members).map ofMembers

/-- The values of a row of shapes. -/
def itemsOf? (levels : Nat) : List Tree → Option (List Json)
  | [] => some []
  | item :: rest => do return (← ofTree? levels item) :: (← itemsOf? levels rest)

/-- The members of a row of named shapes. -/
def membersOf? (levels : Nat) :
    List (List StringPiece × Tree) → Option (List (String × Json))
  | [] => some []
  | (name, value) :: rest => do
    return ((← string? name), (← ofTree? levels value)) :: (← membersOf? levels rest)

end

end Fieldbus.Json
