import Fieldbus.Binary.Format

/-!
# Decimal numbers beside binary ones

A decimal number is a significand times a power of ten.  Two passages join it to a binary format:
rounding a decimal number to the nearest binary one, and choosing, among the decimal numbers that
round to a given binary one, the shortest and then the nearest.

Every binary number is a decimal number too, because `2 = 10 / 5`.  The choice is therefore made
among whole numbers: the binary number and the two midpoints to its neighbours are written on one
decimal grid fine enough to hold all three.
-/

namespace Fieldbus.Binary

/-- The number `± significand * 10 ^ exponent`. -/
structure Decimal where
  negative : Bool
  significand : Nat
  exponent : Int
  deriving DecidableEq, Repr

/-- How many decimal digits a number has; zero has one. -/
def digitCount (n : Nat) : Nat := (Nat.toDigits 10 n).length

/-- A decimal order beyond which every number of either format is infinite, and below whose
negative every number is zero. -/
def greatestOrder : Int := 400

/-- The pattern of the binary number nearest to a decimal one. -/
def Format.roundDecimal (format : Format) (d : Decimal) : Nat :=
  let order := digitCount d.significand + d.exponent
  format.withSign d.negative <|
    if d.significand = 0 ∨ order < -greatestOrder then 0
    else if greatestOrder < order then format.infinity
    else format.roundRatio (d.significand * tenTo d.exponent.toNat) (tenTo (-d.exponent).toNat)

/-- Where a decimal number that lies halfway between two equally short candidates goes. -/
inductive Tie where
  | toEven
  | up
  deriving DecidableEq, Repr

/-- A binary number on a decimal grid: `value`, and the midpoints `low` and `high` to its
neighbours, count units of `10 ^ exponent`. -/
structure Interval where
  low : Nat
  value : Nat
  high : Nat
  exponent : Int
  /-- Whether the midpoints themselves round to the number. -/
  closed : Bool
  deriving DecidableEq, Repr

namespace Interval

/-- Whether a point of the grid rounds to the number. -/
def contains (i : Interval) (point : Nat) : Bool :=
  if i.closed then i.low ≤ point && point ≤ i.high else i.low < point && point < i.high

/-- The interval of `significand * 2 ^ exponent`.  Below a power of two the numbers lie half as
far apart, which `narrow` tells; midpoints round to the number when its significand is even. -/
def ofBinary (significand : Nat) (exponent : Int) (narrow : Bool) : Interval :=
  let quarter := exponent - 2
  let unit := twoTo quarter.toNat * Nat.pow 5 (-quarter).toNat
  { low := (4 * significand - if narrow then 1 else 2) * unit
    value := 4 * significand * unit
    high := (4 * significand + 2) * unit
    exponent := min quarter 0
    closed := significand % 2 = 0 }

/-- The multiple of `step` that is chosen for the number, if one of its two neighbours among those
multiples rounds to it. -/
def onGrid? (tie : Tie) (i : Interval) (step : Nat) : Option Nat :=
  let below := i.value / step
  let lower := i.contains (below * step)
  let upper := i.contains ((below + 1) * step)
  let twice := 2 * (i.value % step)
  let preferUpper := step < twice || (twice == step && (tie == .up || below % 2 == 1))
  if lower && !(upper && preferUpper) then some below
  else if upper then some (below + 1)
  else none

/-- The choice on the coarsest of the grids with steps `10 ^ drop, …, 10, 1` that has one; the
finest holds the number itself. -/
def choose (tie : Tie) (i : Interval) : Nat → Nat × Int
  | 0 => (i.value, i.exponent)
  | drop + 1 =>
    match i.onGrid? tie (tenTo (drop + 1)) with
    | some digits => (digits, i.exponent + (drop + 1))
    | none => choose tie i drop

end Interval

/-- The significand without its trailing zeros, which go into the exponent; `fuel` bounds their
number. -/
def dropZeros (significand : Nat) (exponent : Int) : Nat → Nat × Int
  | 0 => (significand, exponent)
  | fuel + 1 =>
    if significand % 10 = 0 then dropZeros (significand / 10) (exponent + 1) fuel
    else (significand, exponent)

/-- The shortest decimal number that rounds to a finite pattern, and of those the nearest to it;
`none` for a pattern that stands for no number. -/
def Format.shortest? (format : Format) (tie : Tie) (bits : Nat) : Option Decimal :=
  match format.magnitude bits with
  | .finite significand exponent =>
    if significand = 0 then some ⟨format.isNegative bits, 0, 0⟩
    else
      let narrow := significand = twoTo format.fractionBits ∧ format.leastExponent < exponent
      let interval := Interval.ofBinary significand exponent narrow
      let chosen := interval.choose tie (digitCount interval.value)
      let short := dropZeros chosen.1 chosen.2 (digitCount chosen.1)
      some ⟨format.isNegative bits, short.1, short.2⟩
  | _ => none

end Fieldbus.Binary
