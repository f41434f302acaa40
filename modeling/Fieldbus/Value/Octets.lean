/-!
# Numbers as octets

Numbers written with the most significant octet first, and the least number of octets that hold
them.
-/

namespace Fieldbus

/-- The lowest `width` octets of a number, the most significant first. -/
def bigEndian : Nat → Nat → List UInt8
  | 0, _ => []
  | width + 1, n => bigEndian width (n / 256) ++ [UInt8.ofNat n]

/-- The number that a row of octets spells, the most significant first. -/
def ofBigEndian (octets : List UInt8) : Nat :=
  octets.foldl (fun value octet => 256 * value + octet.toNat) 0

/-- The least of the widths one to eight that satisfies a test; eight where none of the others
does. -/
def leastWidth (fits : Nat → Bool) : Nat := ((List.range' 1 7).find? fits).getD 8

/-- How many numbers a row of octets can spell. -/
def octetRange (width : Nat) : Nat := Nat.pow 256 width

/-- The least number of octets that hold a number of at most 64 bits. -/
def unsignedWidth (n : Nat) : Nat := leastWidth fun width => n < octetRange width

/-- The least number of octets that hold an integer of at most 64 bits in two's complement. -/
def signedWidth (n : Int) : Nat :=
  leastWidth fun width => -(octetRange width : Int) ≤ 2 * n && 2 * n < octetRange width

/-- The two's complement octets of an integer. -/
def signedBigEndian (width : Nat) (n : Int) : List UInt8 :=
  bigEndian width (n % octetRange width).toNat

/-- The integer that a row of octets spells in two's complement. -/
def ofSignedBigEndian (octets : List UInt8) : Int :=
  let n := ofBigEndian octets
  if 2 * n < octetRange octets.length then n else n - octetRange octets.length

/-- An octet from its bits, the most significant first; missing bits are zero. -/
def octetOfBits (bits : List Bool) : UInt8 :=
  UInt8.ofNat ((List.range 8).foldl (fun value i => 2 * value + (bits.getD i false).toNat) 0)

/-- The eight bits of an octet, the most significant first. -/
def bitsOfOctet (octet : UInt8) : List Bool :=
  (List.range 8).map fun i => octet.toNat.testBit (7 - i)

/-- Bits packed into octets, the last one filled up with zeros. -/
def packBits : List Bool → List UInt8
  | [] => []
  | bit :: rest => octetOfBits ((bit :: rest).take 8) :: packBits (rest.drop 7)
termination_by bits => bits.length

/-- The number of octets that hold a number of bits. -/
def octetCount (bits : Nat) : Nat := (bits + 7) / 8

end Fieldbus
