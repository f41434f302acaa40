import Fieldbus.Value.Basic
import Fieldbus.Value.Octets

/-!
# Encoding values

A primitive value is written as a header, which holds its tag and the length of its content, and
the content.  A Boolean has no content: the header itself holds it.  An array is the row of its
elements.
-/

namespace Fieldbus

/-- The header of a value whose content has the given length: up to four octets the length stands
in the first octet of the header, otherwise in one, two or four octets of its own. -/
def header (kind : Kind) (length : Nat) : List UInt8 :=
  let tag := kind.tag * 16
  if length ≤ 4 then [tag + UInt8.ofNat length]
  else if length ≤ 253 then [tag + 5, UInt8.ofNat length]
  else if length ≤ 65535 then [tag + 5, 254] ++ bigEndian 2 length
  else [tag + 5, 255] ++ bigEndian 4 length

/-- The octet before the characters of a string, which says that they are UTF-8. -/
def charsetUtf8 : UInt8 := 0

namespace Atom

/-- The octets after the header. -/
def content : Atom → List UInt8
  | .null => []
  | .boolean _ => []
  | .unsigned n => bigEndian (unsignedWidth n.toNat) n.toNat
  | .signed n => signedBigEndian (signedWidth n.toInt) n.toInt
  | .real x => bigEndian 4 x.bits.toNat
  | .double x => bigEndian 8 x.bits.toNat
  | .octetString octets => octets
  | .characterString text => charsetUtf8 :: text.toUTF8.toList
  | .bitString bits =>
    UInt8.ofNat (8 * octetCount bits.length - bits.length) :: packBits bits
  | .enumerated n => bigEndian (unsignedWidth n.toNat) n.toNat
  | .date d => [d.year, d.month, d.day, d.weekday]
  | .time t => [t.hour, t.minute, t.second, t.hundredths]
  | .objectIdentifier id => bigEndian 4 id.toWord.toNat

/-- The encoding of a primitive value. -/
def encode : Atom → List UInt8
  | .boolean b => [Kind.boolean.tag * 16 + b.toUInt8]
  | atom => header atom.kind atom.content.length ++ atom.content

end Atom

mutual

/-- The encoding of a value. -/
def Value.encode : Value → List UInt8
  | .atom value => value.encode
  | .array items => Value.encodeAll items

/-- The encodings of a row of values, one after the other. -/
def Value.encodeAll : List Value → List UInt8
  | [] => []
  | item :: rest => item.encode ++ Value.encodeAll rest

end

end Fieldbus
