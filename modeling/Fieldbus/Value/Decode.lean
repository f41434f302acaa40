import Fieldbus.Value.Basic
import Fieldbus.Value.Octets
import Fieldbus.Value.Encode

/-!
# Decoding values

Reading a value of an expected datatype from octets.  The tag of a value tells its kind, which has
to be one that the datatype admits; a single value has to use up all octets, and an array is read
element by element until none are left.
-/

namespace Fieldbus

/-- Why octets are no value of the expected datatype. -/
inductive DecodeError where
  /-- The octets end within a value. -/
  | truncated
  /-- The tag belongs to a construction, not to a primitive value. -/
  | contextTag (number : UInt8)
  | unknownTag (number : UInt8)
  /-- The content has a length that values of the kind cannot have. -/
  | invalidLength (kind : Kind) (length : Nat)
  /-- A string in a character set other than UTF-8. -/
  | charset (code : UInt8)
  | invalidUtf8
  /-- A value of a kind that the datatype does not admit. -/
  | unexpectedTag (expected : Datatype) (found : Kind)
  /-- Octets left after the value. -/
  | trailingBytes (count : Nat)
  deriving DecidableEq, Repr

/-- The message that states the cause. -/
def DecodeError.message : DecodeError → String
  | .truncated => "Unexpected end of data"
  | .contextTag number =>
    "Context-specific tag " ++ Text.decimal number.toNat ++
      " where an application tag was expected"
  | .unknownTag number => "Unknown application tag " ++ Text.decimal number.toNat
  | .invalidLength kind length =>
    "Invalid length " ++ Text.decimal length ++ " for " ++ kind.text
  | .charset code => "Unsupported character set " ++ Text.decimal code.toNat
  | .invalidUtf8 => "Character string is not valid UTF-8"
  | .unexpectedTag expected found => "Expected " ++ expected.text ++ ", found " ++ found.text
  | .trailingBytes count => Text.decimal count ++ " trailing bytes after value"

namespace Decode

/-- The first octet and the rest. -/
def octet : List UInt8 → Except DecodeError (UInt8 × List UInt8)
  | [] => .error .truncated
  | first :: rest => .ok (first, rest)

/-- The first `count` octets and the rest. -/
def octets (count : Nat) (input : List UInt8) : Except DecodeError (List UInt8 × List UInt8) :=
  if input.length < count then .error .truncated
  else .ok (input.take count, input.drop count)

/-- The length that the low part of the first octet announces, and the octets after it: the low
part itself up to four, and for five the octets that follow.  Six and seven announce none. -/
def length (tag low : UInt8) (input : List UInt8) : Except DecodeError (Nat × List UInt8) :=
  if low ≤ 4 then .ok (low.toNat, input)
  else if low = 5 then do
    let (first, rest) ← octet input
    if first = 254 then
      let (row, rest) ← octets 2 rest
      return (ofBigEndian row, rest)
    else if first = 255 then
      let (row, rest) ← octets 4 rest
      return (ofBigEndian row, rest)
    else
      return (first.toNat, rest)
  else .error (.unknownTag tag)

/-- The value, if the length of its content satisfies the test. -/
def sized (kind : Kind) (content : List UInt8) (fits : Nat → Bool) (value : Atom) :
    Except DecodeError Atom :=
  if fits content.length then .ok value else .error (.invalidLength kind content.length)

/-- The character string whose content is given. -/
def characterString : List UInt8 → Except DecodeError Atom
  | [] => .error (.invalidLength .characterString 0)
  | charset :: octets =>
    if charset ≠ charsetUtf8 then .error (.charset charset)
    else
      match String.fromUTF8? ⟨octets.toArray⟩ with
      | some text => .ok (.characterString text)
      | none => .error .invalidUtf8

/-- The bit string whose content is given: the number of unused bits, and the octets that hold
the bits. -/
def bitString : List UInt8 → Except DecodeError Atom
  | [] => .error (.invalidLength .bitString 0)
  | unused :: octets =>
    let total := 8 * octets.length
    if 7 < unused.toNat ∨ total < unused.toNat then
      .error (.invalidLength .bitString (octets.length + 1))
    else .ok (.bitString ((octets.flatMap bitsOfOctet).take (total - unused.toNat)))

/-- The date with the given octets. -/
def dateOf (row : List UInt8) : Date :=
  ⟨row.getD 0 0, row.getD 1 0, row.getD 2 0, row.getD 3 0⟩

/-- The time with the given octets. -/
def timeOf (row : List UInt8) : Time :=
  ⟨row.getD 0 0, row.getD 1 0, row.getD 2 0, row.getD 3 0⟩

/-- The value of a kind whose content is given. -/
def ofContent (kind : Kind) (row : List UInt8) : Except DecodeError Atom :=
  match kind with
  | .null => sized .null row (· = 0) .null
  | .boolean => .error (.unknownTag Kind.boolean.tag)
  | .unsigned =>
    sized .unsigned row (fun n => 1 ≤ n && n ≤ 8) (.unsigned (UInt64.ofNat (ofBigEndian row)))
  | .signed =>
    sized .signed row (fun n => 1 ≤ n && n ≤ 8) (.signed (Int64.ofInt (ofSignedBigEndian row)))
  | .real => sized .real row (· = 4) (.real ⟨UInt32.ofNat (ofBigEndian row)⟩)
  | .double => sized .double row (· = 8) (.double ⟨UInt64.ofNat (ofBigEndian row)⟩)
  | .octetString => .ok (.octetString row)
  | .characterString => characterString row
  | .bitString => bitString row
  | .enumerated =>
    sized .enumerated row (fun n => 1 ≤ n && n ≤ 4)
      (.enumerated (UInt32.ofNat (ofBigEndian row)))
  | .date => sized .date row (· = 4) (.date (dateOf row))
  | .time => sized .time row (· = 4) (.time (timeOf row))
  | .objectIdentifier =>
    sized .objectIdentifier row (· = 4)
      (.objectIdentifier (.ofWord (UInt32.ofNat (ofBigEndian row))))

/-- The Boolean that the low part of its only octet tells. -/
def boolean (low : UInt8) : Except DecodeError Atom :=
  if low = 0 then .ok (.boolean false)
  else if low = 1 then .ok (.boolean true)
  else .error (.invalidLength .boolean low.toNat)

/-- The value with the given tag, after the first octet of its header and the octet of an extended
tag. -/
def tagged (tag low : UInt8) (input : List UInt8) : Except DecodeError (Atom × List UInt8) :=
  if tag = Kind.boolean.tag then do
    let value ← boolean low
    return (value, input)
  else do
    let (count, input) ← length tag low input
    let (content, rest) ← octets count input
    match Kind.ofTag? tag with
    | some kind =>
      let value ← ofContent kind content
      return (value, rest)
    | none => .error (.unknownTag tag)

/-- The first value, of whatever kind, and the octets after it. -/
def atom (input : List UInt8) : Except DecodeError (Atom × List UInt8) := do
  let (first, rest) ← octet input
  let tag := first / 16
  let low := first % 8
  if first % 16 ≥ 8 then
    .error (.contextTag tag)
  else if tag = 15 then
    let (extended, rest) ← octet rest
    tagged extended low rest
  else
    tagged tag low rest

/-- The first value, which has to be one of the datatype. -/
def expected (datatype : Datatype) (input : List UInt8) :
    Except DecodeError (Atom × List UInt8) := do
  let (value, rest) ← atom input
  if datatype.admits value.kind then return (value, rest)
  else .error (.unexpectedTag datatype value.kind)

/-- The values until no octets are left.  Each takes at least one octet, so their number is at most
that of the octets, which `fuel` stands for. -/
def elements (datatype : Datatype) : Nat → List UInt8 → Except DecodeError (List Atom)
  | 0, _ => .ok []
  | fuel + 1, input =>
    if input.isEmpty then .ok []
    else do
      let (value, rest) ← expected datatype input
      let values ← elements datatype fuel rest
      return value :: values

end Decode

/-- Reads octets as a primitive value of a datatype, with nothing after it. -/
def Atom.decode (input : List UInt8) (datatype : Datatype) : Except DecodeError Atom := do
  let (value, rest) ← Decode.expected datatype input
  if rest.isEmpty then return value else .error (.trailingBytes rest.length)

/-- Reads octets as a value of a datatype. -/
def Value.decode (input : List UInt8) : Datatype → Except DecodeError Value
  | .array element => (Decode.elements element input.length input).map Value.ofAtoms
  | datatype => (Atom.decode input datatype).map Value.atom

end Fieldbus
