import Mathlib.Order.Bounds.Basic
import Fieldbus.Proofs.Value.Grammar

/-!
# Shortest spellings

A value has many spellings, and its encoding is one that no other is shorter than: the tag stands in
the first octet, the length in as few octets as hold it, and so does a number.  A row of octets that
is read as a value therefore tells that the value lies within the limits of the wire, and that its
encoding, which is read as the same value again, is no longer than the row.

## Main definitions

* `lengthWidth`: the octets that a header needs beside its first one.
* `Value.reencode`: a row of octets read and written again.

## Main results

* `Spells.length_encode_le`: no spelling is shorter than the encoding.
* `Value.encode_isLeast`: the encoding of a value is the shortest row that is read as the value.
-/

namespace Fieldbus

/-! ### Headers -/

/-- The number of octets that the encoder gives to a length beside the first octet of a header. -/
def lengthWidth (count : Nat) : Nat :=
  if count ≤ 4 then 0 else if count ≤ 253 then 1 else if count ≤ 65535 then 3 else 5

theorem length_header (kind : Kind) (count : Nat) :
    (header kind count).length = 1 + lengthWidth count := by
  rw [header, lengthWidth]
  split_ifs <;> simp

theorem lengthWidth_mono : Monotone lengthWidth := by
  intro count more h
  simp only [lengthWidth]
  split_ifs <;> omega

namespace Spelling

variable {tag low : UInt8} {count : Nat} {value : Atom} {row spelt : List UInt8}

theorem Tag.length_pos (h : Tag tag low row) : 1 ≤ row.length := by
  cases h <;> simp

/-- A length is told in no fewer octets than the encoder gives to it. -/
theorem Length.lengthWidth_le (h : Length low count spelt) :
    lengthWidth count ≤ spelt.length := by
  cases h with
  | direct hlow =>
    have hlow : low.toNat ≤ 4 := UInt8.le_iff_toNat_le.mp hlow
    rw [lengthWidth, if_pos hlow]
    exact Nat.zero_le _
  | @one octet hoctet =>
    have hoctet : octet.toNat < 254 := UInt8.lt_iff_toNat_lt.mp hoctet
    simp only [lengthWidth, List.length_singleton]
    split_ifs <;> omega
  | two hcount =>
    simp only [lengthWidth, List.length_cons, length_bigEndian]
    split_ifs <;> omega
  | four hcount =>
    simp only [lengthWidth, List.length_cons, length_bigEndian]
    split_ifs <;> omega

theorem Length.lt (h : Length low count spelt) : count < 2 ^ 32 := by
  cases h with
  | direct hlow => exact low.toNat_lt.trans (by decide)
  | @one octet hoctet => exact octet.toNat_lt.trans (by decide)
  | two hcount => exact hcount.trans (by decide)
  | four hcount => exact hcount

theorem Number.unsignedWidth_le {n : Nat} (h : Number n row) (hpos : 1 ≤ row.length) :
    unsignedWidth n ≤ row.length :=
  leastWidth_le hpos (decide_eq_true h.1)

theorem Integer.signedWidth_le {n : Int} (h : Integer n row) (hpos : 1 ≤ row.length) :
    signedWidth n ≤ row.length := by
  obtain ⟨hlow, hhigh, -⟩ := h
  exact leastWidth_le hpos (by simp [hlow, hhigh])

/-- The content that the encoder writes is no longer than any other. -/
theorem Content.length_le (h : Content value row) : value.content.length ≤ row.length := by
  cases value with
  | null => exact Nat.zero_le _
  | boolean b => exact Nat.zero_le _
  | unsigned n =>
    obtain ⟨hpos, -, hnumber⟩ := h
    rw [Atom.content, length_bigEndian]
    exact hnumber.unsignedWidth_le hpos
  | signed n =>
    obtain ⟨hpos, -, hinteger⟩ := h
    rw [Atom.content, signedBigEndian, length_bigEndian]
    exact hinteger.signedWidth_le hpos
  | real x =>
    rw [Atom.content, length_bigEndian]
    exact h.1.ge
  | double x =>
    rw [Atom.content, length_bigEndian]
    exact h.1.ge
  | octetString octets =>
    obtain rfl : row = octets := h
    exact le_rfl
  | characterString text =>
    obtain rfl : row = 0 :: text.toUTF8.toList := h
    exact le_rfl
  | bitString bits =>
    obtain ⟨unused, octets, rfl, -, hlength, -⟩ := h
    rw [Atom.content, List.length_cons, List.length_cons, length_packBits, octetCount]
    omega
  | enumerated n =>
    obtain ⟨hpos, -, hnumber⟩ := h
    rw [Atom.content, length_bigEndian]
    exact hnumber.unsignedWidth_le hpos
  | date d =>
    obtain rfl : row = _ := h
    exact le_rfl
  | time t =>
    obtain rfl : row = _ := h
    exact le_rfl
  | objectIdentifier id =>
    rw [Atom.content, length_bigEndian]
    exact h.2.1.ge

end Spelling

/-! ### Primitive values -/

/-- The encoding is a header and the content, or, of a Boolean, the first octet alone. -/
theorem Atom.length_encode (value : Atom) :
    value.encode.length = 1 + lengthWidth value.content.length + value.content.length := by
  cases value with
  | boolean b => rfl
  | _ =>
    rw [Atom.encode, List.length_append, length_header]
    rintro b ⟨⟩

namespace Spells

variable {spelling : List UInt8} {value : Atom}

theorem fitsWire (h : Spells spelling value) : value.FitsWire := by
  cases h with
  | boolean htag => exact ⟨Nat.two_pow_pos 32, nofun⟩
  | content htag hlength hcontent =>
    refine ⟨hcontent.length_le.trans_lt hlength.lt, ?_⟩
    rintro id rfl
    exact hcontent.1

/-- **No spelling of a value is shorter than its encoding.** -/
theorem length_encode_le (h : Spells spelling value) : value.encode.length ≤ spelling.length := by
  rw [Atom.length_encode]
  cases h with
  | boolean htag => exact htag.length_pos
  | @content _ _ header spelt content htag hlength hcontent =>
    have hheader := htag.length_pos
    have hwidth := (lengthWidth_mono hcontent.length_le).trans hlength.lengthWidth_le
    have hcontent := hcontent.length_le
    rw [List.length_append, List.length_append]
    omega

end Spells

/-! ### Values -/

namespace Decode

/-- What is read element by element lies within the limits of the wire, and its encoding is no
longer than what it is read from. -/
theorem length_encodeAll_le {datatype : Datatype} {fuel : Nat} {input : List UInt8}
    {values : List Atom} (h : elements datatype fuel input = .ok values) :
    (∀ value ∈ values, value.FitsWire ∧ datatype.admits value.kind = true) ∧
      (Value.encodeAll (values.map .atom)).length ≤ input.length := by
  induction fuel generalizing input values with
  | zero =>
    cases h
    exact ⟨nofun, Nat.zero_le _⟩
  | succ fuel ih =>
    rw [elements] at h
    split at h
    · cases h
      exact ⟨nofun, Nat.zero_le _⟩
    · obtain ⟨⟨value, rest⟩, hvalue, hnext⟩ := bind_eq_ok_iff.mp h
      obtain ⟨others, hothers, hall⟩ := bind_eq_ok_iff.mp hnext
      cases hall
      obtain ⟨hadmits, spelling, hspells, rfl⟩ := expected_eq_ok_iff.mp hvalue
      obtain ⟨hfit, hlength⟩ := ih hothers
      refine ⟨List.forall_mem_cons.mpr ⟨⟨hspells.fitsWire, hadmits⟩, hfit⟩, ?_⟩
      rw [List.map_cons, Value.encodeAll, Value.encode, List.length_append, List.length_append]
      exact Nat.add_le_add hspells.length_encode_le hlength

end Decode

namespace Value

variable {input : List UInt8} {datatype : Datatype} {value : Value}

/-- What is read is read again from its encoding, which is no longer. -/
theorem encode_of_decode (h : decode input datatype = .ok value) :
    value.encode.length ≤ input.length ∧ decode value.encode datatype = .ok value := by
  cases datatype with
  | array element =>
    obtain ⟨values, helements, rfl⟩ := map_eq_ok_iff.mp h
    obtain ⟨hfit, hlength⟩ := Decode.length_encodeAll_le helements
    exact ⟨hlength, decode_encode_ofAtoms hfit⟩
  | _ =>
    obtain ⟨atom, hatom, rfl⟩ := map_eq_ok_iff.mp h
    obtain ⟨hadmits, hspells⟩ := Atom.decode_eq_ok_iff.mp hatom
    exact ⟨hspells.length_encode_le, decode_encode_atom hspells.fitsWire hadmits⟩

/-- A row of octets read as a value of a datatype and written again. -/
def reencode (datatype : Datatype) (input : List UInt8) : Except DecodeError (List UInt8) :=
  (decode input datatype).map encode

/-- **Encodings are the shortest.**  What is read from a row of octets is read again, as the same
datatype, from its encoding, which is no longer than the row; no row that is read as the value, of
whatever datatype, is shorter than the encoding; and what was read and written once stays as it is
when it is read and written again. -/
theorem encode_isLeast (h : decode input datatype = .ok value) :
    value.encode.length ≤ input.length ∧ decode value.encode datatype = .ok value ∧
      IsLeast {count | ∃ other type, decode other type = .ok value ∧ other.length = count}
        value.encode.length ∧
      reencode datatype input = .ok value.encode ∧
      reencode datatype value.encode = .ok value.encode := by
  obtain ⟨hlength, hagain⟩ := encode_of_decode h
  refine ⟨hlength, hagain, ⟨⟨_, datatype, hagain, rfl⟩, ?_⟩, ?_, ?_⟩
  · rintro count ⟨other, type, hother, rfl⟩
    exact (encode_of_decode hother).1
  · rw [reencode, h]
    rfl
  · rw [reencode, hagain]
    rfl

/-- Two elements spelt in sixteen octets, the first with its tag apart and zeros in front of the
number, the second with dirt in the unused places of its last octet, are encoded in five. -/
theorem encode_isLeast_padded :
    let values : List Atom := [.unsigned 7, .bitString [true, false, true]]
    let row : List UInt8 := [0xF5, 2, 255, 0, 0, 0, 3, 0, 0, 7, 0x85, 254, 0, 2, 5, 0xBF]
    decode row (.array .anyAtomic) = .ok (.ofAtoms values) ∧
      (ofAtoms values).encode = [0x21, 7, 0x82, 5, 0xA0] ∧
      reencode (.array .anyAtomic) row = .ok [0x21, 7, 0x82, 5, 0xA0] := by
  intro values row
  have hrow : decode row (.array .anyAtomic) = .ok (.ofAtoms values) := by rfl
  have hbits : packBits [true, false, true] = [0xA0] := by
    rw [packBits, show List.drop 7 [false, true] = [] from rfl, packBits]
    rfl
  have hencode : (ofAtoms values).encode = [0x21, 7, 0x82, 5, 0xA0] := by
    change _ ++ ((header .bitString (packBits [true, false, true]).length.succ ++
      _ :: packBits [true, false, true]) ++ []) = _
    rw [hbits]
    rfl
  obtain ⟨-, -, -, hagain, -⟩ := encode_isLeast hrow
  exact ⟨hrow, hencode, hencode ▸ hagain⟩

end Value

end Fieldbus
