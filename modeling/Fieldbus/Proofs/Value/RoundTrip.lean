import Mathlib.Tactic.IntervalCases
import Fieldbus.Proofs.Value.Octets
import Fieldbus.Value.Decode

/-!
# Values read back from their encoding

Decoding undoes encoding.  A value has an encoding of its own only within the limits of the wire:
its content is shorter than `2 ^ 32` octets, which is what the longest header can announce, and an
object identifier fits its word.  Within them a value is read back whatever follows it, so the
elements of an array are found although nothing stands between them.

## Main definitions

* `Atom.FitsWire`: the limits of the wire.

## Main results

* `Decode.atom_encode_append`: the first value of a row of octets is read back.
* `Value.decode_encode`: a value, and an array of values, is read back as its datatype.
-/

namespace Fieldbus

open Fieldbus.Binary

/-- Whether a value lies within the limits of the wire. -/
structure Atom.FitsWire (value : Atom) : Prop where
  length_lt : value.content.length < 2 ^ 32
  inRange : ∀ id, value = .objectIdentifier id → id.InRange

theorem Atom.fitsWire_unsigned (n : UInt64) : (Atom.unsigned n).FitsWire := by
  refine ⟨?_, nofun⟩
  have hwidth := (leastWidth_mem fun width => n.toNat < octetRange width).2
  rw [Atom.content, length_bigEndian, unsignedWidth]
  omega

theorem Atom.fitsWire_objectIdentifier {id : ObjectIdentifier} (h : id.InRange) :
    (Atom.objectIdentifier id).FitsWire := by
  refine ⟨?_, fun other hother => Atom.objectIdentifier.inj hother ▸ h⟩
  rw [Atom.content, length_bigEndian]
  decide

/-- The word of an identifier that fits it holds the type above the 22 bits of the instance. -/
theorem ObjectIdentifier.toNat_toWord {id : ObjectIdentifier} (h : id.InRange) :
    id.toWord.toNat = id.type.code.toNat * 2 ^ 22 + id.number.toNat := by
  have hcode : id.type.code.toNat < 1024 := UInt16.lt_iff_toNat_lt.mp h.1
  have hnumber : id.number.toNat ≤ 4194303 := UInt32.le_iff_toNat_le.mp h.2
  rw [toWord, UInt32.toNat_add, UInt32.toNat_mul, UInt32.toNat_mod, UInt16.toNat_toUInt32]
  change (id.type.code.toNat * 4194304 % 2 ^ 32 + id.number.toNat % 4194304) % 2 ^ 32 = _
  omega

theorem ObjectIdentifier.ofWord_toWord {id : ObjectIdentifier} (h : id.InRange) :
    ofWord id.toWord = id := by
  obtain ⟨⟨code⟩, number⟩ := id
  have hcode : code.toNat < 1024 := UInt16.lt_iff_toNat_lt.mp h.1
  have hnumber : number.toNat ≤ 4194303 := UInt32.le_iff_toNat_le.mp h.2
  have hword : (toWord ⟨⟨code⟩, number⟩).toNat = code.toNat * 4194304 + number.toNat :=
    toNat_toWord h
  have htype : ((toWord ⟨⟨code⟩, number⟩) / instanceCount).toUInt16 = code := by
    apply UInt16.toNat_inj.mp
    rw [UInt32.toNat_toUInt16, UInt32.toNat_div, hword]
    change (code.toNat * 4194304 + number.toNat) / 4194304 % 2 ^ 16 = _
    omega
  have hrest : (toWord ⟨⟨code⟩, number⟩) % instanceCount = number := by
    apply UInt32.toNat_inj.mp
    rw [UInt32.toNat_mod, hword]
    change (code.toNat * 4194304 + number.toNat) % 4194304 = _
    omega
  rw [ofWord, htype, hrest]

theorem ObjectIdentifier.inRange_ofWord (word : UInt32) : (ofWord word).InRange := by
  have hword := word.toNat_lt
  constructor
  · apply UInt16.lt_iff_toNat_lt.mpr
    rw [ofWord, UInt32.toNat_toUInt16, UInt32.toNat_div]
    change word.toNat / 4194304 % 2 ^ 16 < 1024
    omega
  · apply UInt32.le_iff_toNat_le.mpr
    rw [ofWord, UInt32.toNat_mod]
    change word.toNat % 4194304 ≤ 4194303
    omega

theorem ObjectIdentifier.toWord_ofWord (word : UInt32) : (ofWord word).toWord = word := by
  have hword := word.toNat_lt
  apply UInt32.toNat_inj.mp
  rw [toNat_toWord (inRange_ofWord word), ofWord, UInt32.toNat_toUInt16, UInt32.toNat_div,
    UInt32.toNat_mod]
  change word.toNat / 4194304 % 2 ^ 16 * 2 ^ 22 + word.toNat % 4194304 = word.toNat
  omega

namespace Decode

/-! ### Headers -/

theorem octet_cons (first : UInt8) (rest : List UInt8) :
    octet (first :: rest) = .ok (first, rest) := rfl

theorem octets_append {count : Nat} {row : List UInt8} (h : row.length = count)
    (rest : List UInt8) : octets count (row ++ rest) = .ok (row, rest) := by
  rw [octets, List.length_append, if_neg (by omega), ← h, List.take_left, List.drop_left]

/-- A tag and a low field are read back from the octet that holds both. -/
theorem split_octet {tag low : UInt8} (htag : tag < 16) (hlow : low < 8) :
    (tag * 16 + low) / 16 = tag ∧ (tag * 16 + low) % 8 = low ∧ (tag * 16 + low) % 16 < 8 := by
  have htag : tag.toNat < 16 := UInt8.lt_iff_toNat_lt.mp htag
  have hlow : low.toNat < 8 := UInt8.lt_iff_toNat_lt.mp hlow
  have hfirst : (tag * 16 + low).toNat = tag.toNat * 16 + low.toNat := by
    rw [UInt8.toNat_add, UInt8.toNat_mul]
    change (tag.toNat * 16 % 256 + low.toNat) % 256 = _
    omega
  refine ⟨UInt8.toNat_inj.mp ?_, UInt8.toNat_inj.mp ?_, UInt8.lt_iff_toNat_lt.mpr ?_⟩
  · rw [UInt8.toNat_div, hfirst]
    change (tag.toNat * 16 + low.toNat) / 16 = _
    omega
  · rw [UInt8.toNat_mod, hfirst]
    change (tag.toNat * 16 + low.toNat) % 8 = _
    omega
  · rw [UInt8.toNat_mod, hfirst]
    change (tag.toNat * 16 + low.toNat) % 16 < 8
    omega

theorem split_first (kind : Kind) {low : UInt8} (h : low ≤ 5) :
    (kind.tag * 16 + low) / 16 = kind.tag ∧ (kind.tag * 16 + low) % 8 = low ∧
      (kind.tag * 16 + low) % 16 < 8 ∧ kind.tag ≠ 15 := by
  have htag : kind.tag < 16 := by cases kind <;> decide
  have hlow : low < 8 := UInt8.lt_of_le_of_lt h (by decide)
  obtain ⟨hdiv, hrem, hcontext⟩ := split_octet htag hlow
  exact ⟨hdiv, hrem, hcontext, by cases kind <;> decide⟩

/-- A header is a first octet and the octets that spell the length, where there are any; whatever
follows, the length is read back. -/
theorem exists_header_eq (kind : Kind) {count : Nat} (h : count < 2 ^ 32) :
    ∃ low spelt, header kind count = (kind.tag * 16 + low) :: spelt ∧ low ≤ 5 ∧
      ∀ tag rest, length tag low (spelt ++ rest) = .ok (count, rest) := by
  have hwide : count < octetRange 4 := h
  rw [header]
  by_cases hfour : count ≤ 4
  · refine ⟨UInt8.ofNat count, [], if_pos hfour, ?_, fun tag rest => ?_⟩
    · interval_cases count <;> decide
    · interval_cases count <;> rfl
  by_cases hone : count ≤ 253
  · refine ⟨5, [UInt8.ofNat count], ?_, by decide, fun tag rest => ?_⟩
    · rw [if_neg hfour, if_pos hone]
    · have hoctet : (UInt8.ofNat count).toNat = count := by
        rw [UInt8.toNat_ofNat']
        omega
      have hshort : UInt8.ofNat count ≠ 254 ∧ UInt8.ofNat count ≠ 255 := by
        constructor <;> intro heq <;> rw [heq] at hoctet <;>
          simp only [UInt8.reduceToNat] at hoctet <;> omega
      simp [length, octet_cons, bind, Except.bind, hshort.1, hshort.2, hoctet, pure, Except.pure]
  by_cases htwo : count ≤ 65535
  · refine ⟨5, 254 :: bigEndian 2 count, ?_, by decide, fun tag rest => ?_⟩
    · rw [if_neg hfour, if_neg hone, if_pos htwo]
      rfl
    · have hnumber : ofBigEndian (bigEndian 2 count) = count :=
        ofBigEndian_bigEndian_of_lt (Nat.lt_succ_of_le htwo)
      simp [length, octet_cons, octets_append, bind, Except.bind, hnumber, pure, Except.pure]
  · refine ⟨5, 255 :: bigEndian 4 count, ?_, by decide, fun tag rest => ?_⟩
    · rw [if_neg hfour, if_neg hone, if_neg htwo]
      rfl
    · have hnumber : ofBigEndian (bigEndian 4 count) = count :=
        ofBigEndian_bigEndian_of_lt hwide
      simp [length, octet_cons, octets_append, bind, Except.bind, hnumber, pure, Except.pure]

theorem tag_ne_boolean {kind : Kind} (h : kind ≠ .boolean) : kind.tag ≠ Kind.boolean.tag := by
  intro heq
  have hkind := Kind.ofTag?_tag kind
  rw [heq, Kind.ofTag?_tag] at hkind
  exact h (Option.some.inj hkind).symm

/-- Behind a header, the content decides what is read. -/
theorem atom_header_append {kind : Kind} (hkind : kind ≠ .boolean) {content : List UInt8}
    (h : content.length < 2 ^ 32) {value : Atom} (hvalue : ofContent kind content = .ok value)
    (rest : List UInt8) :
    atom (header kind content.length ++ content ++ rest) = .ok (value, rest) := by
  obtain ⟨low, spelt, hheader, hlow, hlength⟩ := exists_header_eq kind h
  obtain ⟨htag, hrem, hcontext, hextended⟩ := split_first kind hlow
  have hcontext : ¬ (kind.tag * 16 + low) % 16 ≥ 8 := by simpa using hcontext
  rw [hheader, List.append_assoc, List.cons_append, atom]
  simp only [octet_cons, bind, Except.bind, htag, hrem, if_neg hcontext, if_neg hextended, tagged,
    if_neg (tag_ne_boolean hkind), hlength, octets_append rfl, Kind.ofTag?_tag, hvalue, pure,
    Except.pure]

/-! ### Contents -/

theorem toList_eq_data (bytes : ByteArray) : bytes.toList = bytes.data.toList := by
  have hloop : ∀ i row, ByteArray.toList.loop bytes i row =
      row.reverse ++ bytes.data.toList.drop i := by
    intro i row
    fun_induction ByteArray.toList.loop bytes i row with
    | case1 i row h ih =>
      have hi : i < bytes.data.toList.length := by simpa using h
      have hget : bytes.get! i = bytes.data.toList[i] := by
        simp [ByteArray.get!, getElem!_pos, h]
      rw [ih, hget, List.reverse_cons, List.append_assoc, List.singleton_append,
        ← List.drop_eq_getElem_cons hi]
    | case2 i row h =>
      have hi : bytes.data.toList.length ≤ i := by simpa using h
      rw [List.drop_eq_nil_of_le hi, List.append_nil]
  rw [ByteArray.toList, hloop]
  rfl

theorem fromUTF8?_toUTF8 (text : String) :
    String.fromUTF8? ⟨text.toUTF8.toList.toArray⟩ = some text := by
  have hbytes : (⟨text.toUTF8.toList.toArray⟩ : ByteArray) = text.toUTF8 := by
    rw [toList_eq_data]
  rw [hbytes, String.toUTF8_eq_toByteArray, String.fromUTF8?, dif_pos text.isValidUTF8]
  rfl

/-- Bits are read back from their number of unused places and the octets that hold them. -/
theorem bitString_packBits (bits : List Bool) :
    bitString (UInt8.ofNat (8 * octetCount bits.length - bits.length) :: packBits bits) =
      .ok (.bitString bits) := by
  have hunused : 8 * octetCount bits.length - bits.length ≤ 7 ∧
      8 * octetCount bits.length - bits.length ≤ 8 * octetCount bits.length ∧
      bits.length ≤ 8 * octetCount bits.length := by
    rw [octetCount]
    omega
  have hoctet : (UInt8.ofNat (8 * octetCount bits.length - bits.length)).toNat =
      8 * octetCount bits.length - bits.length := by
    rw [UInt8.toNat_ofNat']
    omega
  have htotal : 8 * octetCount bits.length - (8 * octetCount bits.length - bits.length) =
      bits.length := by omega
  rw [bitString, hoctet, length_packBits, if_neg (by omega), htotal, take_flatMap_packBits]

theorem sized_of_fits (kind : Kind) {content : List UInt8} {fits : Nat → Bool}
    (h : fits content.length = true) (value : Atom) :
    sized kind content fits value = .ok value := if_pos h

/-- A value other than a Boolean is read back from its content. -/
theorem ofContent_content {value : Atom} (hkind : value.kind ≠ .boolean)
    (h : value.FitsWire) : ofContent value.kind value.content = .ok value := by
  cases value with
  | null => rfl
  | boolean b => exact absurd rfl hkind
  | unsigned n =>
    have hwidth := leastWidth_mem fun width => n.toNat < octetRange width
    have hnumber := ofBigEndian_bigEndian_of_lt (lt_octetRange_unsignedWidth n.toNat_lt)
    rw [Atom.kind, ofContent, Atom.content, hnumber, UInt64.ofNat_toNat]
    refine sized_of_fits _ ?_ _
    rw [length_bigEndian, Bool.and_eq_true, decide_eq_true_iff, decide_eq_true_iff]
    exact hwidth
  | signed n =>
    have hwidth := leastWidth_mem fun width =>
      -(octetRange width : Int) ≤ 2 * n.toInt && 2 * n.toInt < octetRange width
    have hfits := signedWidth_fits n.le_toInt n.toInt_lt
    have hnumber := ofSignedBigEndian_signedBigEndian hfits.1 hfits.2
    rw [Atom.kind, ofContent, Atom.content, hnumber, Int64.ofInt_toInt]
    refine sized_of_fits _ ?_ _
    rw [signedBigEndian, length_bigEndian, Bool.and_eq_true, decide_eq_true_iff,
      decide_eq_true_iff]
    exact hwidth
  | real x =>
    have hnumber := @ofBigEndian_bigEndian_of_lt 4 x.bits.toNat x.bits.toNat_lt
    rw [Atom.kind, ofContent, Atom.content, hnumber, UInt32.ofNat_toNat]
    exact sized_of_fits _ (by rw [length_bigEndian]; rfl) _
  | double x =>
    have hnumber := @ofBigEndian_bigEndian_of_lt 8 x.bits.toNat x.bits.toNat_lt
    rw [Atom.kind, ofContent, Atom.content, hnumber, UInt64.ofNat_toNat]
    exact sized_of_fits _ (by rw [length_bigEndian]; rfl) _
  | octetString octets => rfl
  | characterString text =>
    rw [Atom.kind, ofContent, Atom.content, characterString, if_neg (by simp), fromUTF8?_toUTF8]
  | bitString bits => exact bitString_packBits bits
  | enumerated n =>
    have hwidth := (leastWidth_mem fun width => n.toNat < octetRange width).1
    have hfour := unsignedWidth_le_four n.toNat_lt
    have hnumber := ofBigEndian_bigEndian_of_lt
      (lt_octetRange_unsignedWidth (n.toNat_lt.trans (by decide)))
    rw [Atom.kind, ofContent, Atom.content, hnumber, UInt32.ofNat_toNat]
    refine sized_of_fits _ ?_ _
    rw [length_bigEndian, Bool.and_eq_true, decide_eq_true_iff, decide_eq_true_iff]
    exact ⟨hwidth, hfour⟩
  | date d => rfl
  | time t => rfl
  | objectIdentifier id =>
    have hnumber := @ofBigEndian_bigEndian_of_lt 4 id.toWord.toNat id.toWord.toNat_lt
    rw [Atom.kind, ofContent, Atom.content, hnumber, UInt32.ofNat_toNat,
      ObjectIdentifier.ofWord_toWord (h.inRange id rfl)]
    exact sized_of_fits _ (by rw [length_bigEndian]; rfl) _

/-! ### Values -/

/-- The first value of a row of octets is read back, whatever follows it. -/
theorem atom_encode_append {value : Atom} (h : value.FitsWire) (rest : List UInt8) :
    atom (value.encode ++ rest) = .ok (value, rest) := by
  by_cases hkind : value.kind = .boolean
  · obtain ⟨b, rfl⟩ : ∃ b, value = .boolean b := by
      cases value <;> first | exact ⟨_, rfl⟩ | cases hkind
    cases b <;> rfl
  · have hencode : value.encode = header value.kind value.content.length ++ value.content := by
      cases value <;> first | rfl | exact absurd rfl hkind
    rw [hencode]
    exact atom_header_append hkind h.length_lt (ofContent_content hkind h) rest

theorem expected_encode_append {value : Atom} (h : value.FitsWire) {datatype : Datatype}
    (hadmits : datatype.admits value.kind = true) (rest : List UInt8) :
    expected datatype (value.encode ++ rest) = .ok (value, rest) := by
  rw [expected, atom_encode_append h]
  simp only [bind, Except.bind, hadmits, if_true, pure, Except.pure]

theorem encode_ne_nil (value : Atom) : value.encode ≠ [] := by
  have hheader : ∀ kind count, header kind count ≠ [] := by
    intro kind count
    rw [header]
    split_ifs <;> simp
  cases value <;> simp [Atom.encode, hheader]

/-- The elements of an array are read back one after the other. -/
theorem elements_encodeAll {datatype : Datatype} {values : List Atom}
    (h : ∀ value ∈ values, value.FitsWire ∧ datatype.admits value.kind = true) {fuel : Nat}
    (hfuel : (Value.encodeAll (values.map .atom)).length ≤ fuel) :
    elements datatype fuel (Value.encodeAll (values.map .atom)) = .ok values := by
  induction values generalizing fuel with
  | nil => cases fuel <;> rfl
  | cons value values ih =>
    have hvalue := h value List.mem_cons_self
    have hrest := fun other hother => h other (List.mem_cons_of_mem value hother)
    have hpos := List.length_pos_of_ne_nil (encode_ne_nil value)
    rw [List.map_cons, Value.encodeAll, Value.encode] at hfuel ⊢
    rw [List.length_append] at hfuel
    obtain ⟨fuel, rfl⟩ : ∃ less, fuel = less + 1 := ⟨fuel - 1, by omega⟩
    have hsome : (value.encode ++ Value.encodeAll (values.map .atom)).isEmpty = false := by
      simp [encode_ne_nil]
    have hothers := @ih hrest fuel (by omega)
    simp only [elements, hsome, Bool.false_eq_true, if_false, bind, Except.bind,
      expected_encode_append hvalue.1 hvalue.2, hothers, pure, Except.pure]

end Decode

theorem Datatype.not_admits_array (element : Datatype) (kind : Kind) :
    (Datatype.array element).admits kind = false := by
  simp [admits, kind?]

theorem Value.decode_encode_atom {value : Atom} (h : value.FitsWire) {datatype : Datatype}
    (hadmits : datatype.admits value.kind = true) :
    Value.decode (Value.atom value).encode datatype = .ok (.atom value) := by
  have hatom : Atom.decode value.encode datatype = .ok value := by
    have hexpected := Decode.expected_encode_append h hadmits []
    rw [List.append_nil] at hexpected
    simp [Atom.decode, hexpected, bind, Except.bind, pure, Except.pure]
  cases datatype
  case array element => simp [Datatype.not_admits_array] at hadmits
  all_goals simp only [Value.encode, Value.decode, hatom, Except.map]

theorem Value.decode_encode_ofAtoms {element : Datatype} {values : List Atom}
    (h : ∀ value ∈ values, value.FitsWire ∧ element.admits value.kind = true) :
    Value.decode (Value.ofAtoms values).encode (.array element) = .ok (.ofAtoms values) := by
  rw [Value.ofAtoms, Value.encode, Value.decode, Decode.elements_encodeAll h le_rfl]
  rfl

/-- **Decoding undoes encoding.** Within the limits of the wire, a primitive value is read back as
any datatype that admits it, and an array of primitive values as the array of any datatype that
admits them all. Reals are compared by their bits. -/
theorem Value.decode_encode (datatype : Datatype) :
    (∀ value : Atom, value.FitsWire → datatype.admits value.kind = true →
      Value.decode (Value.atom value).encode datatype = .ok (.atom value)) ∧
    ∀ values : List Atom,
      (∀ value ∈ values, value.FitsWire ∧ datatype.admits value.kind = true) →
      Value.decode (Value.ofAtoms values).encode (.array datatype) = .ok (.ofAtoms values) :=
  ⟨fun _ h hadmits => decode_encode_atom h hadmits, fun _ h => decode_encode_ofAtoms h⟩

/-- A row of values of different kinds, and one of them alone, are read back. -/
theorem Value.decode_encode_row :
    let values : List Atom := [.unsigned 70000, .signed (-129), .octetString [1, 2, 3, 4, 5],
      .bitString [true, false, true, true, false, false, true, false, true],
      .objectIdentifier ⟨.device, 4194303⟩]
    (∀ value ∈ values, value.FitsWire ∧ Datatype.anyAtomic.admits value.kind = true) ∧
      Value.decode (Value.ofAtoms values).encode (.array .anyAtomic) = .ok (.ofAtoms values) ∧
      Value.decode (Value.atom (.unsigned 70000)).encode .unsigned =
        .ok (.atom (.unsigned 70000)) := by
  intro values
  have hfits : ∀ value ∈ values, value.FitsWire ∧ Datatype.anyAtomic.admits value.kind = true := by
    intro value hvalue
    simp only [values, List.mem_cons, List.not_mem_nil, or_false] at hvalue
    rcases hvalue with rfl | rfl | rfl | rfl | rfl
    · exact ⟨⟨by decide, nofun⟩, rfl⟩
    · exact ⟨⟨by decide, nofun⟩, rfl⟩
    · exact ⟨⟨by decide, nofun⟩, rfl⟩
    · refine ⟨⟨?_, nofun⟩, rfl⟩
      rw [Atom.content, List.length_cons, length_packBits]
      decide
    · exact ⟨⟨by decide, fun id hid => by cases hid; decide⟩, rfl⟩
  have hunsigned := (hfits (.unsigned 70000) List.mem_cons_self).1
  exact ⟨hfits, (decode_encode .anyAtomic).2 values hfits,
    (decode_encode .unsigned).1 _ hunsigned rfl⟩

end Fieldbus
