import Fieldbus.Literal.Write
import Fieldbus.Proofs.Name
import Fieldbus.Proofs.Value.RoundTrip
import Fieldbus.Reply

/-!
# Written values are read back

A text that is accepted for writing becomes a value of the very datatype that a read of the same
property and the same index decodes with, and lies within the limits of the wire, so a station that
keeps the octets of a write and returns them to a read gives the written value back.  The word
`null`, which gives up a slot of a commanded value whatever the datatype, is the only exception.

## Main definitions

* `Atom.IsOf`: the values of a datatype.

## Main results

* `Literal.isOf_of_write`: an accepted text becomes a value of the datatype that is read.
* `Literal.decode_of_write`: the value of an accepted text is read back.
-/

namespace Fieldbus

open Fieldbus.Text

/-- Whether a primitive value is one of a datatype, with an object identifier that exists. -/
structure Atom.IsOf (value : Atom) (datatype : Datatype) : Prop where
  admits : datatype.admits value.kind = true
  inRange : ∀ id, value = .objectIdentifier id → id.InRange

theorem ObjectType.code_lt_of_ofName? {name : String} {type : ObjectType}
    (h : ofName? name = some type) : type.code < 1024 := by
  obtain ⟨code, hcode, rfl⟩ := Option.map_eq_some_iff.mp h
  have hlt : code < 1024 := Name.Vocabulary.code?_lt (by decide) (by decide) hcode
  rw [UInt16.lt_iff_toNat_lt, UInt16.toNat_ofNat_of_lt' (hlt.trans (by decide))]
  exact hlt

namespace Literal

variable {text : List Char} {datatype : Datatype} {value : Atom}

theorem inRange_of_objectIdentifier? {id : ObjectIdentifier}
    (h : objectIdentifier? text = some id) : id.InRange := by
  obtain ⟨⟨typeName, digits⟩, -, h⟩ := Option.bind_eq_some_iff.mp h
  obtain ⟨type, htype, h⟩ := Option.bind_eq_some_iff.mp h
  obtain ⟨number, hnumber, h⟩ := Option.bind_eq_some_iff.mp h
  obtain rfl := Option.some.inj h
  have hle : number ≤ maxInstance.toNat := natural?_le hnumber
  refine ⟨ObjectType.code_lt_of_ofName? htype, ?_⟩
  rw [UInt32.le_iff_toNat_le, UInt32.toNat_ofNat_of_lt' (lt_of_le_of_lt hle (by decide))]
  exact hle

/-- A literal becomes a value of its datatype. -/
theorem isOf_of_atom? (h : atom? text datatype = some value) : value.IsOf datatype := by
  cases datatype with
  | null =>
    obtain ⟨-, h⟩ := Option.ite_none_right_eq_some.mp h
    exact Option.some.inj h ▸ ⟨rfl, fun _ hother => by cases hother⟩
  | characterString =>
    obtain rfl := Option.some.inj h
    exact ⟨rfl, fun _ hother => by cases hother⟩
  | anyAtomic => cases h
  | array element => cases h
  | objectIdentifier =>
    obtain ⟨id, hid, rfl⟩ := Option.map_eq_some_iff.mp h
    exact ⟨rfl, fun other hother =>
      Atom.objectIdentifier.inj hother ▸ inRange_of_objectIdentifier? hid⟩
  | enumerated names =>
    obtain ⟨n, -, rfl⟩ := Option.map_eq_some_iff.mp h
    exact ⟨by simp [Datatype.admits, Datatype.kind?, Atom.kind], fun _ hother => by cases hother⟩
  | _ =>
    obtain ⟨content, -, rfl⟩ := Option.map_eq_some_iff.mp h
    exact ⟨rfl, fun _ hother => by cases hother⟩

theorem literal_eq_ok_iff {text : String} :
    literal text datatype = .ok value ↔ atom? text.toList datatype = some value := by
  rw [literal]
  split
  · rename_i read hread
    rw [hread, Except.ok.injEq, Option.some.injEq]
  · rename_i hnone
    rw [hnone]
    exact iff_of_false nofun nofun

/-- The literal of a type code, or of a datatype that leaves nothing open, becomes a value of it. -/
theorem isOf_of_scalar {text : String} (h : scalar text datatype = .ok value) :
    value.IsOf datatype := by
  have hliteral : ∀ {text datatype}, literal text datatype = .ok value → value.IsOf datatype :=
    fun h => isOf_of_atom? (literal_eq_ok_iff.mp h)
  rw [scalar] at h
  split at h
  · rename_i hany
    rw [tagged] at h
    split at h
    · cases h
    · split at h
      · cases h
      · -- an untyped property admits the values of every type code
        exact ⟨by simp [hany, Datatype.admits], (hliteral h).inRange⟩
  · exact hliteral h

/-- No type code has a colon, and each says its own datatype. -/
theorem find?_typeCodes : ∀ entry ∈ typeCodes, ':' ∉ entry.1.toList ∧
    typeCodes.find? (fun other => other.1.toList = entry.1.toList) = some entry := by
  decide

/-- A type code and a colon leave the literal behind them. -/
theorem tagged_of_mem_typeCodes {code text : String} (h : (code, datatype) ∈ typeCodes) :
    tagged (code ++ ":" ++ text) = literal text datatype := by
  obtain ⟨hcolon, hfind⟩ := find?_typeCodes _ h
  have hsplit : splitFirst? ':' (code ++ ":" ++ text).toList = some (code.toList, text.toList) := by
    rw [String.toList_append, String.toList_append, List.append_assoc]
    exact splitFirst?_append hcolon _
  rw [tagged, hsplit]
  simp only [hfind, String.ofList_toList]

theorem ne_null_of_mem {text : String} {c : Char} (hc : c ∉ "null".toList) (h : c ∈ text.toList) :
    text ≠ "null" := by
  rintro rfl
  exact hc h

/-- For a property that is no array, the word for null apart, an index changes nothing. -/
theorem write_of_element? {text : String} (hnull : text ≠ "null") (hflat : datatype.element? = none)
    (index : Option UInt32) : write text datatype index = scalar text datatype := by
  unfold write
  rw [if_neg hnull]
  cases datatype with
  | array element => cases hflat
  | _ => rfl

/-- A type code and a literal are written for an untyped property as the literal is for a typed
one. -/
theorem write_tagged {code text : String} (h : (code, datatype) ∈ typeCodes)
    (index : Option UInt32) :
    write (code ++ ":" ++ text) .anyAtomic index = literal text datatype := by
  have hcolon : ':' ∈ (code ++ ":" ++ text).toList := by simp
  rw [write_of_element? (ne_null_of_mem (by decide) hcolon) rfl]
  exact tagged_of_mem_typeCodes h

/-- A text other than the word for null is read with the datatype that a read decodes with, where
it is accepted at all. -/
theorem scalar_of_write {text : String} {index : Option UInt32} (hnull : text ≠ "null")
    (h : write text datatype index = .ok value) :
    scalar text (ReadAck.picked datatype index) = .ok value := by
  unfold write at h
  rw [if_neg hnull] at h
  cases datatype with
  | array element =>
    cases index with
    | none => cases h
    | some index =>
      change scalar text (if index = 0 then .unsigned else element) = .ok value
      by_cases hzero : index = 0
      · rw [if_pos hzero]
        exact (if_pos hzero).symm.trans h
      · rw [if_neg hzero]
        exact (if_neg hzero).symm.trans h
  | _ => exact h

/-- An accepted text becomes a value of the datatype that a read decodes with, unless it is the
word for null. -/
theorem isOf_of_write {text : String} {index : Option UInt32}
    (h : write text datatype index = .ok value) :
    (text = "null" ∧ value = .null) ∨ value.IsOf (ReadAck.picked datatype index) := by
  by_cases hnull : text = "null"
  · exact .inl ⟨hnull, (Except.ok.inj ((if_pos hnull).symm.trans h)).symm⟩
  · exact .inr (isOf_of_scalar (scalar_of_write hnull h))

/-- **What is written is what is read.**  A text that is accepted for a property of a datatype, or
for an element of it, is the word for null and becomes the null value, or becomes a value of the
datatype that a read of the same property and index decodes with: its octets are read back as the
value, and so is an acknowledgement that returns them.  Reals are compared by their bits. -/
theorem decode_of_write {text : String} {index : Option UInt32}
    (h : write text datatype index = .ok value) (hlength : value.content.length < 2 ^ 32) :
    (text = "null" ∧ value = .null) ∨
      (ReadAck.picked datatype index).admits value.kind = true ∧
      Value.decode (Value.atom value).encode (ReadAck.picked datatype index) =
        .ok (.atom value) ∧
      ∀ ack : ReadAck, ack.datatype = .ok datatype → ack.index = index →
        ack.octets = value.encode →
        ack.decode = .ok (.atom value, ReadAck.picked datatype index) := by
  rcases isOf_of_write h with hnull | hvalue
  · exact .inl hnull
  · right
    have hdecode := Value.decode_encode_atom ⟨hlength, hvalue.inRange⟩ hvalue.admits
    refine ⟨hvalue.admits, hdecode, fun ack hdatatype hindex hoctets => ?_⟩
    have hcarried : ack.valueAs (ReadAck.picked datatype index) = .ok (.atom value) := by
      have hdecode : Value.decode value.encode (ReadAck.picked datatype index) =
          .ok (.atom value) := hdecode
      rw [ReadAck.valueAs, hoctets, hdecode]
    rw [ReadAck.decode, hdatatype, hindex]
    simp only [bind, Except.bind, hcarried, pure, Except.pure]

/-- The last identifier of all, written under its type code into a slot of a commanded value, is
read back from an acknowledgement that returns its octets. -/
theorem decode_of_write_identifier :
    let value : Atom := .objectIdentifier ⟨⟨1023⟩, 4194303⟩
    write "id: proprietary-1023 : 4194303" Schema.priorities (some 16) = .ok value ∧
      value.content.length < 2 ^ 32 ∧
      ReadAck.decode ⟨⟨.analogOutput, 1⟩, ⟨87⟩, some 16, value.encode⟩ =
        .ok (.atom value, .anyAtomic) := by
  intro value
  have hwrite : write "id: proprietary-1023 : 4194303" Schema.priorities (some 16) =
      .ok value := by
    decide +kernel
  have hlength : value.content.length < 2 ^ 32 := by decide
  rcases decode_of_write hwrite hlength with ⟨hnull, -⟩ | ⟨-, -, hack⟩
  · exact absurd hnull (by decide)
  · exact ⟨hwrite, hlength, hack _ (by decide) rfl rfl⟩

end Literal

end Fieldbus
