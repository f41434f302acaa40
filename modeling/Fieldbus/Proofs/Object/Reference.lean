import Fieldbus.Object.Property
import Fieldbus.Proofs.Literal.Write

/-!
# References lead back to the same object

An object is named by a word on the wire, by the name of its type with a number, and by a text that
people type in.  All three lead back to the same object, whether or not the type has a standard
name, and a property is found again under the text that shows it.

## Main results

* `ObjectType.ofName?_of_fold`, `Property.ofName?_of_fold`: what spells the text of a type or of a
  property stands for it.
* `ObjectIdentifier.objectIdentifier?_text`: the text of an identifier is read as the identifier.
* `ObjectIdentifier.lookup_ofWord`: a word leads back to itself along all these ways.
-/

namespace Fieldbus

open Fieldbus.Text

/-! ### Types and properties -/

theorem ObjectType.legible_vocabulary : vocabulary.Legible := by decide +kernel

theorem Property.legible_vocabulary : vocabulary.Legible := by decide +kernel

/-- What spells the text of a type whose code has ten bits stands for the type. -/
theorem ObjectType.ofName?_of_fold {type : ObjectType} (h : type.code < 1024) {name : String}
    (hname : Name.fold name = Name.fold type.text) : ofName? name = some type := by
  have hcode : vocabulary.code? name = some type.code.toNat :=
    legible_vocabulary.code?_of_fold (UInt16.lt_iff_toNat_lt.mp h) hname
  rw [ofName?, hcode, Option.map_some, UInt16.ofNat_toNat]

/-- What spells the text of a property whose code has 22 bits stands for the property. -/
theorem Property.ofName?_of_fold {property : Property} (h : property.code < 4194304) {name : String}
    (hname : Name.fold name = Name.fold property.text) : ofName? name = some property := by
  have hcode : vocabulary.code? name = some property.code.toNat :=
    legible_vocabulary.code?_of_fold (UInt32.lt_iff_toNat_lt.mp h) hname
  rw [ofName?, hcode, Option.map_some, UInt32.ofNat_toNat]

namespace ObjectIdentifier

variable {id : ObjectIdentifier}

/-! ### Identifiers as literals -/

theorem toList_text (id : ObjectIdentifier) :
    id.text.toList = id.type.text.toList ++ ',' :: Nat.toDigits 10 id.number.toNat := by
  rw [text, String.toList_append, String.toList_append, toList_decimal, List.append_assoc]
  rfl

/-- The characters of the name of a type are neither blank nor separate it from the number. -/
theorem isPlain_of_mem_typeText {c : Char} (h : c ∈ id.type.text.toList) : isPlain c = true :=
  ObjectType.legible_vocabulary.isPlain_text h

theorem trim_text (id : ObjectIdentifier) : trim id.text.toList = id.text.toList := by
  refine trim_eq_self_of_all fun c hc => ?_
  rw [toList_text, List.mem_append, List.mem_cons] at hc
  rcases hc with hc | rfl | hc
  · exact isBlank_of_isPlain (isPlain_of_mem_typeText hc)
  · rfl
  · exact isBlank_of_isPlain (isPlain_of_mem_toDigits hc)

/-- The text of an identifier is read as the identifier. -/
theorem objectIdentifier?_text (h : id.InRange) :
    Literal.objectIdentifier? id.text.toList = some id := by
  have hsplit : splitFirst? ',' id.text.toList =
      some (id.type.text.toList, Nat.toDigits 10 id.number.toNat) := by
    rw [toList_text]
    refine splitFirst?_append (fun hcomma => ?_) _
    exact absurd (isPlain_of_mem_typeText hcomma) (by decide)
  have hname : trim id.type.text.toList = id.type.text.toList :=
    trim_of_isPlain fun c => isPlain_of_mem_typeText
  have hnumber : trim (Nat.toDigits 10 id.number.toNat) = Nat.toDigits 10 id.number.toNat :=
    trim_of_isPlain fun c => isPlain_of_mem_toDigits
  have hbound : id.number.toNat ≤ maxInstance.toNat := UInt32.le_iff_toNat_le.mp h.2
  simp only [Literal.objectIdentifier?, hsplit, Option.orElse_some, Option.bind_eq_bind,
    Option.bind_some, hname, String.ofList_toList, ObjectType.ofName?_of_fold h.1 rfl, hnumber,
    natural?_toDigits hbound, UInt32.ofNat_toNat]
  rfl

theorem literal_text (h : id.InRange) :
    Literal.literal id.text .objectIdentifier = .ok (.objectIdentifier id) := by
  have hatom : Literal.atom? id.text.toList .objectIdentifier = some (.objectIdentifier id) := by
    simp only [Literal.atom?, trim_text, objectIdentifier?_text h, Option.map_some]
  rw [Literal.literal, hatom]

theorem tagged_text (h : id.InRange) :
    Literal.tagged ("id:" ++ id.text) = .ok (.objectIdentifier id) := by
  have hcode : ("id", Datatype.objectIdentifier) ∈ Literal.typeCodes := by decide
  exact (Literal.tagged_of_mem_typeCodes hcode).trans (literal_text h)

theorem ne_null_of_comma {text : String} (h : ',' ∈ text.toList) : text ≠ "null" :=
  Literal.ne_null_of_mem (by decide) h

theorem comma_mem_text (id : ObjectIdentifier) : ',' ∈ id.text.toList := by
  simp [toList_text]

/-- **References lead back to the same object.**  A word is that of the identifier it stands
for.  Whatever spells the name in the reference to the object stands for the type, and type and
number make the word again.  The text of the identifier is a literal of it, by itself and, where the
kind is left open, under its type code.  A property whose code has 22 bits is found under the text
that shows it, in any spelling. -/
theorem lookup_ofWord (word : UInt32) :
    (ofWord word).toWord = word ∧
    (∀ name, Name.fold name = Name.fold (ofWord word).reference.typeName →
      ∃ type, ObjectType.ofName? name = some type ∧ type = (ofWord word).type ∧
        toWord ⟨type, (ofWord word).reference.number⟩ = word) ∧
    (∀ index, Literal.write (ofWord word).text .objectIdentifier index =
        .ok (.objectIdentifier (ofWord word)) ∧
      Literal.write ("id:" ++ (ofWord word).text) .anyAtomic index =
        .ok (.objectIdentifier (ofWord word))) ∧
    ∀ property : Property, property.code < 4194304 →
      ∀ name, Name.fold name = Name.fold property.text → Property.ofName? name = some property := by
  have hrange := inRange_ofWord word
  have hword := toWord_ofWord word
  refine ⟨hword, fun name hname => ⟨_, ObjectType.ofName?_of_fold hrange.1 hname, rfl, hword⟩,
    fun index => ⟨?_, ?_⟩, fun property hproperty name => Property.ofName?_of_fold hproperty⟩
  · rw [Literal.write_of_element? (ne_null_of_comma (comma_mem_text _)) rfl]
    exact literal_text hrange
  · have hcomma : ',' ∈ ("id:" ++ (ofWord word).text).toList := by
      rw [String.toList_append]
      exact List.mem_append_right _ (comma_mem_text _)
    rw [Literal.write_of_element? (ne_null_of_comma hcomma) rfl]
    exact tagged_text hrange

/-- The last object of all, whose type has no name, and the last property. -/
theorem lookup_ofWord_last :
    Name.fold "Proprietary 10_23" = Name.fold (ofWord 0xFFFFFFFF).reference.typeName ∧
      ObjectType.ofName? "Proprietary 10_23" = some ⟨1023⟩ ∧
      toWord ⟨⟨1023⟩, 4194303⟩ = 0xFFFFFFFF ∧
      Literal.write "id:proprietary-1023,4194303" .anyAtomic (some 7) =
        .ok (.objectIdentifier ⟨⟨1023⟩, 4194303⟩) ∧
      (4194303 : UInt32) < 4194304 ∧
      Name.fold "PROPRIETARY4194303" = Name.fold (Property.text ⟨4194303⟩) ∧
      Property.ofName? "PROPRIETARY4194303" = some ⟨4194303⟩ := by
  have hname : Name.fold "Proprietary 10_23" =
      Name.fold (ofWord 0xFFFFFFFF).reference.typeName := by decide +kernel
  have hproperty : Name.fold "PROPRIETARY4194303" = Name.fold (Property.text ⟨4194303⟩) := by
    decide +kernel
  have htext : "id:proprietary-1023,4194303" = "id:" ++ (ofWord 0xFFFFFFFF).text := by
    decide +kernel
  obtain ⟨-, hspelled, hwritten, hfound⟩ := lookup_ofWord 0xFFFFFFFF
  obtain ⟨type, htype, rfl, hword⟩ := hspelled _ hname
  refine ⟨hname, htype, hword, ?_, by decide, hproperty, hfound _ (by decide) _ hproperty⟩
  rw [htext]
  exact (hwritten (some 7)).2

end ObjectIdentifier

end Fieldbus
