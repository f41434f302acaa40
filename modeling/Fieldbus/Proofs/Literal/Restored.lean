import Fieldbus.PresentValue
import Fieldbus.Proofs.Datatype.Schema
import Fieldbus.Proofs.Literal.Write
import Fieldbus.Proofs.Text.Numeral
import Fieldbus.Value.Json
import Mathlib.Data.List.Nodup

/-!
# What is read can be written back

A read shows a value as JSON, and what is shown can be handed to a write of a property of the same
datatype: a truth value under the name of the state it is, a number by its digits, octets and bits
by theirs, an enumerated value by its name or its number.  The literal that is read then is the
value itself.  The one value that does not come back is the character string that spells the word
for null, which a write takes for the null value.

The names of enumerated values have to be told apart in every spelling, and from numbers and the
word for null.  Those that the schema knows can be.

## Main definitions

* `Datatype.Restorable`: the datatypes whose values are written as they are shown.
* `Literal.Legible`: what the names of enumerated values have to be like.

## Main results

* `Literal.octets?_hex`, `Literal.bits?_bitsText`: octets and bits are read back from their texts.
* `Literal.Legible.atom?_enumerated`: so are enumerated values, whether or not they have a name.
* `Schema.legible_of_datatype?`: the names that the schema knows are legible.
* `Literal.write_writeText`: what is read can be written back.
-/

namespace Fieldbus

open Fieldbus.Text

namespace Literal

/-! ### Octets -/

theorem isPlain_hexDigit : ∀ n < 16, isPlain (hexDigit n) = true := by decide

theorem octet?_hexDigit (octet : UInt8) :
    octet? (hexDigit (octet.toNat / 16)) (hexDigit (octet.toNat % 16)) = some octet := by
  have hhigh : octet.toNat / 16 < 16 := by
    have := octet.toNat_lt
    omega
  have hlow : octet.toNat % 16 < 16 := Nat.mod_lt _ (by decide)
  have hplus : ∀ n < 16, hexDigit n ≠ '+' := by decide
  rw [octet?, if_neg (hplus _ hhigh), hexDigit?_hexDigit _ hhigh, hexDigit?_hexDigit _ hlow,
    Option.bind_some, Option.map_some, Nat.div_add_mod, UInt8.ofNat_toNat]

theorem octetPairs?_hex (octets : List UInt8) :
    octetPairs? (octets.flatMap hexOctet) = some octets := by
  induction octets with
  | nil => rfl
  | cons octet rest ih =>
    rw [List.flatMap_cons, hexOctet, List.cons_append, List.cons_append, List.nil_append,
      octetPairs?, octet?_hexDigit, Option.bind_some, ih]
    rfl

theorem isPlain_of_mem_hex {octets : List UInt8} {c : Char} (h : c ∈ (hex octets).toList) :
    isPlain c = true := by
  rw [hex, String.toList_ofList, List.mem_flatMap] at h
  obtain ⟨octet, -, hc⟩ := h
  have hoctet := octet.toNat_lt
  simp only [hexOctet, List.mem_cons, List.not_mem_nil, or_false] at hc
  rcases hc with rfl | rfl
  · exact isPlain_hexDigit _ (by omega)
  · exact isPlain_hexDigit _ (Nat.mod_lt _ (by decide))

/-- Neither blanks nor colons are in the way. -/
theorem octets?_hex (octets : List UInt8) : octets? (hex octets).toList = some octets := by
  have hfilter : (hex octets).toList.filter (fun c => !isBlank c && c != ':') =
      (hex octets).toList := by
    refine List.filter_eq_self.mpr fun c hc => ?_
    have hplain := isPlain_of_mem_hex hc
    have hcolon : c ≠ ':' := by
      rintro rfl
      cases hplain
    simp [isBlank_of_isPlain hplain, hcolon]
  rw [octets?, hfilter, hex, String.toList_ofList, octetPairs?_hex]

/-! ### Bits -/

/-- The digit of a bit. -/
def bitDigit (bit : Bool) : Char := if bit then '1' else '0'

/-- The text of a row of bits. -/
def bitsText (bits : List Bool) : String :=
  Json.text (.array (bits.map fun bit => .ofNat bit.toNat))

/-- The items of the text of a row of bits are their digits. -/
theorem itemTexts_bits (bits : List Bool) :
    Json.itemTexts (bits.map fun bit => .ofNat bit.toNat) =
      bits.map fun bit => String.ofList [bitDigit bit] := by
  induction bits with
  | nil => rfl
  | cons bit rest ih =>
    rw [List.map_cons, Json.itemTexts, ih, List.map_cons]
    cases bit <;> rfl

/-- Characters that are dropped do not count between the rows that are joined. -/
theorem filter_intercalate {keep : Char → Bool} {separator : Char} (h : keep separator = false)
    (rows : List (List Char)) :
    (List.intercalate [separator] rows).filter keep = rows.flatten.filter keep := by
  induction rows with
  | nil => rfl
  | cons row rest ih =>
    cases rest with
    | nil => simp
    | cons next rest => simp_all

/-- The text of a row of bits stands in brackets, with commas between the digits. -/
theorem toList_bitsText (bits : List Bool) :
    (bitsText bits).toList =
      '[' :: List.intercalate [','] (bits.map fun bit => [bitDigit bit]) ++ [']'] := by
  have hrows : (bits.map fun bit => String.ofList [bitDigit bit]).map String.toList =
      bits.map fun bit => [bitDigit bit] := by
    rw [List.map_map]
    exact List.map_congr_left fun bit _ => String.toList_ofList
  rw [bitsText, Json.text, itemTexts_bits, String.toList_append, String.toList_append,
    String.toList_intercalate, hrows]
  rfl

theorem mapM_bit?_bitDigit (bits : List Bool) : (bits.map bitDigit).mapM bit? = some bits := by
  induction bits with
  | nil => rfl
  | cons bit rest ih =>
    rw [List.map_cons, List.mapM_cons, ih]
    cases bit <;> rfl

/-- The text of a row of bits spells it. -/
theorem bits?_bitsText (bits : List Bool) :
    bits? (bitsText bits).toList = some bits := by
  have hdigits : (bits.map fun bit => [bitDigit bit]).flatten.filter (fun c =>
      c != '[' && c != ']' && c != ',' && c != ' ') = bits.map bitDigit := by
    induction bits with
    | nil => rfl
    | cons bit rest ih =>
      rw [List.map_cons, List.flatten_cons, List.filter_append, ih]
      cases bit <;> rfl
  rw [bits?, toList_bitsText, List.filter_append, List.filter_cons_of_neg (by decide),
    filter_intercalate (by decide), hdigits, List.filter_cons_of_neg (by decide), List.filter_nil,
    List.append_nil, mapM_bit?_bitDigit]

theorem trim_bitsText (bits : List Bool) :
    trim (bitsText bits).toList = (bitsText bits).toList := by
  rw [toList_bitsText]
  refine trim_eq_self (fun c hc => ?_) fun c hc => ?_
  · obtain rfl := Option.some.inj hc
    rfl
  · rw [List.getLast?_concat] at hc
    obtain rfl := Option.some.inj hc
    rfl

/-! ### Enumerated values -/

/-- The names of enumerated values stay apart when they are folded, and none of them is a number or
the word for null. -/
structure Legible (names : List String) : Prop where
  plain : ∀ name ∈ names, name.toList.all isPlain = true
  nodup : (names.map Name.fold).Nodup
  wordy : ∀ name ∈ names, natural? 4294967295 name.toList = none
  notNull : ∀ name ∈ names, Name.fold name ≠ Name.fold "null"

instance (names : List String) : Decidable (Legible names) :=
  decidable_of_iff (_ ∧ _ ∧ _ ∧ _)
    ⟨fun h => ⟨h.1, h.2.1, h.2.2.1, h.2.2.2⟩, fun h => ⟨h.1, h.2, h.3, h.4⟩⟩

variable {names : List String}

theorem Legible.enumerated?_name (h : Legible names) {name : String} {n : UInt32}
    (hname : names[n.toNat]? = some name) : enumerated? names name.toList = some n := by
  obtain ⟨hlt, rfl⟩ := List.getElem?_eq_some_iff.mp hname
  have hposition : names.findIdx? (fun other => Name.fold other = Name.fold names[n.toNat]) =
      some n.toNat := by
    refine List.findIdx?_eq_some_iff_getElem.mpr ⟨hlt, decide_eq_true rfl, fun j hj hsame => ?_⟩
    have hnames : n.toNat < (names.map Name.fold).length := by rwa [List.length_map]
    have hbefore : j < (names.map Name.fold).length := hj.trans hnames
    have hfold : (names.map Name.fold)[j] = (names.map Name.fold)[n.toNat] := by simpa using hsame
    exact absurd (h.nodup.getElem_inj_iff.mp hfold) (Nat.ne_of_lt hj)
  rw [enumerated?, h.wordy _ (List.getElem_mem hlt)]
  simp only [String.ofList_toList, hposition, Option.map_some, UInt32.ofNat_toNat]

theorem enumerated?_decimal (names : List String) (n : UInt32) :
    enumerated? names (decimal n.toNat).toList = some n := by
  have hread : natural? 4294967295 (decimal n.toNat).toList = some n.toNat :=
    natural?_decimal (Nat.le_of_lt_succ n.toNat_lt)
  rw [enumerated?, hread]
  simp only [UInt32.ofNat_toNat]

theorem Legible.enumerated?_null (h : Legible names) : enumerated? names "null".toList = none := by
  have hnone : names.findIdx? (fun name => Name.fold name = Name.fold "null") = none :=
    List.findIdx?_eq_none_iff.mpr fun name hname => decide_eq_false (h.notNull name hname)
  change (names.findIdx? fun name => Name.fold name = Name.fold "null").map UInt32.ofNat = none
  rw [hnone, Option.map_none]

end Literal

/-- The names of the values of an enumeration. -/
def Datatype.names? : Datatype → Option (List String)
  | .enumerated names => some names
  | _ => none

/-- The names that the schema knows for enumerated values are legible. -/
theorem Schema.legible_of_datatype? {type : ObjectType} {property : Property} {names : List String}
    (h : datatype? type property = some (.enumerated names)) : Literal.Legible names := by
  have hall : ∀ datatype ∈ datatypes, ∀ names ∈ datatype.names?, Literal.Legible names := by
    decide +kernel
  exact hall _ (mem_datatypes h) names rfl

/-- The datatypes whose values are written as they are shown.  The values of an enumeration have the
names that the schema knows for them. -/
inductive Datatype.Restorable : Datatype → Prop
  | boolean : Restorable .boolean
  | unsigned : Restorable .unsigned
  | signed : Restorable .signed
  | octetString : Restorable .octetString
  | characterString : Restorable .characterString
  | bitString : Restorable .bitString
  | enumerated {type : ObjectType} {property : Property} {names : List String}
      (h : Schema.datatype? type property = some (.enumerated names)) :
      Restorable (.enumerated names)

namespace Literal

open PresentValue

variable {datatype : Datatype} {value : Atom}

/-! ### Literals of what is shown -/

/-- A truth value is written as one word or another, and each of them means it. -/
theorem atom?_boolean (typeName : String) (b : Bool) :
    atom? (writeText typeName (.bool b)).toList .boolean = some (.boolean b) := by
  rw [writeText]
  split <;> cases b <;> decide

theorem trim_signedDecimal (n : Int) : trim (signedDecimal n).toList = (signedDecimal n).toList :=
  trim_of_isPlain fun _ => isPlain_of_mem_signedDecimal

theorem trim_decimal (n : Nat) : trim (decimal n).toList = (decimal n).toList := by
  rw [← signedDecimal_natCast, trim_signedDecimal]

theorem atom?_unsigned (n : UInt64) :
    atom? (signedDecimal n.toNat).toList .unsigned = some (.unsigned n) := by
  have hread : natural? 18446744073709551615 (decimal n.toNat).toList = some n.toNat :=
    natural?_decimal (Nat.le_of_lt_succ n.toNat_lt)
  rw [signedDecimal_natCast]
  simp only [atom?, trim_decimal, hread, Option.map_some, UInt64.ofNat_toNat]

theorem atom?_signed (n : Int64) :
    atom? (signedDecimal n.toInt).toList .signed = some (.signed n) := by
  have hread : integer? (-9223372036854775808) 9223372036854775807 (signedDecimal n.toInt).toList =
      some n.toInt :=
    integer?_signedDecimal n.le_toInt (Int.le_of_lt_add_one n.toInt_lt)
  simp only [atom?, trim_signedDecimal, hread, Option.map_some, Int64.ofInt_toInt]

theorem atom?_octetString (octets : List UInt8) :
    atom? (hex octets).toList .octetString = some (.octetString octets) := by
  have htrim : trim (hex octets).toList = (hex octets).toList :=
    trim_of_isPlain fun _ => isPlain_of_mem_hex
  simp only [atom?, htrim, octets?_hex, Option.map_some]

theorem atom?_characterString (typeName text : String) :
    atom? (writeText typeName (.string text)).toList .characterString =
      some (.characterString text) := by
  change some (Atom.characterString (String.ofList text.toList)) = _
  rw [String.ofList_toList]

theorem atom?_bitString (bits : List Bool) :
    atom? (bitsText bits).toList .bitString = some (.bitString bits) := by
  simp only [atom?, trim_bitsText, bits?_bitsText, Option.map_some]

/-- A name or a number stands for an enumerated value. -/
theorem Legible.atom?_enumerated (h : Legible names) (n : UInt32) (typeName : String) :
    atom? (writeText typeName (enumeratedJson n (.enumerated names))).toList (.enumerated names) =
      some (.enumerated n) := by
  rw [enumeratedJson]
  cases hname : names[n.toNat]? with
  | some name =>
    have htrim : trim name.toList = name.toList :=
      trim_of_isPlain (List.all_eq_true.mp (h.plain name (List.mem_of_getElem? hname)))
    change atom? name.toList _ = _
    simp only [atom?, htrim, h.enumerated?_name hname, Option.map_some]
  | none =>
    change atom? (signedDecimal n.toNat).toList _ = _
    rw [signedDecimal_natCast]
    simp only [atom?, trim_decimal, enumerated?_decimal, Option.map_some]

/-- What shows a value is a literal of it. -/
theorem atom?_writeText (h : datatype.Restorable) (hvalue : datatype.admits value.kind = true)
    (typeName : String) :
    atom? (writeText typeName (value.toJson datatype)).toList datatype = some value := by
  cases h with
  | boolean =>
    cases value with
    | boolean b => exact atom?_boolean typeName b
    | _ => cases hvalue
  | unsigned =>
    cases value with
    | unsigned n => exact atom?_unsigned n
    | _ => cases hvalue
  | signed =>
    cases value with
    | signed n => exact atom?_signed n
    | _ => cases hvalue
  | octetString =>
    cases value with
    | octetString octets => exact atom?_octetString octets
    | _ => cases hvalue
  | characterString =>
    cases value with
    | characterString text => exact atom?_characterString typeName text
    | _ => cases hvalue
  | bitString =>
    cases value with
    | bitString bits => exact atom?_bitString bits
    | _ => cases hvalue
  | enumerated h =>
    cases value with
    | enumerated n => exact (Schema.legible_of_datatype? h).atom?_enumerated n typeName
    | _ => cases hvalue

/-- The word for null is a literal of character strings only. -/
theorem atom?_null (h : datatype.Restorable) :
    atom? "null".toList datatype = none ∨ datatype = .characterString := by
  cases h with
  | characterString => exact .inr rfl
  | enumerated h =>
    left
    change ((enumerated? _ "null".toList).map Atom.enumerated) = none
    rw [(Schema.legible_of_datatype? h).enumerated?_null, Option.map_none]
  | _ => exact .inl (by decide)

/-- What shows a value other than the character string that spells the word for null is not that
word. -/
theorem writeText_ne_null (h : datatype.Restorable) (hvalue : datatype.admits value.kind = true)
    (hnull : value ≠ .characterString "null") (typeName : String) :
    writeText typeName (value.toJson datatype) ≠ "null" := by
  intro htext
  have hread := atom?_writeText h hvalue typeName
  rw [htext] at hread
  rcases atom?_null h with hnone | rfl
  · rw [hnone] at hread
    cases hread
  · exact hnull (Option.some.inj hread).symm

/-- **What is read can be written back.**  A read shows a truth value, a number, a character string,
a row of octets or bits, or an enumerated value whose names the schema knows as JSON.  The text that
prepares the JSON for writing, whatever the type of the object, is accepted for a property of the
same datatype as the very value, unless the value is the character string that spells the word for
null. -/
theorem write_writeText (h : datatype.Restorable) (hvalue : datatype.admits value.kind = true)
    (typeName : String) (index : Option UInt32) :
    write (writeText typeName ((Value.atom value).toJson datatype)) datatype index = .ok value ↔
      value ≠ .characterString "null" := by
  rw [Value.toJson]
  constructor
  · rintro hwritten rfl
    have hword : write "null" datatype index = .ok .null := if_pos rfl
    cases hword.symm.trans hwritten
  · intro hnull
    have hflat : datatype.element? = none ∧ datatype ≠ .anyAtomic := by
      cases h <;> exact ⟨rfl, nofun⟩
    rw [write_of_element? (writeText_ne_null h hvalue hnull typeName) hflat.1, scalar,
      if_neg hflat.2, literal, atom?_writeText h hvalue typeName]

/-- The state of a binary output as a truth value, as a named and as an unnamed one of its states,
and a row of no bits. -/
theorem write_writeText_binaryOutput :
    let shown (value : Atom) (datatype : Datatype) : String :=
      writeText "Binary-Output" ((Value.atom value).toJson datatype)
    Schema.datatype? .binaryOutput ⟨85⟩ = some Schema.binaryStates ∧
      shown (.boolean true) .boolean = "active" ∧
      write "active" .boolean none = .ok (.boolean true) ∧
      shown (.enumerated 1) Schema.binaryStates = "active" ∧
      write "active" Schema.binaryStates none = .ok (.enumerated 1) ∧
      shown (.enumerated 70) Schema.binaryStates = "70" ∧
      write "70" Schema.binaryStates none = .ok (.enumerated 70) ∧
      shown (.bitString []) .bitString = "[]" ∧
      write "[]" .bitString none = .ok (.bitString []) := by
  intro shown
  have hschema : Schema.datatype? .binaryOutput ⟨85⟩ = some Schema.binaryStates := by decide
  have htrue : shown (.boolean true) .boolean = "active" := by decide +kernel
  have hnamed : shown (.enumerated 1) Schema.binaryStates = "active" := by decide +kernel
  have hunnamed : shown (.enumerated 70) Schema.binaryStates = "70" := by decide +kernel
  have hbits : shown (.bitString []) .bitString = "[]" := by decide +kernel
  have hwritten (value : Atom) {datatype : Datatype} (h : datatype.Restorable)
      (hvalue : datatype.admits value.kind = true) (hnull : value ≠ .characterString "null") :
      write (shown value datatype) datatype none = .ok value :=
    (write_writeText h hvalue "Binary-Output" none).mpr hnull
  refine ⟨hschema, htrue, ?_, hnamed, ?_, hunnamed, ?_, hbits, ?_⟩
  · rw [← htrue]
    exact hwritten (.boolean true) .boolean rfl nofun
  · rw [← hnamed]
    exact hwritten (.enumerated 1) (.enumerated hschema) rfl nofun
  · rw [← hunnamed]
    exact hwritten (.enumerated 70) (.enumerated hschema) rfl nofun
  · rw [← hbits]
    exact hwritten (.bitString []) .bitString rfl nofun

end Literal

end Fieldbus
