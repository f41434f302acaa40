import Fieldbus.Proofs.Result
import Fieldbus.Proofs.Value.RoundTrip

/-!
# The grammar of values

Which rows of octets spell which primitive value.  A spelling is a header, which tells the tag of
the value and the length of its content, and the content.  A value has many spellings: the tag may
stand in an octet of its own, the length in more octets than it needs, and a number may begin with
zeros; its encoding is one of them.

The rules say what is written, and not how it is read.  Reading accepts exactly the rows of octets
that follow them, and yields the value that they spell.

## Main definitions

* `Spelling.Tag`, `Spelling.Length`: the two parts of a header.
* `Spelling.Content`: the content of a value.
* `Spells`: the spellings of a value.

## Main results

* `Decode.atom_eq_ok_iff`: the first value of a row of octets is one that the front of it spells.
* `Value.decode_anyAtomic_eq_ok_iff`: a row of octets is read as a value exactly if it spells it.
-/

namespace Fieldbus

namespace Spelling

/-- The octets that tell a tag and hold the low field beside it: bit 3 of the first is clear, and
the tag stands above it, or, where 15 stands there, in an octet of its own. -/
inductive Tag : UInt8 → UInt8 → List UInt8 → Prop
  | short {tag low : UInt8} (htag : tag < 15) (hlow : low < 8) : Tag tag low [tag * 16 + low]
  | extended (tag : UInt8) {low : UInt8} (hlow : low < 8) : Tag tag low [15 * 16 + low, tag]

/-- The octets behind the tag that tell a length together with the low field. -/
inductive Length : UInt8 → Nat → List UInt8 → Prop
  /-- A low field up to four is the length. -/
  | direct {low : UInt8} (hlow : low ≤ 4) : Length low low.toNat []
  | one {octet : UInt8} (hoctet : octet < 254) : Length 5 octet.toNat [octet]
  | two {count : Nat} (hcount : count < 2 ^ 16) : Length 5 count (254 :: bigEndian 2 count)
  | four {count : Nat} (hcount : count < 2 ^ 32) : Length 5 count (255 :: bigEndian 4 count)

/-- A number written with the most significant octet first, in as many octets as there are. -/
def Number (n : Nat) (row : List UInt8) : Prop :=
  n < octetRange row.length ∧ row = bigEndian row.length n

/-- An integer written in two's complement, in as many octets as there are. -/
def Integer (n : Int) (row : List UInt8) : Prop :=
  -(octetRange row.length : Int) ≤ 2 * n ∧ 2 * n < octetRange row.length ∧
    row = signedBigEndian row.length n

/-- Bits written eight to an octet, the first one in the highest place; some may be left over at the
end. -/
def Bits (bits : List Bool) (row : List UInt8) : Prop :=
  ∀ i bit, bits[i]? = some bit →
    ∃ octet, row[i / 8]? = some octet ∧ bit = octet.toNat.testBit (7 - i % 8)

/-- The contents of a value.  A Boolean has none: its header holds it. -/
def Content : Atom → List UInt8 → Prop
  | .null, row => row = []
  | .boolean _, _ => False
  | .unsigned n, row => 1 ≤ row.length ∧ row.length ≤ 8 ∧ Number n.toNat row
  | .signed n, row => 1 ≤ row.length ∧ row.length ≤ 8 ∧ Integer n.toInt row
  | .real x, row => row.length = 4 ∧ Number x.bits.toNat row
  | .double x, row => row.length = 8 ∧ Number x.bits.toNat row
  | .octetString octets, row => row = octets
  | .characterString text, row => row = 0 :: text.toUTF8.toList
  | .bitString bits, row =>
    ∃ unused octets, row = unused :: octets ∧ unused ≤ 7 ∧
      bits.length + unused.toNat = 8 * octets.length ∧ Bits bits octets
  | .enumerated n, row => 1 ≤ row.length ∧ row.length ≤ 4 ∧ Number n.toNat row
  | .date d, row => row = [d.year, d.month, d.day, d.weekday]
  | .time t, row => row = [t.hour, t.minute, t.second, t.hundredths]
  | .objectIdentifier id, row =>
    id.InRange ∧ row.length = 4 ∧ Number (id.type.code.toNat * 2 ^ 22 + id.number.toNat) row

end Spelling

/-- The spellings of a primitive value. -/
inductive Spells : List UInt8 → Atom → Prop
  /-- The low field of a header with the tag of Booleans is zero for false and one for true. -/
  | boolean {header : List UInt8} {b : Bool}
      (htag : Spelling.Tag Kind.boolean.tag b.toUInt8 header) : Spells header (.boolean b)
  /-- A header that tells the length of the content, and the content. -/
  | content {value : Atom} {low : UInt8} {header spelt content : List UInt8}
      (htag : Spelling.Tag value.kind.tag low header)
      (hlength : Spelling.Length low content.length spelt)
      (hcontent : Spelling.Content value content) : Spells (header ++ spelt ++ content) value

namespace Spelling

/-! ### Contents -/

theorem number_iff {n : Nat} {row : List UInt8} : Number n row ↔ ofBigEndian row = n := by
  constructor
  · rintro ⟨hlt, hrow⟩
    rw [hrow, ofBigEndian_bigEndian_of_lt hlt]
  · rintro rfl
    exact ⟨ofBigEndian_lt row, (bigEndian_ofBigEndian row).symm⟩

theorem integer_iff {n : Int} {row : List UInt8} : Integer n row ↔ ofSignedBigEndian row = n := by
  constructor
  · rintro ⟨hlow, hhigh, hrow⟩
    rw [hrow, ofSignedBigEndian_signedBigEndian hlow hhigh]
  · rintro rfl
    obtain ⟨hlow, hhigh⟩ := ofSignedBigEndian_fits row
    exact ⟨hlow, hhigh, (signedBigEndian_ofSignedBigEndian row).symm⟩

/-- A row of octets is a writing of bits if these are at the front of all bits that it holds. -/
theorem bits_iff {bits : List Bool} {row : List UInt8} :
    Bits bits row ↔ (row.flatMap bitsOfOctet).take bits.length = bits := by
  have hall : Bits bits row ↔
      ∀ i < bits.length, (row.flatMap bitsOfOctet)[i]? = bits[i]? := by
    refine forall_congr' fun i => ?_
    rw [getElem?_flatMap_bitsOfOctet]
    constructor
    · intro hbit hi
      obtain ⟨octet, hoctet, heq⟩ := hbit _ (List.getElem?_eq_getElem hi)
      rw [hoctet, Option.map_some, List.getElem?_eq_getElem hi, heq]
    · intro hsame bit hbit
      have hi := (List.getElem?_eq_some_iff.mp hbit).1
      obtain ⟨octet, hoctet, heq⟩ := Option.map_eq_some_iff.mp ((hsame hi).trans hbit)
      exact ⟨octet, hoctet, heq.symm⟩
  rw [hall]
  constructor
  · intro hsame
    refine List.ext_getElem? fun i => ?_
    by_cases hi : i < bits.length
    · rw [List.getElem?_take_of_lt hi, hsame i hi]
    · rw [List.getElem?_take_eq_none (by omega), List.getElem?_eq_none (by omega)]
  · intro hfront i hi
    rw [← List.getElem?_take_of_lt hi, hfront]

theorem fromUTF8?_eq_some_iff {row : List UInt8} {text : String} :
    String.fromUTF8? ⟨row.toArray⟩ = some text ↔ row = text.toUTF8.toList := by
  constructor
  · intro h
    rw [String.fromUTF8?] at h
    obtain ⟨hvalid, htext⟩ := Option.dite_none_right_eq_some.mp h
    have hbytes : text.toUTF8 = ⟨row.toArray⟩ := by
      rw [← Option.some.inj htext]
      rfl
    rw [hbytes, Decode.toList_eq_data]
  · rintro rfl
    exact Decode.fromUTF8?_toUTF8 text

end Spelling

namespace Decode

open Spelling

/-! ### Contents -/

variable {kind : Kind} {row rest : List UInt8} {value : Atom}

theorem sized_eq_ok_iff {fits : Nat → Bool} {found : Atom} :
    sized kind row fits found = .ok value ↔ fits row.length = true ∧ found = value := by
  rw [sized]
  split <;> simp_all

theorem ofBigEndian_lt_of_length_le {width : Nat} (h : row.length ≤ width) :
    ofBigEndian row < octetRange width := (ofBigEndian_lt row).trans_le (octetRange_le h)

/-- What is read of a kind from a row of octets has the row as its content. -/
theorem content_of_ofContent (h : ofContent kind row = .ok value) :
    value.kind = kind ∧ Content value row := by
  cases kind with
  | null =>
    rw [ofContent, sized_eq_ok_iff, decide_eq_true_iff] at h
    obtain ⟨hlength, rfl⟩ := h
    exact ⟨rfl, List.length_eq_zero_iff.mp hlength⟩
  | boolean => cases h
  | unsigned =>
    rw [ofContent, sized_eq_ok_iff, Bool.and_eq_true, decide_eq_true_iff, decide_eq_true_iff] at h
    obtain ⟨⟨hpos, hlength⟩, rfl⟩ := h
    have hlt : ofBigEndian row < octetRange 8 := ofBigEndian_lt_of_length_le hlength
    exact ⟨rfl, hpos, hlength, number_iff.mpr (UInt64.toNat_ofNat_of_lt' hlt).symm⟩
  | signed =>
    rw [ofContent, sized_eq_ok_iff, Bool.and_eq_true, decide_eq_true_iff, decide_eq_true_iff] at h
    obtain ⟨⟨hpos, hlength⟩, rfl⟩ := h
    have hrange : octetRange row.length ≤ 2 ^ 64 := octetRange_le hlength
    obtain ⟨hlow, hhigh⟩ := ofSignedBigEndian_fits row
    have hvalue := Int64.toInt_ofInt_of_le (show -2 ^ 63 ≤ ofSignedBigEndian row by omega)
      (show ofSignedBigEndian row < 2 ^ 63 by omega)
    exact ⟨rfl, hpos, hlength, integer_iff.mpr hvalue.symm⟩
  | real =>
    rw [ofContent, sized_eq_ok_iff, decide_eq_true_iff] at h
    obtain ⟨hlength, rfl⟩ := h
    have hlt : ofBigEndian row < octetRange 4 := ofBigEndian_lt_of_length_le hlength.le
    exact ⟨rfl, hlength, number_iff.mpr (UInt32.toNat_ofNat_of_lt' hlt).symm⟩
  | double =>
    rw [ofContent, sized_eq_ok_iff, decide_eq_true_iff] at h
    obtain ⟨hlength, rfl⟩ := h
    have hlt : ofBigEndian row < octetRange 8 := ofBigEndian_lt_of_length_le hlength.le
    exact ⟨rfl, hlength, number_iff.mpr (UInt64.toNat_ofNat_of_lt' hlt).symm⟩
  | octetString =>
    cases h
    exact ⟨rfl, rfl⟩
  | characterString =>
    cases row with
    | nil => cases h
    | cons charset octets =>
      rw [ofContent, characterString] at h
      split at h
      · cases h
      · rename_i hcharset
        split at h
        · rename_i text htext
          cases h
          rw [not_not] at hcharset
          exact ⟨rfl, by rw [Content, hcharset, fromUTF8?_eq_some_iff.mp htext]; rfl⟩
        · cases h
  | bitString =>
    cases row with
    | nil => cases h
    | cons unused octets =>
      rw [ofContent, bitString] at h
      split at h
      · cases h
      · rename_i hunused
        cases h
        have htotal := length_flatMap_bitsOfOctet octets
        have hlength : ((octets.flatMap bitsOfOctet).take
            (8 * octets.length - unused.toNat)).length = 8 * octets.length - unused.toNat := by
          rw [List.length_take, htotal]
          omega
        refine ⟨rfl, unused, octets, rfl, UInt8.le_iff_toNat_le.mpr ?_, ?_, bits_iff.mpr ?_⟩
        · change unused.toNat ≤ 7
          omega
        · omega
        · rw [hlength]
  | enumerated =>
    rw [ofContent, sized_eq_ok_iff, Bool.and_eq_true, decide_eq_true_iff, decide_eq_true_iff] at h
    obtain ⟨⟨hpos, hlength⟩, rfl⟩ := h
    have hlt : ofBigEndian row < octetRange 4 := ofBigEndian_lt_of_length_le hlength
    exact ⟨rfl, hpos, hlength, number_iff.mpr (UInt32.toNat_ofNat_of_lt' hlt).symm⟩
  | date =>
    rw [ofContent, sized_eq_ok_iff, decide_eq_true_iff] at h
    obtain ⟨hlength, rfl⟩ := h
    obtain ⟨year, month, day, weekday, rfl⟩ := List.length_eq_four.mp hlength
    exact ⟨rfl, rfl⟩
  | time =>
    rw [ofContent, sized_eq_ok_iff, decide_eq_true_iff] at h
    obtain ⟨hlength, rfl⟩ := h
    obtain ⟨hour, minute, second, hundredths, rfl⟩ := List.length_eq_four.mp hlength
    exact ⟨rfl, rfl⟩
  | objectIdentifier =>
    rw [ofContent, sized_eq_ok_iff, decide_eq_true_iff] at h
    obtain ⟨hlength, rfl⟩ := h
    have hlt : ofBigEndian row < octetRange 4 := ofBigEndian_lt_of_length_le hlength.le
    have hrange := ObjectIdentifier.inRange_ofWord (UInt32.ofNat (ofBigEndian row))
    refine ⟨rfl, hrange, hlength, number_iff.mpr ?_⟩
    rw [← ObjectIdentifier.toNat_toWord hrange, ObjectIdentifier.toWord_ofWord,
      UInt32.toNat_ofNat_of_lt' hlt]

/-- A value is read from a row of octets that is its content. -/
theorem ofContent_of_content (h : Content value row) : ofContent value.kind row = .ok value := by
  cases value with
  | null =>
    obtain rfl : row = [] := h
    rfl
  | boolean b => cases h
  | unsigned n =>
    obtain ⟨hpos, hlength, hnumber⟩ := h
    rw [Atom.kind, ofContent, number_iff.mp hnumber, UInt64.ofNat_toNat]
    exact sized_of_fits _ (by simp [hpos, hlength]) _
  | signed n =>
    obtain ⟨hpos, hlength, hinteger⟩ := h
    rw [Atom.kind, ofContent, integer_iff.mp hinteger, Int64.ofInt_toInt]
    exact sized_of_fits _ (by simp [hpos, hlength]) _
  | real x =>
    obtain ⟨hlength, hnumber⟩ := h
    rw [Atom.kind, ofContent, number_iff.mp hnumber, UInt32.ofNat_toNat]
    exact sized_of_fits _ (decide_eq_true hlength) _
  | double x =>
    obtain ⟨hlength, hnumber⟩ := h
    rw [Atom.kind, ofContent, number_iff.mp hnumber, UInt64.ofNat_toNat]
    exact sized_of_fits _ (decide_eq_true hlength) _
  | octetString octets =>
    obtain rfl : row = octets := h
    rfl
  | characterString text =>
    obtain rfl : row = 0 :: text.toUTF8.toList := h
    rw [Atom.kind, ofContent, characterString, if_neg (by simp [charsetUtf8]), fromUTF8?_toUTF8]
  | bitString bits =>
    obtain ⟨unused, octets, rfl, hunused, hlength, hbits⟩ := h
    have hunused : unused.toNat ≤ 7 := UInt8.le_iff_toNat_le.mp hunused
    have hcount : 8 * octets.length - unused.toNat = bits.length := by omega
    rw [Atom.kind, ofContent, bitString, if_neg (by omega), hcount, bits_iff.mp hbits]
  | enumerated n =>
    obtain ⟨hpos, hlength, hnumber⟩ := h
    rw [Atom.kind, ofContent, number_iff.mp hnumber, UInt32.ofNat_toNat]
    exact sized_of_fits _ (by simp [hpos, hlength]) _
  | date d =>
    obtain rfl : row = _ := h
    rfl
  | time t =>
    obtain rfl : row = _ := h
    rfl
  | objectIdentifier id =>
    obtain ⟨hrange, hlength, hnumber⟩ := h
    rw [Atom.kind, ofContent, number_iff.mp hnumber, ← ObjectIdentifier.toNat_toWord hrange,
      UInt32.ofNat_toNat, ObjectIdentifier.ofWord_toWord hrange]
    exact sized_of_fits _ (decide_eq_true hlength) _

/-- A value is read of a kind from a row of octets exactly if it is of the kind and the row is a
content of it. -/
theorem ofContent_eq_ok_iff :
    ofContent kind row = .ok value ↔ value.kind = kind ∧ Content value row := by
  constructor
  · exact content_of_ofContent
  · rintro ⟨rfl, hcontent⟩
    exact ofContent_of_content hcontent

/-! ### Headers -/

theorem octet_eq_ok_iff {input : List UInt8} {first : UInt8} :
    octet input = .ok (first, rest) ↔ input = first :: rest := by
  cases input with
  | nil => simp [octet]
  | cons other others => simp [octet]

theorem octets_eq_ok_iff {count : Nat} {input : List UInt8} :
    octets count input = .ok (row, rest) ↔ row.length = count ∧ input = row ++ rest := by
  constructor
  · intro h
    rw [octets] at h
    split at h
    · cases h
    · cases h
      exact ⟨List.length_take_of_le (by omega), (List.take_append_drop count input).symm⟩
  · rintro ⟨hlength, rfl⟩
    exact octets_append hlength rest

/-- A number of a fixed width is read from the octets that write it. -/
theorem wide_eq_ok_iff {width count : Nat} {input : List UInt8} :
    (do let (row, rest) ← octets width input
        return (ofBigEndian row, rest) : Except DecodeError (Nat × List UInt8)) =
        .ok (count, rest) ↔
      count < octetRange width ∧ input = bigEndian width count ++ rest := by
  constructor
  · intro h
    obtain ⟨⟨row, others⟩, hrow, hnext⟩ := bind_eq_ok_iff.mp h
    obtain ⟨rfl, rfl⟩ := octets_eq_ok_iff.mp hrow
    cases hnext
    exact ⟨ofBigEndian_lt row, by rw [bigEndian_ofBigEndian]⟩
  · rintro ⟨hcount, rfl⟩
    refine bind_eq_ok_iff.mpr ⟨_, octets_append (length_bigEndian width count) rest, ?_⟩
    dsimp only
    rw [ofBigEndian_bigEndian_of_lt hcount]
    rfl

theorem lt_marks_iff {octet : UInt8} : octet < 254 ↔ octet ≠ 254 ∧ octet ≠ 255 := by
  grind

theorem join_octet {first : UInt8} (h : first % 16 < 8) :
    first % 8 < 8 ∧ first / 16 * 16 + first % 8 = first := by
  have hcontext : first.toNat % 16 < 8 := UInt8.lt_iff_toNat_lt.mp h
  have hrange := first.toNat_lt
  refine ⟨UInt8.mod_lt _ (by decide), UInt8.toNat.inj ?_⟩
  rw [UInt8.toNat_add, UInt8.toNat_mul, UInt8.toNat_div, UInt8.toNat_mod]
  change (first.toNat / 16 * 16 % 256 + first.toNat % 8) % 256 = first.toNat
  omega

theorem div_lt_extended {first : UInt8} (h : first / 16 ≠ 15) : first / 16 < 15 := by
  have hrange := first.toNat_lt
  have hne : first.toNat / 16 ≠ 15 := fun heq => h (UInt8.toNat.inj heq)
  refine UInt8.lt_iff_toNat_lt.mpr ?_
  change first.toNat / 16 < 15
  omega

/-- A length is read from the octets that tell it. -/
theorem length_eq_ok_iff {tag low : UInt8} {count : Nat} {input : List UInt8} :
    length tag low input = .ok (count, rest) ↔
      ∃ spelt, Length low count spelt ∧ input = spelt ++ rest := by
  constructor
  · intro h
    rw [length] at h
    split at h
    · rename_i hlow
      cases h
      exact ⟨[], .direct hlow, rfl⟩
    · split at h
      · rename_i hfive
        subst hfive
        obtain ⟨⟨first, others⟩, hfirst, hnext⟩ := bind_eq_ok_iff.mp h
        obtain rfl := octet_eq_ok_iff.mp hfirst
        dsimp only at hnext
        split at hnext
        · rename_i htwo
          obtain ⟨hnumber, rfl⟩ := wide_eq_ok_iff.mp hnext
          exact ⟨254 :: bigEndian 2 count, .two hnumber, by rw [htwo, List.cons_append]⟩
        · split at hnext
          · rename_i hfour
            obtain ⟨hnumber, rfl⟩ := wide_eq_ok_iff.mp hnext
            exact ⟨255 :: bigEndian 4 count, .four hnumber, by rw [hfour, List.cons_append]⟩
          · rename_i htwo hfour
            cases hnext
            exact ⟨[first], .one (lt_marks_iff.mpr ⟨htwo, hfour⟩), rfl⟩
      · cases h
  · rintro ⟨spelt, hspelt, rfl⟩
    cases hspelt with
    | direct hlow => exact if_pos hlow
    | one hoctet =>
      obtain ⟨htwo, hfour⟩ := lt_marks_iff.mp hoctet
      simp [length, octet_cons, bind, Except.bind, htwo, hfour, pure, Except.pure]
    | two hcount =>
      have hcount : count < octetRange 2 := hcount
      exact wide_eq_ok_iff.mpr ⟨hcount, rfl⟩
    | four hcount =>
      have hcount : count < octetRange 4 := hcount
      exact wide_eq_ok_iff.mpr ⟨hcount, rfl⟩

/-- The octets that tell a tag lead to the value with the tag. -/
theorem atom_tag_append {tag low : UInt8} {header : List UInt8} (h : Tag tag low header)
    (input : List UInt8) : atom (header ++ input) = tagged tag low input := by
  cases h with
  | short htag hlow =>
    obtain ⟨hdiv, hrem, hcontext⟩ := split_octet (UInt8.lt_trans htag (show 15 < 16 by decide)) hlow
    have hshort : tag ≠ 15 := UInt8.ne_of_lt htag
    rw [List.singleton_append, atom, octet_cons]
    simp only [bind, Except.bind, hdiv, hrem, if_neg (UInt8.not_le.mpr hcontext), if_neg hshort]
  | extended hlow =>
    obtain ⟨hdiv, hrem, hcontext⟩ := split_octet (show (15 : UInt8) < 16 by decide) hlow
    rw [List.cons_append, List.singleton_append, atom, octet_cons]
    simp only [bind, Except.bind, hdiv, hrem, if_neg (UInt8.not_le.mpr hcontext), if_true,
      octet_cons]

/-- What is read begins with octets that tell a tag. -/
theorem exists_tag_of_atom {input : List UInt8} (h : atom input = .ok (value, rest)) :
    ∃ tag low header others, Tag tag low header ∧ input = header ++ others ∧
      tagged tag low others = .ok (value, rest) := by
  obtain ⟨⟨first, others⟩, hfirst, hnext⟩ := bind_eq_ok_iff.mp h
  obtain rfl := octet_eq_ok_iff.mp hfirst
  dsimp only at hnext
  split at hnext
  · cases hnext
  · rename_i hcontext
    obtain ⟨hlow, hsplit⟩ := join_octet (UInt8.not_le.mp hcontext)
    split at hnext
    · rename_i hextended
      obtain ⟨⟨tag, others⟩, htag, hnext⟩ := bind_eq_ok_iff.mp hnext
      obtain rfl := octet_eq_ok_iff.mp htag
      refine ⟨tag, first % 8, [first, tag], others, ?_, rfl, hnext⟩
      have hheader := Tag.extended tag hlow
      rwa [← hextended, hsplit] at hheader
    · rename_i hshort
      refine ⟨first / 16, first % 8, [first], others, ?_, rfl, hnext⟩
      have hheader := Tag.short (div_lt_extended hshort) hlow
      rwa [hsplit] at hheader

/-- A Boolean is told by the low field. -/
theorem boolean_eq_ok_iff {low : UInt8} :
    boolean low = .ok value ↔ ∃ b : Bool, low = b.toUInt8 ∧ value = .boolean b := by
  constructor
  · intro h
    rw [boolean] at h
    split at h
    · rename_i hzero
      cases h
      exact ⟨false, hzero, rfl⟩
    · split at h
      · rename_i hone
        cases h
        exact ⟨true, hone, rfl⟩
      · cases h
  · rintro ⟨b, rfl, rfl⟩
    cases b <;> rfl

theorem kind_ne_boolean_of_content (h : Content value row) : value.kind ≠ .boolean := by
  cases value with
  | boolean b => cases h
  | _ => nofun

/-- Behind the tag of Booleans nothing more is read, and behind any other a length and the content of
a value with the tag. -/
theorem tagged_eq_ok_iff {tag low : UInt8} {input : List UInt8} :
    tagged tag low input = .ok (value, rest) ↔
      (∃ b : Bool, tag = Kind.boolean.tag ∧ low = b.toUInt8 ∧ value = .boolean b ∧ input = rest) ∨
        ∃ spelt content, tag = value.kind.tag ∧ Length low content.length spelt ∧
          Content value content ∧ input = spelt ++ content ++ rest := by
  constructor
  · intro h
    rw [tagged] at h
    split at h
    · rename_i htag
      obtain ⟨found, hfound, hnext⟩ := bind_eq_ok_iff.mp h
      cases hnext
      obtain ⟨b, hlow, hvalue⟩ := boolean_eq_ok_iff.mp hfound
      exact .inl ⟨b, htag, hlow, hvalue, rfl⟩
    · obtain ⟨⟨count, behind⟩, hcount, hnext⟩ := bind_eq_ok_iff.mp h
      obtain ⟨spelt, hspelt, rfl⟩ := length_eq_ok_iff.mp hcount
      obtain ⟨⟨content, others⟩, hcontent, hlast⟩ := bind_eq_ok_iff.mp hnext
      obtain ⟨rfl, rfl⟩ := octets_eq_ok_iff.mp hcontent
      dsimp only at hlast
      split at hlast
      · rename_i kind hkind
        obtain ⟨found, hfound, hrest⟩ := bind_eq_ok_iff.mp hlast
        cases hrest
        obtain ⟨rfl, hcontent⟩ := ofContent_eq_ok_iff.mp hfound
        exact .inr ⟨spelt, content, (Kind.tag_of_ofTag? hkind).symm, hspelt, hcontent,
          (List.append_assoc _ _ _).symm⟩
      · cases hlast
  · rintro (⟨b, rfl, hlow, hvalue, rfl⟩ | ⟨spelt, content, rfl, hspelt, hcontent, rfl⟩)
    · rw [tagged, if_pos rfl, boolean_eq_ok_iff.mpr ⟨b, hlow, hvalue⟩]
      rfl
    · have hlength : length value.kind.tag low (spelt ++ content ++ rest) =
          .ok (content.length, content ++ rest) :=
        length_eq_ok_iff.mpr ⟨spelt, hspelt, List.append_assoc spelt content rest⟩
      rw [tagged, if_neg (tag_ne_boolean (kind_ne_boolean_of_content hcontent)), hlength]
      simp only [bind, Except.bind, octets_append rfl, Kind.ofTag?_tag,
        ofContent_of_content hcontent, pure, Except.pure]

/-- **The first value of a row of octets is one that the front of the row spells.** -/
theorem atom_eq_ok_iff {input : List UInt8} :
    atom input = .ok (value, rest) ↔ ∃ spelling, Spells spelling value ∧ input = spelling ++ rest := by
  constructor
  · intro h
    obtain ⟨tag, low, header, others, htag, rfl, hnext⟩ := exists_tag_of_atom h
    rcases tagged_eq_ok_iff.mp hnext with
      ⟨b, rfl, rfl, rfl, rfl⟩ | ⟨spelt, content, rfl, hlength, hcontent, rfl⟩
    · exact ⟨header, .boolean htag, rfl⟩
    · exact ⟨header ++ spelt ++ content, .content htag hlength hcontent, by simp⟩
  · rintro ⟨spelling, hspells, rfl⟩
    cases hspells with
    | boolean htag =>
      rw [atom_tag_append htag, tagged_eq_ok_iff]
      exact .inl ⟨_, rfl, rfl, rfl, rfl⟩
    | content htag hlength hcontent =>
      rw [List.append_assoc, List.append_assoc, atom_tag_append htag, tagged_eq_ok_iff]
      exact .inr ⟨_, _, rfl, hlength, hcontent, (List.append_assoc _ _ _).symm⟩

theorem spells_encode (h : value.FitsWire) : Spells value.encode value := by
  obtain ⟨spelling, hspells, hencode⟩ := atom_eq_ok_iff.mp (atom_encode_append h [])
  rwa [List.append_cancel_right hencode]

/-- The first value, read as a datatype, is one that the datatype admits. -/
theorem expected_eq_ok_iff {datatype : Datatype} {input : List UInt8} :
    expected datatype input = .ok (value, rest) ↔
      datatype.admits value.kind = true ∧
        ∃ spelling, Spells spelling value ∧ input = spelling ++ rest := by
  rw [← atom_eq_ok_iff]
  constructor
  · intro h
    obtain ⟨⟨found, behind⟩, hatom, hadmits⟩ := bind_eq_ok_iff.mp h
    dsimp only at hadmits
    split at hadmits
    · rename_i hfits
      cases hadmits
      exact ⟨hfits, hatom⟩
    · cases hadmits
  · rintro ⟨hadmits, hatom⟩
    simp only [expected, hatom, bind, Except.bind, hadmits, if_true, pure, Except.pure]

end Decode

/-- A row of octets is read as a primitive value of a datatype exactly if it spells a value that the
datatype admits. -/
theorem Atom.decode_eq_ok_iff {input : List UInt8} {datatype : Datatype} {value : Atom} :
    Atom.decode input datatype = .ok value ↔
      datatype.admits value.kind = true ∧ Spells input value := by
  constructor
  · intro h
    obtain ⟨⟨found, rest⟩, hexpected, hend⟩ := bind_eq_ok_iff.mp h
    obtain ⟨hadmits, spelling, hspells, rfl⟩ := Decode.expected_eq_ok_iff.mp hexpected
    dsimp only at hend
    split at hend
    · rename_i hempty
      cases hend
      rw [List.isEmpty_iff.mp hempty, List.append_nil]
      exact ⟨hadmits, hspells⟩
    · cases hend
  · rintro ⟨hadmits, hspells⟩
    have hexpected : Decode.expected datatype input = .ok (value, []) :=
      Decode.expected_eq_ok_iff.mpr ⟨hadmits, input, hspells, (List.append_nil input).symm⟩
    simp [Atom.decode, hexpected, bind, Except.bind, pure, Except.pure]

/-- **A row of octets is read as a primitive value exactly if it spells it.** -/
theorem Value.decode_anyAtomic_eq_ok_iff (input : List UInt8) (value : Value) :
    Value.decode input .anyAtomic = .ok value ↔ ∃ atom, value = .atom atom ∧ Spells input atom := by
  have hadmits (kind : Kind) : Datatype.anyAtomic.admits kind = true := rfl
  have hdecode : Value.decode input .anyAtomic = (Atom.decode input .anyAtomic).map .atom := rfl
  rw [hdecode, map_eq_ok_iff]
  constructor
  · rintro ⟨atom, hatom, rfl⟩
    exact ⟨atom, rfl, (Atom.decode_eq_ok_iff.mp hatom).2⟩
  · rintro ⟨atom, rfl, hspells⟩
    exact ⟨atom, Atom.decode_eq_ok_iff.mpr ⟨hadmits _, hspells⟩, rfl⟩

/-- The tag in an octet of its own, the length in three octets, and a number with a zero in front. -/
example : Value.decode [0xF5, 2, 254, 0, 2, 0, 7] .anyAtomic = .ok (.atom (.unsigned 7)) := rfl

end Fieldbus
