import Mathlib.Data.List.Basic
import Mathlib.Data.List.Induction
import Mathlib.Tactic.Ring
import Fieldbus.Value.Octets

/-!
# Numbers and bits read back from their octets

Reading a row of octets undoes writing it, in each of the three forms that values use: numbers with
the most significant octet first, integers in two's complement, and bits packed eight to an octet.
The least widths that the encoder picks are wide enough.

## Main results

* `ofBigEndian_bigEndian_of_lt`: a number that fits a width is read back from it.
* `ofSignedBigEndian_signedBigEndian`: so is an integer in two's complement.
* `bigEndian_ofBigEndian`, `signedBigEndian_ofSignedBigEndian`: a row of octets is written again as
  it was read.
* `take_flatMap_packBits`: the packed bits are the bits, once those that fill up are cut off.
-/

namespace Fieldbus

/-! ### Numbers -/

theorem octetRange_zero : octetRange 0 = 1 := rfl

theorem octetRange_succ (width : Nat) : octetRange (width + 1) = 256 * octetRange width := by
  rw [octetRange, octetRange]
  exact Nat.pow_succ'

theorem octetRange_pos (width : Nat) : 0 < octetRange width := Nat.pow_pos (by decide)

theorem octetRange_le {width wider : Nat} (h : width ≤ wider) :
    octetRange width ≤ octetRange wider := Nat.pow_le_pow_right (by decide) h

@[simp]
theorem length_bigEndian (width n : Nat) : (bigEndian width n).length = width := by
  induction width generalizing n with
  | zero => rfl
  | succ width ih => rw [bigEndian, List.length_append, ih]; rfl

/-- One more octet at the end counts for itself, and all before it 256 times as much. -/
theorem ofBigEndian_append_singleton (row : List UInt8) (octet : UInt8) :
    ofBigEndian (row ++ [octet]) = 256 * ofBigEndian row + octet.toNat := by
  simp [ofBigEndian]

theorem ofBigEndian_bigEndian (width n : Nat) :
    ofBigEndian (bigEndian width n) = n % octetRange width := by
  induction width generalizing n with
  | zero => simp [bigEndian, ofBigEndian, octetRange_zero, Nat.mod_one]
  | succ width ih =>
    have hoctet : (UInt8.ofNat n).toNat = n % 256 := by simp
    rw [bigEndian, ofBigEndian_append_singleton, ih, hoctet, octetRange_succ, Nat.mod_mul]
    exact Nat.add_comm _ _

/-- A number that fits a width is read back from it. -/
theorem ofBigEndian_bigEndian_of_lt {width n : Nat} (h : n < octetRange width) :
    ofBigEndian (bigEndian width n) = n := by
  rw [ofBigEndian_bigEndian, Nat.mod_eq_of_lt h]

/-! ### Rows of octets as numbers -/

theorem ofBigEndian_lt (row : List UInt8) : ofBigEndian row < octetRange row.length := by
  induction row using List.reverseRecOn with
  | nil => exact octetRange_pos 0
  | append_singleton row octet ih =>
    have hoctet := octet.toNat_lt
    rw [ofBigEndian_append_singleton, List.length_append, List.length_singleton, octetRange_succ]
    omega

/-- The number that a row of octets spells is written as the row. -/
theorem bigEndian_ofBigEndian (row : List UInt8) : bigEndian row.length (ofBigEndian row) = row := by
  induction row using List.reverseRecOn with
  | nil => rfl
  | append_singleton row octet ih =>
    have hoctet := octet.toNat_lt
    have hrest : (256 * ofBigEndian row + octet.toNat) / 256 = ofBigEndian row := by omega
    have hlast : UInt8.ofNat (256 * ofBigEndian row + octet.toNat) = octet := by
      apply UInt8.toNat_inj.mp
      rw [UInt8.toNat_ofNat']
      omega
    rw [ofBigEndian_append_singleton, List.length_append, List.length_singleton, bigEndian, hrest,
      ih, hlast]

theorem ofSignedBigEndian_fits (row : List UInt8) :
    -(octetRange row.length : Int) ≤ 2 * ofSignedBigEndian row ∧
      2 * ofSignedBigEndian row < octetRange row.length := by
  have hlt := ofBigEndian_lt row
  simp only [ofSignedBigEndian]
  split <;> constructor <;> omega

/-- The integer that a row of octets spells in two's complement is written as the row. -/
theorem signedBigEndian_ofSignedBigEndian (row : List UInt8) :
    signedBigEndian row.length (ofSignedBigEndian row) = row := by
  have hlt := ofBigEndian_lt row
  have hrem : (ofSignedBigEndian row % octetRange row.length).toNat = ofBigEndian row := by
    simp only [ofSignedBigEndian]
    split
    · rw [Int.emod_eq_of_lt (by omega) (by omega), Int.toNat_natCast]
    · rw [Int.sub_emod_right, Int.emod_eq_of_lt (by omega) (by omega), Int.toNat_natCast]
  rw [signedBigEndian, hrem, bigEndian_ofBigEndian]

/-! ### Least widths -/

/-- The least width satisfies the test, if the greatest one does. -/
theorem fits_leastWidth {fits : Nat → Bool} (h : fits 8 = true) :
    fits (leastWidth fits) = true := by
  rw [leastWidth]
  cases hfound : (List.range' 1 7).find? fits with
  | none => exact h
  | some width => exact List.find?_some hfound

theorem leastWidth_mem (fits : Nat → Bool) : 1 ≤ leastWidth fits ∧ leastWidth fits ≤ 8 := by
  rw [leastWidth]
  cases hfound : (List.range' 1 7).find? fits with
  | none => exact ⟨by decide, by decide⟩
  | some width =>
    have hmem := List.mem_range'_1.mp (List.mem_of_find?_eq_some hfound)
    rw [Option.getD_some]
    omega

theorem leastWidth_le {fits : Nat → Bool} {width : Nat} (hpos : 1 ≤ width)
    (h : fits width = true) : leastWidth fits ≤ width := by
  by_cases hwide : 8 ≤ width
  · exact (leastWidth_mem fits).2.trans hwide
  · rw [leastWidth]
    cases hfound : (List.range' 1 7).find? fits with
    | none =>
      have hmem : width ∈ List.range' 1 7 := List.mem_range'_1.mpr (by omega)
      exact absurd h (List.find?_eq_none.mp hfound width hmem)
    | some least =>
      -- what stands before the first hit in the ascending list fails the test
      obtain ⟨-, before, after, hsplit, hbefore⟩ := List.find?_eq_some_iff_append.mp hfound
      have hmem : width ∈ before ++ least :: after :=
        hsplit ▸ List.mem_range'_1.mpr (by omega)
      have hsorted : (before ++ least :: after).Pairwise (· < ·) :=
        hsplit ▸ List.pairwise_lt_range'
      rcases List.mem_append.mp hmem with hin | hin
      · exact absurd h (by simpa using hbefore width hin)
      · rcases List.mem_cons.mp hin with rfl | hin
        · exact Nat.le_refl _
        · have htail := (List.pairwise_append.mp hsorted).2.1
          exact Nat.le_of_lt ((List.pairwise_cons.mp htail).1 width hin)

theorem lt_octetRange_unsignedWidth {n : Nat} (h : n < 2 ^ 64) :
    n < octetRange (unsignedWidth n) := by
  have hwide : decide (n < octetRange 8) = true := decide_eq_true h
  exact of_decide_eq_true (@fits_leastWidth (fun width => n < octetRange width) hwide)

theorem unsignedWidth_le_four {n : Nat} (h : n < 2 ^ 32) : unsignedWidth n ≤ 4 := by
  have hfour : decide (n < octetRange 4) = true := decide_eq_true h
  exact @leastWidth_le (fun width => n < octetRange width) 4 (by decide) hfour

theorem signedWidth_fits {n : Int} (hlow : -(2 ^ 63) ≤ n) (hhigh : n < 2 ^ 63) :
    -(octetRange (signedWidth n) : Int) ≤ 2 * n ∧ 2 * n < octetRange (signedWidth n) := by
  have height : octetRange 8 = 2 ^ 64 := by decide
  have hwide : (-(octetRange 8 : Int) ≤ 2 * n && 2 * n < octetRange 8) = true := by
    rw [height, Bool.and_eq_true, decide_eq_true_iff, decide_eq_true_iff]
    omega
  have hfits := @fits_leastWidth
    (fun width => -(octetRange width : Int) ≤ 2 * n && 2 * n < octetRange width) hwide
  rw [Bool.and_eq_true, decide_eq_true_iff, decide_eq_true_iff] at hfits
  exact hfits

/-! ### Two's complement -/

/-- An integer that fits a width is read back from its two's complement. -/
theorem ofSignedBigEndian_signedBigEndian {width : Nat} {n : Int}
    (hlow : -(octetRange width : Int) ≤ 2 * n) (hhigh : 2 * n < octetRange width) :
    ofSignedBigEndian (signedBigEndian width n) = n := by
  have hpos : (0 : Int) < octetRange width := by exact_mod_cast octetRange_pos width
  have hlt : (n % octetRange width).toNat < octetRange width := by
    have := Int.emod_lt_of_pos n hpos
    have := Int.emod_nonneg n hpos.ne'
    omega
  have hword : ofBigEndian (signedBigEndian width n) = (n % octetRange width).toNat :=
    ofBigEndian_bigEndian_of_lt hlt
  have hlength : (signedBigEndian width n).length = width := length_bigEndian _ _
  simp only [ofSignedBigEndian, hword, hlength]
  -- the remainder is the integer itself or lies one range above it
  by_cases hneg : n < 0
  · have hrem : n % octetRange width = n + octetRange width := by
      rw [← Int.add_emod_right]
      exact Int.emod_eq_of_lt (by omega) (by omega)
    rw [hrem]
    split <;> omega
  · rw [Int.emod_eq_of_lt (by omega) (by omega)]
    split <;> omega

/-! ### Bits -/

/-- An octet read bit by bit gives the bits it was made from, with zeros for missing ones. -/
theorem bitsOfOctet_octetOfBits (bits : List Bool) :
    bitsOfOctet (octetOfBits bits) = (List.range 8).map fun i => bits.getD i false := by
  have hall : ∀ a b c d e f g h : Bool,
      bitsOfOctet (octetOfBits [a, b, c, d, e, f, g, h]) = [a, b, c, d, e, f, g, h] := by
    decide +kernel
  exact hall (bits.getD 0 false) (bits.getD 1 false) (bits.getD 2 false) (bits.getD 3 false)
    (bits.getD 4 false) (bits.getD 5 false) (bits.getD 6 false) (bits.getD 7 false)

theorem take_bitsOfOctet_octetOfBits {bits : List Bool} (h : bits.length ≤ 8) :
    (bitsOfOctet (octetOfBits bits)).take bits.length = bits := by
  rw [bitsOfOctet_octetOfBits]
  apply List.ext_getElem
  · simpa using h
  · intro i hleft hright
    simp [List.getD_eq_getElem?_getD, hright]

theorem getElem?_bitsOfOctet {octet : UInt8} {i : Nat} (h : i < 8) :
    (bitsOfOctet octet)[i]? = some (octet.toNat.testBit (7 - i)) := by
  rw [bitsOfOctet, List.getElem?_map, List.getElem?_range h, Option.map_some]

/-- The bits of a row of octets follow each other, eight of each octet. -/
theorem getElem?_flatMap_bitsOfOctet (row : List UInt8) (i : Nat) :
    (row.flatMap bitsOfOctet)[i]? =
      row[i / 8]?.map fun octet => octet.toNat.testBit (7 - i % 8) := by
  induction row generalizing i with
  | nil => rfl
  | cons octet row ih =>
    have hlength : (bitsOfOctet octet).length = 8 := by simp [bitsOfOctet]
    rw [List.flatMap_cons]
    by_cases hfirst : i < 8
    · have hindex : i / 8 = 0 := by omega
      have hplace : i % 8 = i := by omega
      rw [List.getElem?_append_left (by omega), getElem?_bitsOfOctet hfirst, hindex, hplace]
      rfl
    · have hindex : i / 8 = (i - 8) / 8 + 1 := by omega
      have hplace : i % 8 = (i - 8) % 8 := by omega
      rw [List.getElem?_append_right (by omega), hlength, ih, hindex, hplace,
        List.getElem?_cons_succ]

theorem length_flatMap_bitsOfOctet (row : List UInt8) :
    (row.flatMap bitsOfOctet).length = 8 * row.length := by
  induction row with
  | nil => rfl
  | cons octet row ih =>
    have hlength : (bitsOfOctet octet).length = 8 := by simp [bitsOfOctet]
    rw [List.flatMap_cons, List.length_append, hlength, ih, List.length_cons]
    omega

theorem length_packBits (bits : List Bool) : (packBits bits).length = octetCount bits.length := by
  induction bits using packBits.induct with
  | case1 => rw [packBits]; rfl
  | case2 bit rest ih =>
    rw [packBits, List.length_cons, ih, octetCount, octetCount, List.length_drop, List.length_cons]
    omega

/-- Packed bits are the bits, once those that fill up the last octet are cut off. -/
theorem take_flatMap_packBits (bits : List Bool) :
    ((packBits bits).flatMap bitsOfOctet).take bits.length = bits := by
  induction bits using packBits.induct with
  | case1 => rw [packBits]; rfl
  | case2 bit rest ih =>
    rw [packBits, List.flatMap_cons]
    have hlength : (bitsOfOctet (octetOfBits ((bit :: rest).take 8))).length = 8 := by
      simp [bitsOfOctet]
    by_cases hfew : (bit :: rest).length ≤ 8
    · rw [List.take_append_of_le_length (by omega), List.take_of_length_le hfew]
      exact take_bitsOfOctet_octetOfBits hfew
    · have hfull : ((bit :: rest).take 8).length = 8 := by
        rw [List.length_take]
        omega
      have hoctet := @take_bitsOfOctet_octetOfBits ((bit :: rest).take 8) (by omega)
      rw [List.take_of_length_le (by omega)] at hoctet
      have hrest : (bit :: rest).length - 8 = (rest.drop 7).length := by
        rw [List.length_drop, List.length_cons]
        omega
      rw [List.take_append, hoctet, hfull, hrest, ih,
        List.take_of_length_le (by omega : ((bit :: rest).take 8).length ≤ (bit :: rest).length)]
      exact List.take_append_drop 8 (bit :: rest)

end Fieldbus
