import Mathlib.Data.Nat.Digits.Defs
import Fieldbus.Catalogue.Standard
import Fieldbus.Proofs.Binary.Integers
import Fieldbus.Proofs.PresentValue.Kinds
import Fieldbus.Value.Json

/-!
# Integers among present values

A property value that is a number may be shown as any integer of 64 bits, with a sign or without.
Where an integer is asked for, a present value that is one stays as it is, and a text that spells
one gives the same, up to the greatest integer of 63 bits.  Those beyond it are taken for real
numbers, and the greatest integer of 63 bits stands for all of them.

## Main definitions

* `Value.IsShown`: the integers that values are shown as.

## Main results

* `Value.isShown_iff`: these are the integers of 64 bits.
* `PresentValue.integer?_int_of_isShown`, `PresentValue.integer?_string_of_isShown`: what a number
  and its text stand for.
* `PresentValue.normalize_of_isShown`: what they are normalized to.
-/

namespace Fieldbus

open Fieldbus.Binary Fieldbus.Text

/-! ### The integers that are shown -/

/-- An integer that some value is shown as, under some datatype. -/
def Value.IsShown (n : Int) : Prop := ∃ datatype value, Value.toJson datatype value = .int n

theorem eq_toNat_of_enumeratedJson {number : UInt32} {datatype : Datatype} {n : Int}
    (h : enumeratedJson number datatype = .int n) : n = number.toNat := by
  unfold enumeratedJson at h
  split at h
  · split at h
    · cases h
    · exact (Json.int.inj h).symm
  · exact (Json.int.inj h).symm

/-- **Values are shown as the integers of 64 bits**, with a sign or without. -/
theorem Value.isShown_iff {n : Int} :
    IsShown n ↔ PresentValue.minInt ≤ n ∧ n ≤ 18446744073709551615 := by
  have hleast : PresentValue.minInt = -9223372036854775808 := rfl
  constructor
  · rintro ⟨datatype, value, hvalue⟩
    cases value with
    | array items => cases hvalue
    | atom atom =>
      change atom.toJson datatype = .int n at hvalue
      cases atom with
      | unsigned number =>
        have hn : (number.toNat : Int) = n := Json.int.inj hvalue
        have hbound := number.toNat_lt
        omega
      | signed number =>
        have hn : number.toInt = n := Json.int.inj hvalue
        have hlow := number.le_toInt
        have hhigh := number.toInt_lt
        omega
      | enumerated number =>
        have hn := eq_toNat_of_enumeratedJson hvalue
        have hbound := number.toNat_lt
        omega
      | real x =>
        rw [Atom.toJson, singleJson] at hvalue
        split at hvalue <;> cases hvalue
      | double x =>
        rw [Atom.toJson, doubleJson] at hvalue
        split at hvalue <;> cases hvalue
      | _ => cases hvalue
  · rintro ⟨hlow, hhigh⟩
    by_cases hneg : n < 0
    · refine ⟨.anyAtomic, .atom (.signed (Int64.ofInt n)), congrArg Json.int ?_⟩
      exact Int64.toInt_ofInt_of_le (by omega) (by omega)
    · refine ⟨.anyAtomic, .atom (.unsigned (UInt64.ofNat n.toNat)), congrArg Json.int ?_⟩
      have hnumber : (UInt64.ofNat n.toNat).toNat = n.toNat := by
        rw [UInt64.toNat_ofNat']
        omega
      rw [hnumber]
      omega

namespace PresentValue

variable {n : Int}

/-- An integer of more than 63 bits, taken for a real number, stands for the greatest of 63 bits. -/
theorem nearest_ofInt_of_lt (hlow : maxInt < n) (hhigh : n ≤ 18446744073709551615) :
    (Double.ofInt n).isFinite = true ∧ nearest (.ofInt n) = maxInt := by
  have hleast : minInt = -9223372036854775808 := rfl
  have hgreatest : maxInt = 9223372036854775807 := rfl
  obtain ⟨number, rfl⟩ := Int.eq_ofNat_of_zero_le (show 0 ≤ n by omega)
  have hlow' : 2 ^ 63 ≤ number := by omega
  have hhigh' : number < 2 ^ (63 + 1) := by omega
  obtain ⟨hfinite, hnearest⟩ :=
    Double.le_nearestInt_ofInt hlow' hhigh' (by decide) (by decide)
  refine ⟨hfinite, ?_⟩
  unfold nearest
  omega

/-- The text of an integer that is shown is read as the integer is made a double. -/
theorem ofText?_of_isShown (h : Value.IsShown n) :
    Double.ofText? (signedDecimal n).toList = some (.ofInt n) := by
  obtain ⟨hlow, hhigh⟩ := Value.isShown_iff.mp h
  have hleast : minInt = -9223372036854775808 := rfl
  have hlength := Nat.toDigits_length 10 n.natAbs 20 (by decide) (by omega)
  exact Double.ofText?_signedDecimal ((Int.ofNat_le.mpr hlength).trans (by decide))

/-- A number stands for itself, or for the greatest integer of 63 bits. -/
theorem integer?_int_of_isShown (h : Value.IsShown n) :
    integer? (.int n) = some (min n maxInt) := by
  obtain ⟨-, hhigh⟩ := Value.isShown_iff.mp h
  rw [integer?]
  split
  · rename_i hn
    rw [Int.min_eq_left hn]
  · rename_i hn
    have hlarge : maxInt < n := Int.not_le.mp hn
    rw [(nearest_ofInt_of_lt hlarge hhigh).2, Int.min_eq_right (Int.le_of_lt hlarge)]

/-- The text of a number stands for what the number stands for, with blanks around it or without. -/
theorem integer?_string_of_isShown (h : Value.IsShown n) {text : String}
    (htext : trim text.toList = (signedDecimal n).toList) :
    integer? (.string text) = some (min n maxInt) := by
  obtain ⟨hlow, hhigh⟩ := Value.isShown_iff.mp h
  rw [integer?, htext]
  rcases Int.lt_or_le maxInt n with hlarge | hn
  · obtain ⟨hfinite, hnearest⟩ := nearest_ofInt_of_lt hlarge hhigh
    have hread : finite? (signedDecimal n).toList = some (.ofInt n) := by
      rw [finite?, ofText?_of_isShown h, Option.filter_some, if_pos hfinite]
    rw [integer?_signedDecimal_of_lt hlarge, hread, Int.min_eq_right (Int.le_of_lt hlarge)]
    exact congrArg some hnearest
  · rw [integer?_signedDecimal hlow hn, Int.min_eq_left hn]

/-- **Integers are normalized to themselves, as numbers and as texts, up to 63 bits**, and to the
greatest integer of 63 bits beyond. -/
theorem normalize_of_isShown {catalogue : Catalogue} {name : String}
    (hwhole : (catalogue.meaning name).isWhole = true) (h : Value.IsShown n) :
    normalize catalogue name (.int n) = .int (min n maxInt) ∧
      normalize catalogue name (.string (signedDecimal n)) = .int (min n maxInt) := by
  have htext : trim (signedDecimal n).toList = (signedDecimal n).toList :=
    trim_of_isPlain fun c hc => isPlain_of_mem_signedDecimal hc
  rw [normalize_of_isWhole hwhole, normalize_of_isWhole hwhole, integer?_int_of_isShown h,
    integer?_string_of_isShown h htext]
  exact ⟨rfl, rfl⟩

/-- The first odd integer that is no double, under a type that asks for unsigned integers. -/
theorem normalize_of_isShown_odd :
    Value.IsShown 9007199254740993 ∧
      normalize .standard "accumulator" (.int 9007199254740993) = .int 9007199254740993 ∧
      normalize .standard "accumulator" (.string (signedDecimal 9007199254740993)) =
        .int 9007199254740993 := by
  have hwhole : (Catalogue.standard.meaning "accumulator").isWhole = true := by decide +kernel
  have hshown : Value.IsShown 9007199254740993 := Value.isShown_iff.mpr (by decide)
  exact ⟨hshown, normalize_of_isShown hwhole hshown⟩

/-- The greatest unsigned integer that a value is shown as is not normalized to itself. -/
theorem greatest_unsigned_reduced :
    Value.toJson .anyAtomic (.atom (.unsigned 18446744073709551615)) =
        .int 18446744073709551615 ∧
      Catalogue.standard.meaning "accumulator" = .unsigned ∧
      normalize .standard "accumulator" (.int 18446744073709551615) = .int 9223372036854775807 ∧
      normalize .standard "accumulator" (.string "18446744073709551615") =
        .int 9223372036854775807 := by
  have hmeaning : Catalogue.standard.meaning "accumulator" = .unsigned := by decide +kernel
  have hwhole : (Catalogue.standard.meaning "accumulator").isWhole = true := hmeaning ▸ rfl
  have hshown : Value.IsShown 18446744073709551615 := Value.isShown_iff.mpr (by decide)
  refine ⟨rfl, hmeaning, ?_, ?_⟩
  · rw [normalize_of_isWhole hwhole, integer?_int_of_isShown hshown]
    rfl
  · rw [normalize_of_isWhole hwhole, integer?_string_of_isShown hshown (by decide +kernel)]
    rfl

end PresentValue

end Fieldbus
