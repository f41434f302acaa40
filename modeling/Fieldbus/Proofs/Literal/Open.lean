import Fieldbus.Proofs.Literal.Shown

/-!
# What leaves a part of a date open

The octet of an open part is that of no part that is written, with one exception.  A year is counted
from 1900, and the octet of the year 2155 is the one that leaves the year open.  Without stars this
is no year of a date, but beside a star it is accepted.

## Main results

* `Literal.unspecified_of_write_date`: what leaves a part of a date open.
* `Literal.year_2155_open`: the exception.
-/

namespace Fieldbus.Literal

open Fieldbus.Text

variable {row : List Char} {date : Date} {index : Option UInt32}

theorem star_notMem_of_numeral {n : Nat} (h : Numeral (trimStart row) n) : '*' ∉ row :=
  notMem_of_numeral h rfl rfl (by decide)

/-- A number between bounds below it is not the octet of an open part. -/
theorem unspecified_iff_of_field? {low high : Nat} {octet : UInt8}
    (h : field? low high row = some octet) (hhigh : high < unspecified.toNat) :
    octet = unspecified ↔ row = ['*'] := by
  obtain ⟨hrow, hoctet⟩ | ⟨hspelled, -, hbound⟩ := field?_eq_some_iff.mp h
  · exact iff_of_true hoctet hrow
  · refine iff_of_false (fun hoctet => ?_) fun hrow => not_numeral_star (hrow ▸ hspelled)
    rw [hoctet] at hbound
    omega

/-- A part with a star in it is a star. -/
theorem star_mem_iff_of_field? {low high : Nat} {octet : UInt8}
    (h : field? low high row = some octet) : '*' ∈ row ↔ row = ['*'] := by
  refine ⟨fun hstar => ?_, fun hrow => hrow ▸ List.mem_singleton_self '*'⟩
  obtain ⟨hrow, -⟩ | ⟨hspelled, -⟩ := field?_eq_some_iff.mp h
  · exact hrow
  · rw [← trimStart_of_numeral hspelled] at hspelled
    exact absurd hstar (star_notMem_of_numeral hspelled)

/-- A year with a star in it is a star.  The year 2155 has the octet of the open year. -/
theorem unspecified_iff_of_yearField? {octet : UInt8} (h : yearField? row = some octet) :
    (octet = unspecified ↔ row = ['*'] ∨ Numeral row 2155) ∧
      (row = ['*'] ∨ Numeral (trimStart row) (1900 + octet.toNat)) := by
  obtain ⟨hrow, hoctet⟩ | hspelled := yearField?_eq_some_iff.mp h
  · exact ⟨iff_of_true hoctet (.inl hrow), .inl hrow⟩
  · have hne : row ≠ ['*'] := fun hrow => not_numeral_star (hrow ▸ hspelled)
    refine ⟨?_, .inr (by rwa [trimStart_of_numeral hspelled])⟩
    rw [or_iff_right hne]
    constructor
    · intro hoctet
      rw [hoctet] at hspelled
      exact hspelled
    · intro hlast
      have hnumber : 1900 + octet.toNat = 2155 := hspelled.eq hlast
      exact UInt8.toNat_inj.mp (show octet.toNat = 255 by omega)

/-- **What leaves a part of a date open.**  A date that is accepted has three fields.  Its month and
its day are open where the fields are stars, and nowhere else.  Its year is open where the field is
a star, and where it says 2155 beside a star.  A year that is no star is a number, counted from
1900. -/
theorem unspecified_of_write_date {text : String} (h : write text .date index = .ok (.date date)) :
    ∃ year month day, fields '-' (trim text.toList) = [year, month, day] ∧
      (date.month = unspecified ↔ month = ['*']) ∧
      (date.day = unspecified ↔ day = ['*']) ∧
      (date.year = unspecified ↔
        year = ['*'] ∨ Numeral year 2155 ∧ (month = ['*'] ∨ day = ['*'])) ∧
      (year = ['*'] ∨ Numeral (trimStart year) (1900 + date.year.toNat)) := by
  have hdate := write_date_iff.mp h
  rw [date?] at hdate
  split at hdate
  · rename_i hstar
    obtain ⟨year, month, day, hfields, hyear, hmonth, hday, -⟩ := starredDate?_eq_some_iff.mp hdate
    obtain ⟨hopen, hcounted⟩ := unspecified_iff_of_yearField? hyear
    refine ⟨year, month, day, hfields, unspecified_iff_of_field? hmonth (by decide),
      unspecified_iff_of_field? hday (by decide), ?_, hcounted⟩
    -- a star that is not in the year is in one of the other fields
    have hother : Numeral year 2155 → month = ['*'] ∨ day = ['*'] := by
      intro hlast
      have hyearStar : '*' ∉ year := by
        rw [← trimStart_of_numeral hlast] at hlast
        exact star_notMem_of_numeral hlast
      rw [hasStar_iff, eq_dateText hfields, mem_dateText (by decide), or_iff_right hyearStar,
        star_mem_iff_of_field? hmonth, star_mem_iff_of_field? hday] at hstar
      exact hstar
    rw [hopen, and_iff_left_of_imp hother]
  · obtain ⟨year, month, day, hfields, hyear, hmonth, hday, hreal⟩ :=
      plainDate?_eq_some_iff.mp hdate
    obtain ⟨hyearOctet, hmonthOctet, hdayOctet⟩ := hreal.specified
    have hnone : ∀ {row : List Char} {n : Nat}, Numeral (trimStart row) n → row ≠ ['*'] :=
      fun hspelled hrow => star_notMem_of_numeral hspelled (hrow ▸ List.mem_singleton_self '*')
    have hyearRow := hnone hyear.numeral
    have hmonthRow := hnone hmonth.numeral
    have hdayRow := hnone hday.numeral
    refine ⟨year, month, day, hfields, iff_of_false hmonthOctet hmonthRow,
      iff_of_false hdayOctet hdayRow, iff_of_false hyearOctet ?_, .inr hyear.numeral⟩
    rintro (hrow | ⟨-, hrow | hrow⟩)
    · exact hyearRow hrow
    · exact hmonthRow hrow
    · exact hdayRow hrow

/-- The first of any month of the year 2155. -/
theorem unspecified_of_write_date_last :
    write "2155-*-01" .date none = .ok (.date ⟨255, 255, 1, 255⟩) ∧
      ∃ year month day, fields '-' (trim "2155-*-01".toList) = [year, month, day] ∧
        ((255 : UInt8) = unspecified ↔
          year = ['*'] ∨ Numeral year 2155 ∧ (month = ['*'] ∨ day = ['*'])) := by
  have hwrite : write "2155-*-01" .date none = .ok (.date ⟨255, 255, 1, 255⟩) := by decide +kernel
  obtain ⟨year, month, day, hfields, -, -, hyear, -⟩ := unspecified_of_write_date hwrite
  exact ⟨hwrite, year, month, day, hfields, hyear⟩

/-- A year that is written can leave the year open, beside a star.  Without one it is refused. -/
theorem year_2155_open :
    write "2155-01-01" .date none = .error (.invalid "2155-01-01" .date) ∧
    ¬ ∀ (text : String) (date : Date), write text .date none = .ok (.date date) →
      ∀ year month day, fields '-' (trim text.toList) = [year, month, day] →
        (date.year = unspecified ↔ year = ['*']) := by
  refine ⟨by decide +kernel, fun hclaim => ?_⟩
  have hwrite : write "2155-*-01" .date none = .ok (.date ⟨255, 255, 1, 255⟩) := by decide +kernel
  have hfields : fields '-' (trim "2155-*-01".toList) =
      ["2155".toList, "*".toList, "01".toList] := by decide +kernel
  exact absurd ((hclaim _ _ hwrite _ _ _ hfields).mp rfl) (by decide)

end Fieldbus.Literal
