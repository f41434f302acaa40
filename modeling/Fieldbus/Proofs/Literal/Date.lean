import Fieldbus.Literal.Scalar
import Fieldbus.Proofs.Literal.Calendar
import Fieldbus.Proofs.Literal.Field
import Fieldbus.Proofs.Text.Split

/-!
# The grammar of dates

A date is accepted if its text has three fields with hyphens between them.  Without stars, the
fields say a day that exists.  With stars each field says a part of its own, and no weekday is
known.

## Main definitions

* `Literal.dateText`: the text with given fields.
* `Date.IsPattern`: the dates that leave a part unspecified.

## Main results

* `Literal.plainDate?_eq_some_iff`, `Literal.starredDate?_eq_some_iff`: which texts are accepted and
  as what.
* `Date.date?_text_iff`: which dates are read back from the texts that show them.
-/

namespace Fieldbus

open Fieldbus.Text Fieldbus.Literal

/-- A date that leaves the year, the month or the day unspecified, and with it the weekday. -/
structure Date.IsPattern (date : Date) : Prop where
  open_part : date.year = unspecified ∨ date.month = unspecified ∨ date.day = unspecified
  month : date.month = unspecified ∨ 1 ≤ date.month.toNat ∧ date.month.toNat ≤ 12
  day : date.day = unspecified ∨ 1 ≤ date.day.toNat ∧ date.day.toNat ≤ 31
  weekday : date.weekday = unspecified

theorem Date.IsDay.bounds {date : Date} (h : date.IsDay) :
    (1 ≤ date.month.toNat ∧ date.month.toNat ≤ 12) ∧ 1 ≤ date.day.toNat ∧ date.day.toNat ≤ 31 := by
  obtain ⟨-, hexists, -⟩ := h.dated.sound
  obtain ⟨hmonth, hfirst, hlast⟩ := Calendar.exists?_iff.mp hexists
  exact ⟨hmonth, hfirst, hlast.trans (Calendar.daysInMonth_le _ _)⟩

theorem Date.IsDay.specified {date : Date} (h : date.IsDay) :
    date.year ≠ unspecified ∧ date.month ≠ unspecified ∧ date.day ≠ unspecified := by
  obtain ⟨hmonth, hday⟩ := h.bounds
  have hunspecified : unspecified.toNat = 255 := rfl
  refine ⟨h.year, fun hopen => ?_, fun hopen => ?_⟩
  all_goals
    have hopen := congrArg UInt8.toNat hopen
    omega

namespace Literal

variable {text year month day : List Char} {date : Date}

/-! ### Fields of dates -/

/-- The text of a date with the given fields. -/
def dateText (year month day : List Char) : List Char := year ++ '-' :: (month ++ '-' :: day)

theorem mem_dateText {c : Char} (hc : c ≠ '-') :
    c ∈ dateText year month day ↔ c ∈ year ∨ c ∈ month ∨ c ∈ day := by
  simp [dateText, hc]

theorem fields_dateText (hyear : '-' ∉ year) (hmonth : '-' ∉ month) (hday : '-' ∉ day) :
    fields '-' (dateText year month day) = [year, month, day] := by
  rw [dateText, fields_append hyear, fields_append hmonth, fields_of_notMem hday]

theorem trim_dateText (hyear : ∀ c ∈ year, IsFieldChar c) (hmonth : ∀ c ∈ month, IsFieldChar c)
    (hday : ∀ c ∈ day, IsFieldChar c) :
    trim (dateText year month day) = dateText year month day := by
  refine trim_eq_self_of_all fun c h => ?_
  by_cases hc : c = '-'
  · rw [hc]
    rfl
  · rw [mem_dateText hc] at h
    obtain h | h | h := h
    · exact isBlank_of_isFieldChar (hyear c h)
    · exact isBlank_of_isFieldChar (hmonth c h)
    · exact isBlank_of_isFieldChar (hday c h)

theorem eq_dateText (h : fields '-' text = [year, month, day]) :
    text = dateText year month day := by
  rw [← intercalate_fields '-' text, h]
  simp [dateText]

/-! ### The two readers -/

/-- What a year stands for where there are stars: nothing, or the number that it spells. -/
theorem yearField?_eq_some_iff {field : List Char} {octet : UInt8} :
    yearField? field = some octet ↔
      field = ['*'] ∧ octet = unspecified ∨ Numeral field (1900 + octet.toNat) := by
  rw [yearField?]
  split
  · rename_i hstar
    subst hstar
    simp [not_numeral_star, eq_comm]
  · rename_i hstar
    simp only [hstar, false_and, false_or, Option.map_eq_some_iff, Option.filter_eq_some_iff,
      Bool.and_eq_true, decide_eq_true_eq]
    constructor
    · rintro ⟨year, ⟨hspelled, hfirst, hlast⟩, rfl⟩
      obtain ⟨n, rfl⟩ := Int.eq_ofNat_of_zero_le (show 0 ≤ year by omega)
      have hoctet : (UInt8.ofNat ((n : Int) - 1900).toNat).toNat = ((n : Int) - 1900).toNat :=
        UInt8.toNat_ofNat_of_lt' (show _ < 256 by omega)
      have hyear : 1900 + ((n : Int) - 1900).toNat = n := by omega
      rw [hoctet, hyear]
      exact ((integer?_eq_natCast_iff (by omega)).mp hspelled).1
    · intro h
      have hbound := octet.toNat_lt
      refine ⟨((1900 + octet.toNat : Nat) : Int), ⟨?_, by omega, by omega⟩, ?_⟩
      · exact (integer?_eq_natCast_iff (by omega)).mpr ⟨h, by omega, by omega⟩
      · have hyear : (((1900 + octet.toNat : Nat) : Int) - 1900).toNat = octet.toNat := by omega
        rw [hyear, UInt8.ofNat_toNat]

/-- A text with stars is a date if each of three fields is a part of one. -/
theorem starredDate?_eq_some_iff : starredDate? text = some date ↔
    ∃ year month day, fields '-' text = [year, month, day] ∧
      yearField? year = some date.year ∧ field? 1 12 month = some date.month ∧
      field? 1 31 day = some date.day ∧ date.weekday = unspecified := by
  rw [starredDate?]
  split
  · rename_i year month day hfields
    simp only [Option.bind_eq_bind, Option.bind_eq_some_iff]
    constructor
    · rintro ⟨_, hyear, _, hmonth, _, hday, hdate⟩
      obtain rfl := Option.some.inj hdate
      exact ⟨_, _, _, hfields, hyear, hmonth, hday, rfl⟩
    · rintro ⟨year', month', day', hfields', hyear, hmonth, hday, hweekday⟩
      simp only [hfields, List.cons.injEq, and_true] at hfields'
      obtain ⟨rfl, rfl, rfl⟩ := hfields'
      refine ⟨_, hyear, _, hmonth, _, hday, ?_⟩
      rw [← hweekday]
      rfl
  · rename_i hnone
    refine iff_of_false nofun ?_
    rintro ⟨year, month, day, hfields, -⟩
    exact hnone _ _ _ hfields

/-- A text without stars is a date if three fields say a day that exists. -/
theorem plainDate?_eq_some_iff : plainDate? text = some date ↔
    ∃ year month day, fields '-' text = [year, month, day] ∧
      YearRow (trimStart year) (1900 + date.year.toNat) ∧
      NumberRow 2 (trimStart month) date.month.toNat ∧
      NumberRow 2 (trimStart day) date.day.toNat ∧ date.IsDay := by
  have hhyphen := isDigit_of_mem_head? (c := '-') rfl
  have hend : ∀ c ∈ ([] : List Char).head?, c.isDigit = false := nofun
  have hfree : ∀ {field : List Char} {n : Nat}, Numeral (trimStart field) n → '-' ∉ field :=
    fun h => notMem_of_numeral h rfl rfl (by decide)
  simp only [plainDate?, Option.bind_eq_bind, Option.bind_eq_some_iff, after?_eq_some_iff,
    Prod.exists]
  constructor
  · rintro ⟨y, _, hleadYear, _, rfl, m, _, hleadMonth, _, rfl, d, left, hleadDay, hdate⟩
    obtain ⟨hleft, hmade⟩ := Option.ite_none_right_eq_some.mp hdate
    simp only [Bool.and_eq_true, List.isEmpty_iff, decide_eq_true_eq] at hleft
    obtain ⟨rfl, hsign⟩ := hleft
    obtain ⟨hreal, hyearOctet, rfl, rfl⟩ := Calendar.date?_eq_some_iff.mp hmade
    obtain rfl : y = ((1900 + date.year.toNat : Nat) : Int) := by omega
    obtain ⟨year, rfl, hyear⟩ := (leadingYear?_eq_some_iff (by omega) (hhyphen _)).mp hleadYear
    obtain ⟨month, rfl, hmonth⟩ := (leadingNumber?_eq_some_iff (hhyphen _)).mp hleadMonth
    obtain ⟨day, rfl, hday⟩ := (leadingNumber?_eq_some_iff hend).mp hleadDay
    rw [List.append_nil]
    have hfields := fields_dateText (hfree hyear.numeral) (hfree hmonth.numeral)
      (hfree hday.numeral)
    exact ⟨year, month, day, hfields, hyear, hmonth, hday, hreal⟩
  · rintro ⟨year, month, day, hfields, hyear, hmonth, hday, hreal⟩
    obtain rfl := eq_dateText hfields
    refine ⟨((1900 + date.year.toNat : Nat) : Int), _,
      (leadingYear?_eq_some_iff (by omega) (hhyphen _)).mpr ⟨year, rfl, hyear⟩, _, rfl,
      _, _, (leadingNumber?_eq_some_iff (hhyphen _)).mpr ⟨month, rfl, hmonth⟩, _, rfl,
      _, [], (leadingNumber?_eq_some_iff hend).mpr ⟨day, (List.append_nil _).symm, hday⟩, ?_⟩
    have hsign : (0 : Int) ≤ ((1900 + date.year.toNat : Nat) : Int) := Int.natCast_nonneg _
    simp only [List.isEmpty_nil, Bool.true_and, hsign, decide_true, if_true, Int.toNat_natCast]
    exact Calendar.date?_eq_some_iff.mpr ⟨hreal, rfl, rfl, rfl⟩

end Literal

namespace Date

/-! ### Dates as they are shown -/

variable {date : Date}

/-- The text of the year of a date. -/
def yearText (date : Date) : String :=
  if date.year = unspecified then "*" else decimal (1900 + date.year.toNat)

theorem toList_text (date : Date) : date.text.toList =
    dateText (yearText date).toList (partText date.month).toList (partText date.day).toList := by
  simp only [Date.text, yearText, dateText, String.toList_append, List.append_assoc]
  rfl

theorem yearText_cases (date : Date) :
    date.year = unspecified ∧ (yearText date).toList = ['*'] ∨
      date.year ≠ unspecified ∧
        (yearText date).toList = Nat.toDigits 10 (1900 + date.year.toNat) := by
  rw [yearText]
  split
  · rename_i h
    exact .inl ⟨h, rfl⟩
  · rename_i h
    exact .inr ⟨h, toList_decimal _⟩

theorem isFieldChar_of_mem_yearText {c : Char} (h : c ∈ (yearText date).toList) :
    IsFieldChar c := by
  obtain ⟨-, htext⟩ | ⟨-, htext⟩ := yearText_cases date
  · exact .inl (List.mem_singleton.mp (htext ▸ h))
  · exact .inr (isDigit_of_mem_toDigits (htext ▸ h))

theorem star_mem_yearText_iff : '*' ∈ (yearText date).toList ↔ date.year = unspecified := by
  obtain ⟨h, htext⟩ | ⟨h, htext⟩ := yearText_cases date
  · exact iff_of_true (htext ▸ List.mem_singleton_self '*') h
  · refine iff_of_false (fun hstar => ?_) h
    cases isDigit_of_mem_toDigits (htext ▸ hstar)

theorem trim_text (date : Date) : trim date.text.toList = date.text.toList := by
  rw [toList_text]
  exact trim_dateText (fun _ => isFieldChar_of_mem_yearText) (fun _ => isFieldChar_of_mem_partText)
    fun _ => isFieldChar_of_mem_partText

theorem fields_text (date : Date) : fields '-' date.text.toList =
    [(yearText date).toList, (partText date.month).toList, (partText date.day).toList] := by
  rw [toList_text]
  exact fields_dateText (notMem_of_isFieldChar rfl (by decide) fun _ => isFieldChar_of_mem_yearText)
    (notMem_partText rfl (by decide) _) (notMem_partText rfl (by decide) _)

/-- A star is shown for what is unspecified. -/
theorem hasStar_text_iff : hasStar date.text.toList = true ↔
    date.year = unspecified ∨ date.month = unspecified ∨ date.day = unspecified := by
  rw [hasStar_iff, toList_text, mem_dateText (by decide), star_mem_yearText_iff,
    star_mem_partText_iff, star_mem_partText_iff]

/-- The text of a year is read as the year where there are stars. -/
theorem yearField?_yearText (date : Date) :
    yearField? (yearText date).toList = some date.year := by
  rw [yearField?_eq_some_iff]
  obtain ⟨h, htext⟩ | ⟨-, htext⟩ := yearText_cases date
  · exact .inl ⟨htext, h⟩
  · exact .inr (htext ▸ .plain (digits?_toDigits _))

theorem length_year : ∀ n < 256, (Nat.toDigits 10 (1900 + n)).length = 4 := by decide +kernel

theorem yearRow_yearText (h : date.year ≠ unspecified) :
    YearRow (trimStart (yearText date).toList) (1900 + date.year.toNat) := by
  obtain ⟨hopen, -⟩ | ⟨-, htext⟩ := yearText_cases date
  · exact absurd hopen h
  · have hspelled := digits?_toDigits (1900 + date.year.toNat)
    rw [htext, trimStart_of_numeral (.plain hspelled)]
    exact .short ⟨(length_year _ date.year.toNat_lt).le, hspelled⟩

/-- **Dates are read back.**  A date is read back from the text that shows it if it is that of a
day or leaves the year, the month or the day open, and no other date is. -/
theorem date?_text_iff : date? date.text.toList = some date ↔ date.IsDay ∨ date.IsPattern := by
  rw [date?]
  split
  · rename_i hstar
    have hopen := hasStar_text_iff.mp hstar
    have hday : ¬ date.IsDay := fun h => by
      obtain ⟨hyear, hmonth, hday⟩ := h.specified
      simp [hyear, hmonth, hday] at hopen
    rw [or_iff_right hday, starredDate?_eq_some_iff]
    constructor
    · rintro ⟨year, month, day, hfields, -, hmonth, hday, hweekday⟩
      simp only [fields_text, List.cons.injEq, and_true] at hfields
      obtain ⟨rfl, rfl, rfl⟩ := hfields
      exact ⟨hopen, field?_partText_iff.mp hmonth, field?_partText_iff.mp hday, hweekday⟩
    · rintro ⟨-, hmonth, hday, hweekday⟩
      exact ⟨_, _, _, fields_text date, yearField?_yearText date, field?_partText_iff.mpr hmonth,
        field?_partText_iff.mpr hday, hweekday⟩
  · rename_i hstar
    have hpattern : ¬ date.IsPattern := fun h => hstar (hasStar_text_iff.mpr h.open_part)
    rw [or_iff_left hpattern, plainDate?_eq_some_iff]
    constructor
    · rintro ⟨_, _, _, -, -, -, -, h⟩
      exact h
    · intro h
      obtain ⟨hmonth, hday⟩ := h.bounds
      exact ⟨_, _, _, fields_text date, yearRow_yearText h.year, numberRow_partText (by omega),
        numberRow_partText (by omega), h⟩

end Date

end Fieldbus
