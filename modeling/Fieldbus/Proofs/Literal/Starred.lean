import Fieldbus.Proofs.Literal.Shown

/-!
# What stars change

Stars in the place of fields leave the parts open.  For dates this is all that they do: the other
parts are what they are without them.  A time with stars is read by a reader of its own, which knows
no second 60 and takes the digits after the point for a number of hundredths, where the reader of
times without stars takes the first two of them.  The two agree on fractions of two digits, and on
zeros.

## Main definitions

* `DatePart`, `starred`: the parts of a date, and fields with stars in place of some.
* `Date.opened`, `Time.opened`: the date or the time with some parts left open.
* `TimeShape.Faithful`: what the fields of a time are like where the two readers of times agree.

## Main results

* `DatePart.date?_starred`, `TimeShape.starredTime?_starred_iff`: what a text with stars in place of
  fields is read as.
* `TimeShape.time?_starred_iff`: when the two readers of times agree.
* `Literal.write_starred`: what stars change.
-/

namespace Fieldbus

open Fieldbus.Text Fieldbus.Literal

/-! ### Parts left open -/

/-- The parts of a date. -/
inductive DatePart where
  | year
  | month
  | day
  deriving DecidableEq

/-- The text of a date with the given fields. -/
def DatePart.text (field : DatePart → List Char) : List Char :=
  dateText (field .year) (field .month) (field .day)

/-- The fields, with stars in place of some of them. -/
def starred {Part : Type} [DecidableEq Part] (parts : Finset Part) (field : Part → List Char)
    (part : Part) : List Char :=
  if part ∈ parts then ['*'] else field part

/-- A date with some parts left open, and with them the weekday. -/
def Date.opened (date : Date) (parts : Finset DatePart) : Date where
  year := if .year ∈ parts then unspecified else date.year
  month := if .month ∈ parts then unspecified else date.month
  day := if .day ∈ parts then unspecified else date.day
  weekday := unspecified

/-- A time with some parts left open. -/
def Time.opened (time : Time) (parts : Finset TimePart) : Time where
  hour := if .hour ∈ parts then unspecified else time.hour
  minute := if .minute ∈ parts then unspecified else time.minute
  second := if .second ∈ parts then unspecified else time.second
  hundredths := if .fraction ∈ parts then unspecified else time.hundredths

theorem Time.octet_opened (time : Time) (parts : Finset TimePart) (part : TimePart) :
    (time.opened parts).octet part = if part ∈ parts then unspecified else time.octet part := by
  cases part <;> rfl

section Starred

variable {Part : Type} [DecidableEq Part] {parts : Finset Part} {field : Part → List Char}
  {part : Part}

theorem starred_of_mem (h : part ∈ parts) : starred parts field part = ['*'] := if_pos h

theorem starred_of_notMem (h : part ∉ parts) : starred parts field part = field part := if_neg h

theorem star_mem_starred (h : part ∈ parts) : '*' ∈ starred parts field part := by
  rw [starred_of_mem h]
  exact List.mem_singleton_self '*'

theorem isFieldChar_of_mem_starred (hdigits : ∀ c ∈ field part, c.isDigit = true) :
    ∀ c ∈ starred parts field part, IsFieldChar c := by
  intro c hc
  rw [starred] at hc
  split at hc
  · exact .inl (List.mem_singleton.mp hc)
  · exact .inr (hdigits c hc)

end Starred

/-! ### Fields of digits -/

variable {row : List Char} {n : Nat}

theorem numeral_iff_of_digits (hdigits : ∀ c ∈ row, c.isDigit = true) :
    Numeral row n ↔ digits? row = some n := by
  refine ⟨fun h => ?_, .plain⟩
  cases h with
  | plain h => exact h
  | signed htext _ => cases hdigits '+' (htext ▸ List.mem_cons_self)

theorem trimStart_of_digits (hdigits : ∀ c ∈ row, c.isDigit = true) : trimStart row = row := by
  cases row with
  | nil => rfl
  | cons first more =>
    have hfirst := isBlank_of_isPlain (isPlain_of_isDigit (hdigits first List.mem_cons_self))
    exact List.dropWhile_cons_of_neg (by simp [hfirst])

/-- What a field of digits stands for, with perhaps a star in place of it. -/
theorem field?_starred_iff {Part : Type} [DecidableEq Part] {parts : Finset Part}
    {field : Part → List Char} {part : Part} {low high : Nat} {octet : UInt8}
    (hdigits : ∀ c ∈ field part, c.isDigit = true) :
    field? low high (starred parts field part) = some octet ↔
      (part ∈ parts → octet = unspecified) ∧
        (part ∉ parts → digits? (field part) = some octet.toNat ∧
          low ≤ octet.toNat ∧ octet.toNat ≤ high) := by
  by_cases hpart : part ∈ parts
  · simp [starred_of_mem hpart, hpart, field?, eq_comm]
  · have hstar : field part ≠ ['*'] := fun hrow => by
      cases hdigits '*' (hrow ▸ List.mem_singleton_self '*')
    rw [starred_of_notMem hpart, field?_eq_some_iff, numeral_iff_of_digits hdigits]
    simp [hpart, hstar]

/-! ### Dates with stars -/

namespace DatePart

variable {field : DatePart → List Char} {parts : Finset DatePart} {date : Date}

theorem mem_text {c : Char} (hc : c ≠ '-') : c ∈ text field ↔ ∃ part, c ∈ field part := by
  rw [text, mem_dateText hc]
  constructor
  · rintro (h | h | h) <;> exact ⟨_, h⟩
  · rintro ⟨part, h⟩
    cases part <;> simp [h]

theorem fields_text (h : ∀ part, ∀ c ∈ field part, IsFieldChar c) :
    fields '-' (text field) = [field .year, field .month, field .day] := by
  have hfree : ∀ part, '-' ∉ field part :=
    fun part => notMem_of_isFieldChar rfl (by decide) (h part)
  exact fields_dateText (hfree _) (hfree _) (hfree _)

theorem trim_text (h : ∀ part, ∀ c ∈ field part, IsFieldChar c) : trim (text field) = text field :=
  trim_dateText (h .year) (h .month) (h .day)

theorem spelled_of_date? (hdigits : ∀ part, ∀ c ∈ field part, c.isDigit = true)
    (h : date? (text field) = some date) :
    Numeral (field .year) (1900 + date.year.toNat) ∧
      digits? (field .month) = some date.month.toNat ∧
      digits? (field .day) = some date.day.toNat ∧ date.IsDay := by
  have hplain : ¬ hasStar (text field) = true := by
    rw [hasStar_iff, mem_text (by decide)]
    rintro ⟨part, hstar⟩
    cases hdigits part '*' hstar
  rw [date?, if_neg hplain] at h
  obtain ⟨_, _, _, hrows, hyear, hmonth, hday, hreal⟩ := plainDate?_eq_some_iff.mp h
  simp only [fields_text fun part c hc => .inr (hdigits part c hc), List.cons.injEq, and_true]
    at hrows
  obtain ⟨rfl, rfl, rfl⟩ := hrows
  rw [trimStart_of_digits (hdigits _)] at hyear hmonth hday
  exact ⟨hyear.numeral, hmonth.spelled, hday.spelled, hreal⟩

/-- A day with parts left open is read from the text with stars in place of them. -/
theorem date?_starred (hparts : parts.Nonempty)
    (hdigits : ∀ part, ∀ c ∈ field part, c.isDigit = true) (h : date? (text field) = some date) :
    date? (text (starred parts field)) = some (date.opened parts) := by
  obtain ⟨hyear, hmonth, hday, hreal⟩ := spelled_of_date? hdigits h
  obtain ⟨hmonthBounds, hdayBounds⟩ := hreal.bounds
  have hstar : hasStar (text (starred parts field)) = true := by
    obtain ⟨part, hpart⟩ := hparts
    rw [hasStar_iff, mem_text (by decide)]
    exact ⟨part, star_mem_starred hpart⟩
  rw [date?, if_pos hstar, starredDate?_eq_some_iff]
  have hchars : ∀ part, ∀ c ∈ starred parts field part, IsFieldChar c :=
    fun part => isFieldChar_of_mem_starred (hdigits part)
  refine ⟨_, _, _, fields_text hchars, ?_, ?_, ?_, rfl⟩
  · by_cases hpart : DatePart.year ∈ parts
    · simp [starred_of_mem hpart, Date.opened, hpart, yearField?]
    · have hkept : (date.opened parts).year = date.year := if_neg hpart
      rw [starred_of_notMem hpart, yearField?_eq_some_iff, hkept]
      exact .inr hyear
  · refine (field?_starred_iff (hdigits _)).mpr ⟨fun hpart => if_pos hpart, fun hpart => ?_⟩
    have hkept : (date.opened parts).month = date.month := if_neg hpart
    rw [hkept]
    exact ⟨hmonth, hmonthBounds⟩
  · refine (field?_starred_iff (hdigits _)).mpr ⟨fun hpart => if_pos hpart, fun hpart => ?_⟩
    have hkept : (date.opened parts).day = date.day := if_neg hpart
    rw [hkept]
    exact ⟨hday, hdayBounds⟩

end DatePart

/-! ### Fractions -/

theorem value_eq_zero_iff {c : Char} (hc : c.isDigit = true) :
    c.toNat - '0'.toNat = 0 ↔ c = '0' := by
  obtain ⟨hlow, -⟩ := toNat_of_isDigit hc
  have hzero : '0'.toNat = 48 := rfl
  rw [← Char.toNat_inj]
  omega

theorem le_ofDigitChars (row : List Char) (value : Nat) :
    value ≤ Nat.ofDigitChars 10 row value := by
  rw [Nat.ofDigitChars_eq_ofDigitChars_zero]
  have hpos : 0 < 10 ^ row.length := Nat.pow_pos (by decide)
  exact (Nat.le_mul_of_pos_left value hpos).trans (Nat.le_add_right _ _)

theorem ofDigitChars_eq_zero_iff (hdigits : ∀ c ∈ row, c.isDigit = true) :
    Nat.ofDigitChars 10 row 0 = 0 ↔ ∀ c ∈ row, c = '0' := by
  induction row with
  | nil => simp
  | cons c rest ih =>
    obtain ⟨hc, hrest⟩ := List.forall_mem_cons.mp hdigits
    rw [Nat.ofDigitChars_cons, Nat.mul_zero, Nat.zero_add, List.forall_mem_cons,
      ← value_eq_zero_iff hc]
    constructor
    · intro h
      have hzero := Nat.le_zero.mp ((le_ofDigitChars rest _).trans h.le)
      rw [hzero] at h
      exact ⟨hzero, (ih hrest).mp h⟩
    · rintro ⟨hzero, hzeros⟩
      rw [hzero]
      exact (ih hrest).mpr hzeros

/-- A row of digits changes the number that it continues, unless all are zeros. -/
theorem ofDigitChars_eq_self_iff {value : Nat} (hne : row ≠ [])
    (hdigits : ∀ c ∈ row, c.isDigit = true) :
    Nat.ofDigitChars 10 row value = value ↔ value = 0 ∧ ∀ c ∈ row, c = '0' := by
  constructor
  · intro h
    obtain ⟨c, rest, rfl⟩ := List.exists_cons_of_ne_nil hne
    have hle := le_ofDigitChars rest (10 * value + (c.toNat - '0'.toNat))
    rw [← Nat.ofDigitChars_cons, h] at hle
    obtain rfl : value = 0 := by omega
    exact ⟨rfl, (ofDigitChars_eq_zero_iff hdigits).mp h⟩
  · rintro ⟨rfl, hzeros⟩
    exact (ofDigitChars_eq_zero_iff hdigits).mpr hzeros

/-- The digits of a fraction spell the hundredths that it starts with if they are two, or zeros. -/
theorem ofDigitChars_eq_hundredths_iff (hne : row ≠ []) (hdigits : ∀ c ∈ row, c.isDigit = true) :
    Nat.ofDigitChars 10 row 0 = hundredths row ↔ row.length = 2 ∨ ∀ c ∈ row, c = '0' := by
  have hvalue : ∀ c ∈ row, (digit? c).getD 0 = c.toNat - '0'.toNat := fun c hc => by
    rw [digit?_of_isDigit (hdigits c hc), Option.getD_some]
  match row with
  | [] => exact absurd rfl hne
  | [tenths] =>
    obtain ⟨htenths, -⟩ := List.forall_mem_cons.mp hdigits
    have hzero := value_eq_zero_iff htenths
    simp only [hundredths, hvalue tenths List.mem_cons_self, Nat.ofDigitChars_cons,
      Nat.ofDigitChars_nil, List.length_singleton, List.forall_mem_singleton, ← hzero]
    omega
  | [tenths, second] =>
    simp [hundredths, hvalue, Nat.ofDigitChars_cons]
  | tenths :: second :: third :: rest =>
    obtain ⟨htenths, hmore⟩ := List.forall_mem_cons.mp hdigits
    obtain ⟨hsecond, hmore⟩ := List.forall_mem_cons.mp hmore
    have hcounted : hundredths (tenths :: second :: third :: rest) =
        10 * (10 * 0 + (tenths.toNat - '0'.toNat)) + (second.toNat - '0'.toNat) := by
      simp [hundredths, hvalue]
    have hlong : (tenths :: second :: third :: rest).length ≠ 2 := by simp
    rw [hcounted, Nat.ofDigitChars_cons, Nat.ofDigitChars_cons, or_iff_right hlong,
      ofDigitChars_eq_self_iff (List.cons_ne_nil _ _) hmore]
    simp only [List.forall_mem_cons, ← value_eq_zero_iff htenths, ← value_eq_zero_iff hsecond,
      ← and_assoc]
    refine and_congr_left' (and_congr_left' ?_)
    omega

/-! ### Times with stars -/

namespace TimeShape

variable {shape : TimeShape} {field : TimePart → List Char} {parts : Finset TimePart}
  {time other : Time} {part : TimePart} {octet : UInt8}

/-- The octet of a part that no star stands for, where there are stars: that of the number that the
field spells, or zero if the part is not written. -/
def Reads (shape : TimeShape) (field : TimePart → List Char) (part : TimePart)
    (octet : UInt8) : Prop :=
  if part ∈ shape.parts then digits? (field part) = some octet.toNat ∧ octet.toNat ≤ part.most
  else octet = 0

theorem Reads.eq {octet' : UInt8} (h : shape.Reads field part octet)
    (h' : shape.Reads field part octet') : octet = octet' := by
  rw [Reads] at h h'
  split at h
  · rw [if_pos ‹_›] at h'
    exact UInt8.toNat_inj.mp (Option.some.inj (h.1.symm.trans h'.1))
  · rw [if_neg ‹_›] at h'
    exact h.trans h'.symm

/-- What a text with stars in place of fields is read as. -/
theorem starredTime?_starred_iff (hparts : parts ⊆ shape.parts)
    (hdigits : ∀ part ∈ shape.parts, ∀ c ∈ field part, c.isDigit = true) :
    starredTime? (shape.text (starred parts field)) = some other ↔
      ∀ part, if part ∈ parts then other.octet part = unspecified
        else shape.Reads field part (other.octet part) := by
  have hsep : shape.Separated (starred parts field) :=
    separated_of_isFieldChar fun part hpart => isFieldChar_of_mem_starred (hdigits part hpart)
  rw [starredTime?_text_iff hsep, ← forall_and]
  refine forall_congr' fun part => ?_
  by_cases hwritten : part ∈ shape.parts
  · simp only [hwritten, true_imp_iff, not_true, false_imp_iff, and_true, Reads, if_true,
      field?_starred_iff (hdigits part hwritten), Nat.zero_le, true_and]
    split <;> simp [*]
  · have hkept : part ∉ parts := fun hpart => hwritten (hparts hpart)
    simp [hwritten, hkept, Reads]

/-- The second that is inserted at the end of a minute. -/
def IsLeap (shape : TimeShape) (field : TimePart → List Char) : Prop :=
  .second ∈ shape.parts ∧ digits? (field .second) = some 60

/-- A field of digits spells its number, unless it is a fraction. -/
theorem digits?_of_row (hdigits : ∀ c ∈ field part, c.isDigit = true) (hne : part ≠ .fraction)
    {n : Nat} (h : part.Row (field part) n) : digits? (field part) = some n := by
  cases part with
  | fraction => exact absurd rfl hne
  | _ => exact trimStart_of_digits hdigits ▸ NumberRow.spelled h

/-- The number of a part is read where there are stars too, unless the part is a fraction. -/
theorem reads_of_row {number : TimePart → Nat}
    (hdigits : ∀ part ∈ shape.parts, ∀ c ∈ field part, c.isDigit = true)
    (hrows : ∀ part ∈ shape.parts, part.Row (field part) (number part))
    (hzero : ∀ part, part ∉ shape.parts → number part = 0) (hne : part ≠ .fraction)
    (hoctet : octet.toNat = number part) (hmost : number part ≤ part.most) :
    shape.Reads field part octet := by
  rw [Reads]
  split
  · rename_i hpart
    exact ⟨hoctet ▸ digits?_of_row (hdigits part hpart) hne (hrows part hpart),
      hoctet.trans_le hmost⟩
  · rename_i hpart
    exact UInt8.toNat_inj.mp (hoctet.trans (hzero part hpart))

/-- What the digits of the fields say about a time without stars.  There are two cases, because the
inserted second is kept as the last hundredth of the one before. -/
theorem plainTime?_cases (hdigits : ∀ part ∈ shape.parts, ∀ c ∈ field part, c.isDigit = true)
    (h : plainTime? (shape.text field) = some time) :
    (shape.Reads field .hour time.hour ∧ shape.Reads field .minute time.minute) ∧
      (¬ shape.IsLeap field ∧ shape.Reads field .second time.second ∧
          (.fraction ∈ shape.parts → field .fraction ≠ [] ∧
            time.hundredths.toNat = hundredths (field .fraction)) ∧
          (.fraction ∉ shape.parts → time.hundredths = 0) ∨
        shape.IsLeap field ∧ time.second = 59 ∧ time.hundredths = 99) := by
  have hsep : shape.Separated field :=
    separated_of_isFieldChar fun part hpart c hc => .inr (hdigits part hpart c hc)
  obtain ⟨number, hrows, hzero, hmade⟩ := (plainTime?_text_iff hsep).mp h
  obtain ⟨⟨hhour, hhour'⟩, ⟨hminute, hminute'⟩, hrest⟩ :=
    (timeOf?_eq_some_iff (fraction_le hrows hzero)).mp hmade
  have hspelled : .second ∈ shape.parts → digits? (field .second) = some (number .second) :=
    fun hpart => digits?_of_row (hdigits _ hpart) (by decide) (hrows _ hpart)
  refine ⟨⟨reads_of_row hdigits hrows hzero (by decide) hhour hhour',
    reads_of_row hdigits hrows hzero (by decide) hminute hminute'⟩, ?_⟩
  obtain ⟨hbound, hsecond, hkept⟩ | ⟨hleap, hsecond, hlast⟩ := hrest
  · refine .inl ⟨?_, reads_of_row hdigits hrows hzero (by decide) hsecond hbound,
      fun hpart => ?_, fun hpart => ?_⟩
    · rintro ⟨hpart, hsixty⟩
      have hnumber := hspelled hpart
      rw [hsixty, Option.some.injEq] at hnumber
      omega
    · have hrow : FractionRow (field .fraction) (number .fraction) := hrows _ hpart
      exact ⟨hrow.nonempty, hkept.trans hrow.counted⟩
    · exact UInt8.toNat_inj.mp (hkept.trans (hzero _ hpart))
  · have hpart : TimePart.second ∈ shape.parts := by
      by_contra hpart
      have hnone := hzero _ hpart
      omega
    exact .inr ⟨⟨hpart, hleap ▸ hspelled hpart⟩, hsecond, hlast⟩

/-- When a text with stars in place of fields is read as the time with the parts left open.  The
inserted second has to be behind a star, and its hundredths as well, unless they are written as they
are kept.  The digits behind the point of any other second are behind a star, two, or zeros. -/
structure Faithful (shape : TimeShape) (parts : Finset TimePart) (field : TimePart → List Char) :
    Prop where
  second : shape.IsLeap field → .second ∈ parts
  last : shape.IsLeap field → .fraction ∈ parts ∨
    .fraction ∈ shape.parts ∧ digits? (field .fraction) = some 99
  fraction : ¬ shape.IsLeap field → .fraction ∈ shape.parts →
    .fraction ∈ parts ∨ (field .fraction).length = 2 ∨ ∀ c ∈ field .fraction, c = '0'

/-- The hundredths that are kept are read where there are stars if they are written with two digits,
or zeros. -/
theorem reads_fraction_iff (hdigits : ∀ part ∈ shape.parts, ∀ c ∈ field part, c.isDigit = true)
    (hkept : .fraction ∈ shape.parts →
      field .fraction ≠ [] ∧ octet.toNat = hundredths (field .fraction))
    (hzero : .fraction ∉ shape.parts → octet = 0) :
    shape.Reads field .fraction octet ↔ (.fraction ∈ shape.parts →
      (field .fraction).length = 2 ∨ ∀ c ∈ field .fraction, c = '0') := by
  rw [Reads]
  split
  · rename_i hpart
    obtain ⟨hne, hcounted⟩ := hkept hpart
    have hbound : octet.toNat ≤ TimePart.fraction.most := hcounted.trans_le (hundredths_le _)
    rw [and_iff_left hbound, digits?_eq_some_iff, and_iff_right hne,
      and_iff_right (hdigits _ hpart), hcounted,
      ofDigitChars_eq_hundredths_iff hne (hdigits _ hpart)]
    exact (imp_iff_right hpart).symm
  · rename_i hpart
    simp [hpart, hzero hpart]

/-- The last hundredth is read where there are stars if it is written. -/
theorem reads_last_iff : shape.Reads field .fraction 99 ↔
    .fraction ∈ shape.parts ∧ digits? (field .fraction) = some 99 := by
  rw [Reads]
  split
  · rename_i hpart
    simp [hpart, TimePart.most]
  · rename_i hpart
    simp [hpart]

/-- The inserted second is not read where there are stars. -/
theorem not_reads_of_isLeap (h : shape.IsLeap field) : ¬ shape.Reads field .second octet := by
  rw [Reads, if_pos h.1, h.2, Option.some.injEq]
  rintro ⟨hsixty, hbound⟩
  have hbound : octet.toNat ≤ 59 := hbound
  omega

/-- The octets that are read where there are stars are those of the time without stars if the
readers agree. -/
theorem forall_reads_iff (hdigits : ∀ part ∈ shape.parts, ∀ c ∈ field part, c.isDigit = true)
    (h : plainTime? (shape.text field) = some time) :
    (∀ part ∉ parts, shape.Reads field part (time.octet part)) ↔ shape.Faithful parts field := by
  obtain ⟨⟨hhour, hminute⟩, hrest⟩ := plainTime?_cases hdigits h
  have hsplit : (∀ part ∉ parts, shape.Reads field part (time.octet part)) ↔
      (.second ∈ parts ∨ shape.Reads field .second time.second) ∧
        (.fraction ∈ parts ∨ shape.Reads field .fraction time.hundredths) := by
    simp [TimePart.forall_iff, Time.octet, hhour, hminute, or_iff_not_imp_left]
  rw [hsplit]
  obtain ⟨hleap, hsecond, hkept, hzero⟩ | ⟨hleap, -, hlast⟩ := hrest
  · rw [reads_fraction_iff hdigits hkept hzero]
    constructor
    · rintro ⟨-, h⟩
      exact ⟨fun h => absurd h hleap, fun h => absurd h hleap, fun _ hpart => h.imp_right (· hpart)⟩
    · rintro ⟨-, -, h⟩
      exact ⟨.inr hsecond, or_iff_not_imp_left.mpr fun hpart hwritten =>
        (h hleap hwritten).resolve_left hpart⟩
  · rw [or_iff_left (not_reads_of_isLeap hleap), hlast, reads_last_iff]
    constructor
    · rintro ⟨hopen, hwritten⟩
      exact ⟨fun _ => hopen, fun _ => hwritten, fun h => absurd hleap h⟩
    · intro h
      exact ⟨h.second hleap, h.last hleap⟩

/-- A text with stars in place of fields is read by the reader of its own. -/
theorem time?_starred (hopen : parts.Nonempty) (hparts : parts ⊆ shape.parts) :
    time? (shape.text (starred parts field)) = starredTime? (shape.text (starred parts field)) := by
  obtain ⟨part, hpart⟩ := hopen
  have htext : hasStar (shape.text (starred parts field)) = true := by
    rw [hasStar_iff, mem_text (by decide) (by decide)]
    exact ⟨part, hparts hpart, star_mem_starred hpart⟩
  rw [time?, if_pos htext]

theorem time?_of_digits (hdigits : ∀ part ∈ shape.parts, ∀ c ∈ field part, c.isDigit = true) :
    time? (shape.text field) = plainTime? (shape.text field) := by
  have htext : ¬ hasStar (shape.text field) = true := by
    rw [hasStar_iff, mem_text (by decide) (by decide)]
    rintro ⟨part, hpart, hstar⟩
    cases hdigits part hpart '*' hstar
  rw [time?, if_neg htext]

/-- A time with parts left open is read from the text with stars in place of them if the readers
agree. -/
theorem time?_starred_iff (hopen : parts.Nonempty) (hparts : parts ⊆ shape.parts)
    (hdigits : ∀ part ∈ shape.parts, ∀ c ∈ field part, c.isDigit = true)
    (h : time? (shape.text field) = some time) :
    time? (shape.text (starred parts field)) = some (time.opened parts) ↔
      shape.Faithful parts field := by
  rw [time?_of_digits hdigits] at h
  rw [time?_starred hopen hparts, starredTime?_starred_iff hparts hdigits,
    ← forall_reads_iff hdigits h]
  refine forall_congr' fun part => ?_
  rw [Time.octet_opened]
  split <;> simp [*]

/-- Whatever a text with stars in place of fields is read as, hour, minute and second are those of
the time with the parts left open. -/
theorem octet_of_time?_starred (hopen : parts.Nonempty) (hparts : parts ⊆ shape.parts)
    (hdigits : ∀ part ∈ shape.parts, ∀ c ∈ field part, c.isDigit = true)
    (h : time? (shape.text field) = some time)
    (hother : time? (shape.text (starred parts field)) = some other) (hne : part ≠ .fraction) :
    other.octet part = (time.opened parts).octet part := by
  rw [time?_of_digits hdigits] at h
  rw [time?_starred hopen hparts, starredTime?_starred_iff hparts hdigits] at hother
  have hread := hother part
  rw [Time.octet_opened]
  by_cases hpart : part ∈ parts
  · rw [if_pos hpart] at hread ⊢
    exact hread
  · rw [if_neg hpart] at hread ⊢
    obtain ⟨⟨hhour, hminute⟩, hrest⟩ := plainTime?_cases hdigits h
    cases part with
    | hour => exact hread.eq hhour
    | minute => exact hread.eq hminute
    | second =>
      obtain ⟨-, hsecond, -⟩ | ⟨hleap, -⟩ := hrest
      · exact hread.eq hsecond
      · exact absurd hread (not_reads_of_isLeap hleap)
    | fraction => exact absurd rfl hne

end TimeShape

namespace Literal

/-- **What stars change.**  Stars in place of some fields of a date leave the parts and the weekday
open, and nothing else changes.  Stars in place of some fields of a time do the same exactly if the
two readers agree on the fields that stay: digits after the point are two or zeros, and the second
is not the inserted one.  Otherwise the text with the stars is refused, or is read as a time that is
another in nothing but its hundredths. -/
theorem write_starred (index : Option UInt32) :
    (∀ (field : DatePart → List Char) (parts : Finset DatePart) (date : Date), parts.Nonempty →
      (∀ part, ∀ c ∈ field part, c.isDigit = true) →
      write (String.ofList (DatePart.text field)) .date index = .ok (.date date) →
      write (String.ofList (DatePart.text (starred parts field))) .date index =
        .ok (.date (date.opened parts))) ∧
    ∀ (shape : TimeShape) (field : TimePart → List Char) (parts : Finset TimePart) (time : Time),
      parts.Nonempty → parts ⊆ shape.parts →
      (∀ part ∈ shape.parts, ∀ c ∈ field part, c.isDigit = true) →
      write (String.ofList (shape.text field)) .time index = .ok (.time time) →
      (write (String.ofList (shape.text (starred parts field))) .time index =
          .ok (.time (time.opened parts)) ↔ shape.Faithful parts field) ∧
        ∀ other, write (String.ofList (shape.text (starred parts field))) .time index =
            .ok (.time other) →
          ∀ part ≠ .fraction, other.octet part = (time.opened parts).octet part := by
  constructor
  · intro field parts date hopen hdigits h
    have hplain : trim (DatePart.text field) = DatePart.text field :=
      DatePart.trim_text fun part c hc => .inr (hdigits part c hc)
    have hstarred : trim (DatePart.text (starred parts field)) =
        DatePart.text (starred parts field) :=
      DatePart.trim_text fun part => isFieldChar_of_mem_starred (hdigits part)
    rw [write_date_iff, String.toList_ofList, hplain] at h
    rw [write_date_iff, String.toList_ofList, hstarred]
    exact DatePart.date?_starred hopen hdigits h
  · intro shape field parts time hopen hparts hdigits h
    have hplain : trim (shape.text field) = shape.text field :=
      TimeShape.trim_text fun part hpart c hc => .inr (hdigits part hpart c hc)
    have hstarred : trim (shape.text (starred parts field)) = shape.text (starred parts field) :=
      TimeShape.trim_text fun part hpart => isFieldChar_of_mem_starred (hdigits part hpart)
    rw [write_time_iff, String.toList_ofList, hplain] at h
    simp only [write_time_iff, String.toList_ofList, hstarred]
    exact ⟨TimeShape.time?_starred_iff hopen hparts hdigits h, fun other hother part hne =>
      TimeShape.octet_of_time?_starred hopen hparts hdigits h hother hne⟩

/-- The last day of February in any year, and half a second after a quarter of any hour. -/
theorem write_starred_quarter :
    let day : DatePart → List Char
      | .year => "2024".toList
      | .month => "02".toList
      | .day => "29".toList
    let clock : TimePart → List Char
      | .hour => "08".toList
      | .minute => "15".toList
      | .second => "00".toList
      | .fraction => "50".toList
    write (String.ofList (DatePart.text day)) .date none = .ok (.date ⟨124, 2, 29, 4⟩) ∧
      write (String.ofList (DatePart.text (starred {.year} day))) .date none =
        .ok (.date ⟨255, 2, 29, 255⟩) ∧
      write (String.ofList (TimeShape.fractions.text clock)) .time none =
        .ok (.time ⟨8, 15, 0, 50⟩) ∧
      TimeShape.fractions.Faithful {.hour} clock ∧
      write (String.ofList (TimeShape.fractions.text (starred {.hour} clock))) .time none =
        .ok (.time ⟨255, 15, 0, 50⟩) := by
  intro day clock
  have hday : ∀ part, ∀ c ∈ day part, c.isDigit = true := fun part =>
    List.all_eq_true.mp (by cases part <;> decide)
  have hclock : ∀ part ∈ TimeShape.fractions.parts, ∀ c ∈ clock part, c.isDigit = true :=
    fun part _ => List.all_eq_true.mp (by cases part <;> decide)
  have hwriteDay : write (String.ofList (DatePart.text day)) .date none =
      .ok (.date ⟨124, 2, 29, 4⟩) := by decide +kernel
  have hwriteClock : write (String.ofList (TimeShape.fractions.text clock)) .time none =
      .ok (.time ⟨8, 15, 0, 50⟩) := by decide +kernel
  have hfaithful : TimeShape.fractions.Faithful {.hour} clock := by
    have hleap : ¬ TimeShape.fractions.IsLeap clock := fun h => absurd h.2 (by decide)
    exact ⟨fun h => absurd h hleap, fun h => absurd h hleap, fun _ _ => .inr (.inl rfl)⟩
  have hdayOpened : Date.opened ⟨124, 2, 29, 4⟩ {.year} = ⟨255, 2, 29, 255⟩ := by decide
  have hclockOpened : Time.opened ⟨8, 15, 0, 50⟩ {.hour} = ⟨255, 15, 0, 50⟩ := by decide
  obtain ⟨hdate, htime⟩ := write_starred none
  have hstarredDay := hdate day {.year} _ (by decide) hday hwriteDay
  obtain ⟨hstarredClock, -⟩ := htime .fractions clock {.hour} _ (by decide) (by decide) hclock
    hwriteClock
  rw [hdayOpened] at hstarredDay
  rw [hclockOpened] at hstarredClock
  exact ⟨hwriteDay, hstarredDay, hwriteClock, hfaithful, hstarredClock.mpr hfaithful⟩

/-- Half a second is five hundredths beside a star. -/
theorem half_second_starred :
    write "08:30:15.5" .time none = .ok (.time ⟨8, 30, 15, 50⟩) ∧
    write "*:30:15.5" .time none = .ok (.time ⟨255, 30, 15, 5⟩) ∧
    ¬ ∀ (shape : TimeShape) (field : TimePart → List Char) (parts : Finset TimePart) (time : Time),
      parts.Nonempty → parts ⊆ shape.parts →
      (∀ part ∈ shape.parts, ∀ c ∈ field part, c.isDigit = true) →
      write (String.ofList (shape.text field)) .time none = .ok (.time time) →
      write (String.ofList (shape.text (starred parts field))) .time none =
        .ok (.time (time.opened parts)) := by
  refine ⟨by decide +kernel, by decide +kernel, fun hclaim => ?_⟩
  let clock : TimePart → List Char
    | .hour => "08".toList
    | .minute => "30".toList
    | .second => "15".toList
    | .fraction => "5".toList
  have hclock : ∀ part ∈ TimeShape.fractions.parts, ∀ c ∈ clock part, c.isDigit = true :=
    fun part _ => List.all_eq_true.mp (by cases part <;> decide)
  have hwrite : write (String.ofList (TimeShape.fractions.text clock)) .time none =
      .ok (.time ⟨8, 30, 15, 50⟩) := by decide +kernel
  have hopened := hclaim .fractions clock {.hour} _ (by decide) (by decide) hclock hwrite
  have hread : write (String.ofList (TimeShape.fractions.text (starred {.hour} clock))) .time none =
      .ok (.time ⟨255, 30, 15, 5⟩) := by decide +kernel
  exact absurd (hread.symm.trans hopened) (by decide +kernel)

end Literal

end Fieldbus
