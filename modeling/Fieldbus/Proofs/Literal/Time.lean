import Fieldbus.Literal.Time
import Fieldbus.Proofs.Literal.Field
import Fieldbus.Proofs.Text.Split
import Mathlib.Data.Finset.Insert

/-!
# The grammar of times

A time of day is written with two, three or four parts.  With stars or without, each part is read
from its own field, but not in the same way: without stars a fraction counts by its first two digits
and the second may be 60, with stars a fraction is a number of hundredths.

## Main definitions

* `TimePart`, `TimeShape`: the parts of a time, and which of them are written.
* `TimeShape.text`: the text with given fields.
* `Time.InRange`: the times with parts within their bounds.

## Main results

* `TimeShape.plainTime?_text_iff`, `TimeShape.starredTime?_text_iff`: which texts are accepted and
  as what.
* `Time.time?_text_iff`: which times are read back from the texts that show them.
-/

namespace Fieldbus

open Fieldbus.Text Fieldbus.Literal

namespace Literal

/-! ### Hundredths -/

theorem digit?_getD_le (c : Char) : (digit? c).getD 0 ≤ 9 := by
  cases h : digit? c with
  | none => exact Nat.zero_le 9
  | some d =>
    have hdigit := isDigit_of_digit? h
    obtain ⟨-, hlast⟩ := toNat_of_isDigit hdigit
    rw [digit?_of_isDigit hdigit, Option.some.injEq] at h
    have hzero : '0'.toNat = 48 := rfl
    rw [Option.getD_some]
    omega

theorem hundredths_le (row : List Char) : hundredths row ≤ 99 := by
  have hdigit := digit?_getD_le
  match row with
  | [] => exact Nat.zero_le 99
  | [tenths] =>
    have hfirst := hdigit tenths
    rw [hundredths]
    omega
  | tenths :: second :: _ =>
    have hfirst := hdigit tenths
    have hsecond := hdigit second
    rw [hundredths]
    omega

theorem hundredths_twoDigits : ∀ n < 100, hundredths (twoDigits n).toList = n := by
  decide +kernel

end Literal

/-! ### Parts -/

/-- The parts of a time of day. -/
inductive TimePart where
  | hour
  | minute
  | second
  | fraction
  deriving DecidableEq

theorem TimePart.forall_iff {P : TimePart → Prop} :
    (∀ part, P part) ↔ P .hour ∧ P .minute ∧ P .second ∧ P .fraction :=
  ⟨fun h => ⟨h _, h _, h _, h _⟩, fun h part => by cases part <;> simp [h]⟩

theorem TimePart.exists_iff {P : (TimePart → Nat) → Prop} : (∃ number, P number) ↔
    ∃ h m s f, P fun | .hour => h | .minute => m | .second => s | .fraction => f := by
  constructor
  · rintro ⟨number, h⟩
    refine ⟨number .hour, number .minute, number .second, number .fraction, ?_⟩
    convert h using 1
    funext part
    cases part <;> rfl
  · rintro ⟨h, m, s, f, hP⟩
    exact ⟨_, hP⟩

/-- The greatest number that a part is read as. -/
def TimePart.most : TimePart → Nat
  | .hour => 23
  | .minute | .second => 59
  | .fraction => 99

/-- The octet of a part. -/
def Time.octet (time : Time) : TimePart → UInt8
  | .hour => time.hour
  | .minute => time.minute
  | .second => time.second
  | .fraction => time.hundredths

/-- A time each part of which is unspecified or within its bounds. -/
def Time.InRange (time : Time) : Prop :=
  ∀ part, time.octet part = unspecified ∨ (time.octet part).toNat ≤ part.most

/-- A row of digits after the point says the hundredths that it starts with. -/
structure FractionRow (row : List Char) (n : Nat) : Prop where
  nonempty : row ≠ []
  digits : ∀ c ∈ row, c.isDigit = true
  counted : n = hundredths row

/-- The rows that are read as the number of a part where there are no stars. -/
def TimePart.Row (part : TimePart) (row : List Char) (n : Nat) : Prop :=
  match part with
  | .fraction => FractionRow row n
  | _ => NumberRow 2 (trimStart row) n

/-- With how many parts a time is written. -/
inductive TimeShape where
  | minutes
  | seconds
  | fractions

namespace TimeShape

/-- The parts that are written. -/
def parts : TimeShape → Finset TimePart
  | .minutes => {.hour, .minute}
  | .seconds => {.hour, .minute, .second}
  | .fractions => {.hour, .minute, .second, .fraction}

theorem hour_mem_parts (shape : TimeShape) : .hour ∈ shape.parts := by cases shape <;> decide

theorem minute_mem_parts (shape : TimeShape) : .minute ∈ shape.parts := by cases shape <;> decide

theorem mem_parts_fractions (part : TimePart) : part ∈ parts .fractions := by
  cases part <;> decide

/-- The text of a time with the given fields. -/
def text (shape : TimeShape) (field : TimePart → List Char) : List Char :=
  match shape with
  | .minutes => field .hour ++ ':' :: field .minute
  | .seconds => field .hour ++ ':' :: (field .minute ++ ':' :: field .second)
  | .fractions =>
    field .hour ++ ':' :: (field .minute ++ ':' :: (field .second ++ '.' :: field .fraction))

variable {shape : TimeShape} {field : TimePart → List Char} {time : Time}

theorem mem_text {c : Char} (hcolon : c ≠ ':') (hpoint : c ≠ '.') :
    c ∈ shape.text field ↔ ∃ part ∈ shape.parts, c ∈ field part := by
  cases shape <;> simp [text, parts, hcolon, hpoint]

/-- The separators are in none of the fields. -/
def Separated (shape : TimeShape) (field : TimePart → List Char) : Prop :=
  ∀ part ∈ shape.parts, ':' ∉ field part ∧ '.' ∉ field part

theorem separated_of_isFieldChar (h : ∀ part ∈ shape.parts, ∀ c ∈ field part, IsFieldChar c) :
    shape.Separated field :=
  fun part hpart => ⟨notMem_of_isFieldChar rfl (by decide) (h part hpart),
    notMem_of_isFieldChar rfl (by decide) (h part hpart)⟩

theorem trim_text (h : ∀ part ∈ shape.parts, ∀ c ∈ field part, IsFieldChar c) :
    trim (shape.text field) = shape.text field := by
  refine trim_eq_self_of_all fun c hc => ?_
  by_cases hcolon : c = ':'
  · rw [hcolon]
    rfl
  · by_cases hpoint : c = '.'
    · rw [hpoint]
      rfl
    · obtain ⟨part, hpart, hfield⟩ := (mem_text hcolon hpoint).mp hc
      exact isBlank_of_isFieldChar (h part hpart c hfield)

theorem fields_minutes (h : Separated .minutes field) :
    fields ':' (text .minutes field) = [field .hour, field .minute] := by
  rw [text, fields_append (h .hour (by decide)).1, fields_of_notMem (h .minute (by decide)).1]

theorem fields_seconds (h : Separated .seconds field) :
    fields ':' (text .seconds field) = [field .hour, field .minute, field .second] := by
  rw [text, fields_append (h .hour (by decide)).1, fields_append (h .minute (by decide)).1,
    fields_of_notMem (h .second (by decide)).1]

/-- Before the fraction a time is written as one without. -/
theorem Separated.seconds (h : Separated .fractions field) : Separated .seconds field :=
  fun part hpart => h part (Finset.mem_of_subset (by decide) hpart)

theorem point_notMem_seconds (h : Separated .seconds field) : '.' ∉ text .seconds field := by
  simp [text, h .hour (by decide), h .minute (by decide), h .second (by decide)]

theorem splitFirst?_fractions (h : Separated .fractions field) :
    splitFirst? '.' (text .fractions field) = some (text .seconds field, field .fraction) := by
  rw [← splitFirst?_append (point_notMem_seconds h.seconds)]
  simp [text]

theorem fraction_le {number : TimePart → Nat}
    (hrows : ∀ part ∈ shape.parts, part.Row (field part) (number part))
    (hzero : ∀ part, part ∉ shape.parts → number part = 0) : number .fraction ≤ 99 := by
  by_cases hpart : TimePart.fraction ∈ shape.parts
  · have hrow : FractionRow (field .fraction) (number .fraction) := hrows .fraction hpart
    exact hrow.counted.trans_le (hundredths_le _)
  · exact (hzero _ hpart).trans_le (Nat.zero_le 99)

/-! ### Times with stars -/

/-- A text with stars is a time if each field that is written is a part of one. -/
theorem starredTime?_text_iff (h : shape.Separated field) :
    starredTime? (shape.text field) = some time ↔
      (∀ part ∈ shape.parts, field? 0 part.most (field part) = some (time.octet part)) ∧
        ∀ part, part ∉ shape.parts → time.octet part = 0 := by
  obtain ⟨hour, minute, second, hundredths⟩ := time
  cases shape with
  | minutes =>
    have hsplit : splitFirst? '.' (text .minutes field) = none :=
      splitFirst?_of_notMem (by simp [text, h .hour (by decide), h .minute (by decide)])
    simp only [starredTime?, hsplit, Option.bind_eq_bind, Option.bind_some, fields_minutes h,
      Option.bind_eq_some_iff]
    simp [TimePart.forall_iff, parts, Time.octet, TimePart.most, and_assoc,
      @eq_comm _ (0 : UInt8)]
  | seconds =>
    have hsplit : splitFirst? '.' (text .seconds field) = none :=
      splitFirst?_of_notMem (point_notMem_seconds h)
    simp only [starredTime?, hsplit, Option.bind_eq_bind, Option.bind_some, fields_seconds h,
      Option.bind_eq_some_iff]
    simp [TimePart.forall_iff, parts, Time.octet, TimePart.most, and_assoc,
      @eq_comm _ (0 : UInt8)]
  | fractions =>
    simp only [starredTime?, splitFirst?_fractions h, Option.bind_eq_bind, Option.bind_eq_some_iff,
      Option.map_eq_some_iff]
    -- the fraction is read first
    simp [TimePart.forall_iff, parts, Time.octet, TimePart.most, fields_seconds h.seconds,
      Option.bind_eq_some_iff]
    tauto

/-! ### Times without stars -/

theorem fraction?_nil_iff {n : Nat} : fraction? [] = some n ↔ n = 0 := by
  simp [fraction?, eq_comm]

theorem fraction?_point_iff {row : List Char} {n : Nat} :
    fraction? ('.' :: row) = some n ↔ FractionRow row n := by
  have hcond : ('.' = '.' && !row.isEmpty && row.all isDigit) = true ↔
      row ≠ [] ∧ ∀ c ∈ row, c.isDigit = true := by
    simp [isDigit_eq]
  rw [fraction?]
  constructor
  · intro h
    obtain ⟨hrow, hcounted⟩ := Option.ite_none_right_eq_some.mp h
    obtain ⟨hne, hdigits⟩ := hcond.mp hrow
    exact ⟨hne, hdigits, (Option.some.inj hcounted).symm⟩
  · rintro ⟨hne, hdigits, rfl⟩
    exact if_pos (hcond.mpr ⟨hne, hdigits⟩)

theorem exists_point_of_fraction? {left : List Char} {n : Nat} (h : fraction? left = some n) :
    left = [] ∨ ∃ row, left = '.' :: row := by
  cases left with
  | nil => exact .inl rfl
  | cons point row =>
    have hpoint := (Option.ite_none_right_eq_some.mp h).1
    simp only [Bool.and_eq_true, decide_eq_true_eq] at hpoint
    exact .inr ⟨row, by rw [hpoint.1.1]⟩

/-- What is written behind the second. -/
def tail (shape : TimeShape) (field : TimePart → List Char) : List Char :=
  match shape with
  | .fractions => '.' :: field .fraction
  | _ => []

theorem text_of_second (hsecond : .second ∈ shape.parts) : shape.text field =
    field .hour ++ ':' :: (field .minute ++ ':' :: (field .second ++ shape.tail field)) := by
  cases shape
  · exact absurd hsecond (by decide)
  · simp [text, tail]
  · simp [text, tail]

theorem tail_cases (shape : TimeShape) (field : TimePart → List Char) :
    shape.tail field = [] ∨ ∃ row, shape.tail field = '.' :: row := by
  cases shape
  · exact .inl rfl
  · exact .inl rfl
  · exact .inr ⟨_, rfl⟩

/-- The number that starts the text of the second and what is behind it is that of the second. -/
theorem leadingNumber?_second_iff {second : List Char} (hpoint : '.' ∉ second) {s : Nat}
    {left : List Char} (hleft : left = [] ∨ ∃ row, left = '.' :: row) :
    leadingNumber? 2 (second ++ shape.tail field) = some (s, left) ↔
      NumberRow 2 (trimStart second) s ∧ left = shape.tail field := by
  have hhead : ∀ c ∈ left.head?, c.isDigit = false := by
    rcases hleft with rfl | ⟨row, rfl⟩
    · exact nofun
    · exact isDigit_of_mem_head? rfl row
  rw [leadingNumber?_eq_some_iff hhead]
  constructor
  · rintro ⟨other, htext, h⟩
    have hother : '.' ∉ other := notMem_of_numeral h.numeral rfl rfl (by decide)
    obtain ⟨rfl, htail⟩ := append_inj_of_notMem hpoint hother (tail_cases ..) hleft htext
    exact ⟨h, htail.symm⟩
  · rintro ⟨h, rfl⟩
    exact ⟨second, rfl, h⟩

/-- A text with a second is a time if the fields are numbers that make one. -/
theorem timeWithSecond?_text_iff (h : shape.Separated field) (hsecond : .second ∈ shape.parts) :
    timeWithSecond? (shape.text field) = some time ↔
      ∃ hour minute second hundredths, NumberRow 2 (trimStart (field .hour)) hour ∧
        NumberRow 2 (trimStart (field .minute)) minute ∧
        NumberRow 2 (trimStart (field .second)) second ∧
        fraction? (shape.tail field) = some hundredths ∧
        timeOf? hour minute second hundredths = some time := by
  obtain ⟨hcolon, -⟩ := h .hour shape.hour_mem_parts
  obtain ⟨hcolon', -⟩ := h .minute shape.minute_mem_parts
  obtain ⟨-, hpoint⟩ := h .second hsecond
  simp only [text_of_second hsecond, timeWithSecond?, Option.bind_eq_bind, Option.bind_eq_some_iff,
    after?_eq_some_iff, Prod.exists]
  constructor
  · rintro ⟨hour, _, hleadHour, _, rfl, minute, _, hleadMinute, _, rfl, second, left, hleadSecond,
      hundredths, hfraction, htime⟩
    obtain ⟨hhour, rfl⟩ := (leadingNumber?_append_iff rfl rfl (by decide) hcolon).mp hleadHour
    obtain ⟨hminute, rfl⟩ := (leadingNumber?_append_iff rfl rfl (by decide) hcolon').mp hleadMinute
    obtain ⟨hsec, rfl⟩ :=
      (leadingNumber?_second_iff hpoint (exists_point_of_fraction? hfraction)).mp hleadSecond
    exact ⟨hour, minute, second, hundredths, hhour, hminute, hsec, hfraction, htime⟩
  · rintro ⟨hour, minute, second, hundredths, hhour, hminute, hsec, hfraction, htime⟩
    exact ⟨hour, _, (leadingNumber?_append_iff rfl rfl (by decide) hcolon).mpr ⟨hhour, rfl⟩, _, rfl,
      minute, _, (leadingNumber?_append_iff rfl rfl (by decide) hcolon').mpr ⟨hminute, rfl⟩, _, rfl,
      second, _, (leadingNumber?_second_iff hpoint (tail_cases ..)).mpr ⟨hsec, rfl⟩, hundredths,
      hfraction, htime⟩

theorem timeWithSecond?_minutes (h : Separated .minutes field) :
    timeWithSecond? (text .minutes field) = none := by
  refine Option.eq_none_iff_forall_ne_some.mpr fun time htime => ?_
  simp only [text, timeWithSecond?, Option.bind_eq_bind, Option.bind_eq_some_iff,
    after?_eq_some_iff, Prod.exists] at htime
  obtain ⟨hour, _, hhour, _, rfl, minute, _, hminute, _, rfl, -⟩ := htime
  obtain ⟨-, rfl⟩ :=
    (leadingNumber?_append_iff rfl rfl (by decide) (h .hour (by decide)).1).mp hhour
  obtain ⟨front, hfield, -⟩ :=
    (leadingNumber?_eq_some_iff (isDigit_of_mem_head? rfl _)).mp hminute
  exact (h .minute (by decide)).1 (hfield ▸ List.mem_append_right _ List.mem_cons_self)

/-- A text without a second is a time if the two fields are numbers that make one. -/
theorem timeWithoutSecond?_minutes_iff (h : Separated .minutes field) :
    timeWithoutSecond? (text .minutes field) = some time ↔
      ∃ hour minute, NumberRow 2 (trimStart (field .hour)) hour ∧
        NumberRow 2 (trimStart (field .minute)) minute ∧ timeOf? hour minute 0 0 = some time := by
  obtain ⟨hcolon, -⟩ := h .hour (by decide)
  have hend : ∀ c ∈ ([] : List Char).head?, c.isDigit = false := nofun
  simp only [text, timeWithoutSecond?, Option.bind_eq_bind, Option.bind_eq_some_iff,
    after?_eq_some_iff, Prod.exists]
  constructor
  · rintro ⟨hour, _, hleadHour, _, rfl, minute, left, hleadMinute, hmade⟩
    obtain ⟨hhour, rfl⟩ := (leadingNumber?_append_iff rfl rfl (by decide) hcolon).mp hleadHour
    obtain ⟨hleft, htime⟩ := Option.ite_none_right_eq_some.mp hmade
    obtain rfl := List.isEmpty_iff.mp hleft
    obtain ⟨_, hfield, hminute⟩ := (leadingNumber?_eq_some_iff hend).mp hleadMinute
    rw [List.append_nil] at hfield
    exact ⟨hour, minute, hhour, hfield ▸ hminute, htime⟩
  · rintro ⟨hour, minute, hhour, hminute, htime⟩
    exact ⟨hour, _, (leadingNumber?_append_iff rfl rfl (by decide) hcolon).mpr ⟨hhour, rfl⟩, _, rfl,
      minute, [], (leadingNumber?_eq_some_iff hend).mpr ⟨_, (List.append_nil _).symm, hminute⟩,
      htime⟩

/-- A text with a second does not end behind the minute. -/
theorem timeWithoutSecond?_of_second (h : shape.Separated field) (hsecond : .second ∈ shape.parts) :
    timeWithoutSecond? (shape.text field) = none := by
  have hend : ∀ c ∈ ([] : List Char).head?, c.isDigit = false := nofun
  refine Option.eq_none_iff_forall_ne_some.mpr fun time htime => ?_
  simp only [text_of_second hsecond, timeWithoutSecond?, Option.bind_eq_bind,
    Option.bind_eq_some_iff, after?_eq_some_iff, Prod.exists] at htime
  obtain ⟨hour, _, hhour, _, rfl, minute, _, hminute, hmade⟩ := htime
  obtain ⟨-, rfl⟩ :=
    (leadingNumber?_append_iff rfl rfl (by decide) (h .hour shape.hour_mem_parts).1).mp hhour
  obtain ⟨hleft, -⟩ := Option.ite_none_right_eq_some.mp hmade
  rw [List.isEmpty_iff.mp hleft] at hminute
  obtain ⟨front, hfield, hfront⟩ := (leadingNumber?_eq_some_iff hend).mp hminute
  rw [List.append_nil] at hfield
  have hcolon : ':' ∉ front := notMem_of_numeral hfront.numeral rfl rfl (by decide)
  exact hcolon (hfield ▸ List.mem_append_right _ List.mem_cons_self)

theorem plainTime?_of_second (h : shape.Separated field) (hsecond : .second ∈ shape.parts) :
    plainTime? (shape.text field) = timeWithSecond? (shape.text field) := by
  rw [plainTime?, timeWithoutSecond?_of_second h hsecond]
  split
  · rename_i htime
    exact htime.symm
  · rename_i htime
    exact htime.symm

/-- A text without stars is a time if each field that is written is a number, and the numbers make
a time. -/
theorem plainTime?_text_iff (h : shape.Separated field) :
    plainTime? (shape.text field) = some time ↔
      ∃ number : TimePart → Nat, (∀ part ∈ shape.parts, part.Row (field part) (number part)) ∧
        (∀ part, part ∉ shape.parts → number part = 0) ∧
        timeOf? (number .hour) (number .minute) (number .second) (number .fraction) =
          some time := by
  rw [TimePart.exists_iff]
  cases shape with
  | minutes =>
    have hplain : plainTime? (text .minutes field) = timeWithoutSecond? (text .minutes field) := by
      rw [plainTime?, timeWithSecond?_minutes h]
    rw [hplain, timeWithoutSecond?_minutes_iff h]
    simp [TimePart.forall_iff, parts, TimePart.Row, and_assoc]
  | seconds =>
    have hsecond : TimePart.second ∈ parts .seconds := by decide
    rw [plainTime?_of_second h hsecond, timeWithSecond?_text_iff h hsecond]
    simp [TimePart.forall_iff, parts, TimePart.Row, and_assoc, tail, fraction?_nil_iff]
  | fractions =>
    have hsecond : TimePart.second ∈ parts .fractions := by decide
    rw [plainTime?_of_second h hsecond, timeWithSecond?_text_iff h hsecond]
    simp [TimePart.forall_iff, parts, TimePart.Row, and_assoc, tail, fraction?_point_iff]

end TimeShape

namespace Literal

/-! ### Times that are made -/

variable {hour minute second fraction : Nat} {time : Time}

/-- Which numbers make a time, and which.  The second 60 is the last hundredth of the minute. -/
theorem timeOf?_eq_some_iff (hfraction : fraction ≤ 99) :
    timeOf? hour minute second fraction = some time ↔
      (time.hour.toNat = hour ∧ hour ≤ 23) ∧ (time.minute.toNat = minute ∧ minute ≤ 59) ∧
        (second ≤ 59 ∧ time.second.toNat = second ∧ time.hundredths.toNat = fraction ∨
          second = 60 ∧ time.second = 59 ∧ time.hundredths = 99) := by
  obtain ⟨h, m, s, f⟩ := time
  have hoctet : ∀ {n : Nat} {octet : UInt8}, n < 256 → (UInt8.ofNat n = octet ↔ octet.toNat = n) :=
    fun hn => by rw [← UInt8.toNat_inj, UInt8.toNat_ofNat_of_lt' hn, eq_comm]
  rw [timeOf?]
  split_ifs with hbounds hleap
  · simp only [Bool.and_eq_true, decide_eq_true_eq] at hbounds
    rw [Option.some.injEq, Time.mk.injEq, hoctet (by omega), hoctet (by omega),
      @eq_comm _ (59 : UInt8), @eq_comm _ (99 : UInt8)]
    simp [hbounds, hleap]
  · simp only [Bool.and_eq_true, decide_eq_true_eq] at hbounds
    have hsecond : second ≤ 59 := by omega
    rw [Option.some.injEq, Time.mk.injEq, hoctet (by omega), hoctet (by omega),
      hoctet (by omega), hoctet (by omega)]
    simp [hbounds, hleap, hsecond]
  · refine iff_of_false nofun fun h => hbounds ?_
    simp only [Bool.and_eq_true, decide_eq_true_eq]
    omega

/-- The parts of a time that is made are within their bounds. -/
theorem octet_le_of_timeOf? (hfraction : fraction ≤ 99)
    (h : timeOf? hour minute second fraction = some time) (part : TimePart) :
    (time.octet part).toNat ≤ part.most := by
  obtain ⟨⟨hhour, hhour'⟩, ⟨hminute, hminute'⟩, hrest⟩ := (timeOf?_eq_some_iff hfraction).mp h
  cases part with
  | hour => exact hhour.trans_le hhour'
  | minute => exact hminute.trans_le hminute'
  | second =>
    obtain ⟨hbound, hsecond, -⟩ | ⟨-, hsecond, -⟩ := hrest
    · exact hsecond.trans_le hbound
    · exact (congrArg UInt8.toNat hsecond).le
  | fraction =>
    obtain ⟨-, -, hkept⟩ | ⟨-, -, hlast⟩ := hrest
    · exact hkept.trans_le hfraction
    · exact (congrArg UInt8.toNat hlast).le

end Literal

namespace Time

/-! ### Times as they are shown -/

variable {time : Time}

theorem toList_text (time : Time) : time.text.toList =
    TimeShape.fractions.text fun part => (partText (time.octet part)).toList := by
  simp only [Time.text, TimeShape.text, Time.octet, String.toList_append, List.append_assoc]
  rfl

theorem trim_text (time : Time) : trim time.text.toList = time.text.toList := by
  rw [toList_text]
  exact TimeShape.trim_text fun _ _ _ => isFieldChar_of_mem_partText

theorem hasStar_text_iff :
    hasStar time.text.toList = true ↔ ∃ part, time.octet part = unspecified := by
  rw [hasStar_iff, toList_text, TimeShape.mem_text (by decide) (by decide)]
  simp only [TimeShape.mem_parts_fractions, true_and, star_mem_partText_iff]

theorem row_partText {part : TimePart} (hopen : time.octet part ≠ unspecified)
    (hbound : (time.octet part).toNat ≤ part.most) :
    part.Row (partText (time.octet part)).toList (time.octet part).toNat := by
  have hmost : part.most < 100 := by cases part <;> decide
  have hsmall := hbound.trans_lt hmost
  obtain ⟨h, -⟩ | ⟨-, htext, hspelled⟩ := partText_cases (time.octet part)
  · exact absurd h hopen
  · obtain ⟨hne, hdigits, -⟩ := digits?_eq_some_iff.mp hspelled
    cases part with
    | fraction => exact ⟨hne, hdigits, by rw [htext, hundredths_twoDigits _ hsmall]⟩
    | _ => exact numberRow_partText hsmall

/-- **Times are read back.**  A time is read back from the text that shows it if each of its parts
is unspecified or within its bounds, and no other time is. -/
theorem time?_text_iff : time? time.text.toList = some time ↔ time.InRange := by
  have hsep : TimeShape.fractions.Separated fun part => (partText (time.octet part)).toList :=
    TimeShape.separated_of_isFieldChar fun _ _ _ => isFieldChar_of_mem_partText
  have hparts := TimeShape.mem_parts_fractions
  rw [time?]
  split
  · -- one field for each part
    rw [toList_text, TimeShape.starredTime?_text_iff hsep]
    simp [Time.InRange, hparts, field?_partText_iff]
  · rename_i hstar
    have hopen : ∀ part, time.octet part ≠ unspecified := fun part h =>
      hstar (hasStar_text_iff.mpr ⟨part, h⟩)
    rw [toList_text, TimeShape.plainTime?_text_iff hsep]
    constructor
    · rintro ⟨number, hrows, hzero, hmade⟩ part
      exact .inr (octet_le_of_timeOf? (TimeShape.fraction_le hrows hzero) hmade part)
    · intro h
      have hbound : ∀ part, (time.octet part).toNat ≤ part.most :=
        fun part => (h part).resolve_left (hopen part)
      refine ⟨fun part => (time.octet part).toNat, fun part _ => row_partText (hopen part)
        (hbound part), fun part hpart => absurd (hparts part) hpart, ?_⟩
      exact (timeOf?_eq_some_iff (hbound .fraction)).mpr ⟨⟨rfl, hbound .hour⟩,
        ⟨rfl, hbound .minute⟩, .inl ⟨hbound .second, rfl, rfl⟩⟩

end Time

end Fieldbus
