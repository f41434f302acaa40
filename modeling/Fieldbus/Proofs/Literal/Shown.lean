import Fieldbus.Proofs.Literal.Date
import Fieldbus.Proofs.Literal.Time
import Fieldbus.Proofs.Literal.Write

/-!
# Dates and times are written as they are shown

The text that shows a date or a time is a literal of it, by itself or under its type code.  This
holds for the dates of days and those that leave the year, the month or the day open, and for the
times with parts within their bounds, and for no others.

## Main results

* `Literal.write_date_iff`, `Literal.write_time_iff`: the literals of dates and times.
* `Literal.write_dateTime_text`: what is shown is written back.
-/

namespace Fieldbus.Literal

open Fieldbus.Text

variable {text : String} {date : Date} {time : Time} {index : Option UInt32}

/-! ### Literals of dates and times -/

theorem literal_date_iff :
    literal text .date = .ok (.date date) ↔ date? (trim text.toList) = some date := by
  simp [literal_eq_ok_iff, atom?]

theorem literal_time_iff :
    literal text .time = .ok (.time time) ↔ time? (trim text.toList) = some time := by
  simp [literal_eq_ok_iff, atom?]

/-- A text is a date for a property of dates if it is one without the blanks around it. -/
theorem write_date_iff :
    write text .date index = .ok (.date date) ↔ date? (trim text.toList) = some date := by
  by_cases hnull : text = "null"
  · subst hnull
    have hword : date? (trim "null".toList) = none := by decide +kernel
    rw [hword]
    exact iff_of_false nofun nofun
  · rw [write_of_element? hnull rfl]
    exact literal_date_iff

/-- A text is a time for a property of times if it is one without the blanks around it. -/
theorem write_time_iff :
    write text .time index = .ok (.time time) ↔ time? (trim text.toList) = some time := by
  by_cases hnull : text = "null"
  · subst hnull
    have hword : time? (trim "null".toList) = none := by decide +kernel
    rw [hword]
    exact iff_of_false nofun nofun
  · rw [write_of_element? hnull rfl]
    exact literal_time_iff

/-! ### What is shown -/

/-- **Dates and times are written as they are shown.**  The text of a date is a literal of it, for a
property of dates and under the type code for an untyped one, if the date is that of a day from 1900
to 2154 with the weekday of the day, or leaves the year, the month or the day open with no weekday.
The text of a time is a literal of it, likewise, if each part is unspecified or within its bounds.
The texts of other dates and times are no literals of them. -/
theorem write_dateTime_text (index : Option UInt32) :
    (∀ date : Date,
      (write date.text .date index = .ok (.date date) ↔ date.IsDay ∨ date.IsPattern) ∧
      (write ("date:" ++ date.text) .anyAtomic index = .ok (.date date) ↔
        date.IsDay ∨ date.IsPattern)) ∧
    ∀ time : Time,
      (write time.text .time index = .ok (.time time) ↔ time.InRange) ∧
      (write ("time:" ++ time.text) .anyAtomic index = .ok (.time time) ↔ time.InRange) := by
  have hdate : ("date", Datatype.date) ∈ typeCodes := by decide
  have htime : ("time", Datatype.time) ∈ typeCodes := by decide
  refine ⟨fun date => ⟨?_, ?_⟩, fun time => ⟨?_, ?_⟩⟩
  · rw [write_date_iff, Date.trim_text, Date.date?_text_iff]
  · have htagged : write ("date:" ++ date.text) .anyAtomic index = literal date.text .date :=
      write_tagged hdate index
    rw [htagged, literal_date_iff, Date.trim_text, Date.date?_text_iff]
  · rw [write_time_iff, Time.trim_text, Time.time?_text_iff]
  · have htagged : write ("time:" ++ time.text) .anyAtomic index = literal time.text .time :=
      write_tagged htime index
    rw [htagged, literal_time_iff, Time.trim_text, Time.time?_text_iff]

/-- The last day of February in a year with 29, a day of any year, and an open second. -/
example : write "2000-02-29" .date none = .ok (.date ⟨100, 2, 29, 2⟩) ∧
    write "*-02-30" .date none = .ok (.date ⟨255, 2, 30, 255⟩) ∧
    write "23:59:*.99" .time none = .ok (.time ⟨23, 59, 255, 99⟩) := by
  decide +kernel

end Fieldbus.Literal
