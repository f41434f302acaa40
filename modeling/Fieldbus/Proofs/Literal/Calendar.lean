import Fieldbus.Literal.Calendar
import Mathlib.Order.Interval.Set.Basic

/-!
# The calendar counts its days

The weekday of a day is computed from the number of days before it.  Told in another way, the days
follow one another: the first of January 1900 was a Monday, every day is followed by the next day of
its month, by the first of the next month or by the first of the next year, and the weekday goes on
by one.  Both say the same of every day from 1900 on.

## Main definitions

* `Calendar.Dated`: the days from 1900 on, one after the other, with their weekdays.
* `Date.IsDay`: the dates of such days.

## Main results

* `Calendar.dated_iff`: the days that are reached are those that exist, on the weekdays computed.
* `Calendar.date?_eq_some_iff`: the dates that are made are those of such days.
-/

namespace Fieldbus

namespace Calendar

variable {year month day number : Nat}

/-- A day that is reached from the first of January 1900, and its weekday, 1 for Monday to 7 for
Sunday. -/
inductive Dated : Nat → Nat → Nat → Nat → Prop where
  | start : Dated 1900 1 1 1
  | nextDay {year month day number : Nat} (h : Dated year month day number)
      (hday : day < daysInMonth year month) : Dated year month (day + 1) (number % 7 + 1)
  | nextMonth {year month day number : Nat} (h : Dated year month day number)
      (hday : day = daysInMonth year month) (hmonth : month < 12) :
      Dated year (month + 1) 1 (number % 7 + 1)
  | nextYear {year number : Nat} (h : Dated year 12 31 number) :
      Dated (year + 1) 1 1 (number % 7 + 1)

/-! ### Counting days -/

theorem daysInMonth_pos (year month : Nat) : 0 < daysInMonth year month := by
  rw [daysInMonth]
  split_ifs <;> decide

theorem daysBeforeMonth_succ (hmonth : 1 ≤ month) :
    daysBeforeMonth year (month + 1) = daysBeforeMonth year month + daysInMonth year month := by
  obtain ⟨before, rfl⟩ := Nat.exists_eq_add_of_le' hmonth
  simp only [daysBeforeMonth, Nat.add_sub_cancel]
  rw [List.range'_concat, List.map_append, List.foldl_append]
  simp [Nat.add_comm]

theorem daysBeforeMonth_twelve (year : Nat) :
    daysBeforeMonth year 12 = if isLeap year then 335 else 334 := by
  cases hleap : isLeap year <;> simp [daysBeforeMonth, daysInMonth, hleap, List.range']

theorem daysBeforeYear_succ (hyear : 1 ≤ year) :
    daysBeforeYear (year + 1) = daysBeforeYear year + if isLeap year then 366 else 365 := by
  obtain ⟨past, rfl⟩ := Nat.exists_eq_add_of_le' hyear
  have hleap : isLeap (past + 1) = true ↔
      4 ∣ past + 1 ∧ (¬ 100 ∣ past + 1 ∨ 400 ∣ past + 1) := by
    simp [isLeap, Nat.dvd_iff_mod_eq_zero]
  have h100 : 100 ∣ past + 1 → 4 ∣ past + 1 := Nat.dvd_trans (by decide)
  have h400 : 400 ∣ past + 1 → 100 ∣ past + 1 := Nat.dvd_trans (by decide)
  -- the centuries that are taken away are never more than the years
  have hcenturies : past / 100 ≤ past := Nat.div_le_self past 100
  simp only [daysBeforeYear, Nat.add_sub_cancel, Nat.succ_div, hleap]
  generalize past / 4 = fourth at *
  generalize past / 100 = century at *
  split_ifs <;> omega

theorem weekday_nextDay (hday : 1 ≤ day) :
    weekday year month (day + 1) = weekday year month day % 7 + 1 := by
  simp only [weekday]
  omega

theorem weekday_nextMonth (hmonth : 1 ≤ month) :
    weekday year (month + 1) 1 =
      weekday year month (daysInMonth year month) % 7 + 1 := by
  have hdays := daysInMonth_pos year month
  simp only [weekday, daysBeforeMonth_succ hmonth]
  omega

theorem weekday_nextYear (hyear : 1 ≤ year) :
    weekday (year + 1) 1 1 = weekday year 12 31 % 7 + 1 := by
  have hstart : daysBeforeMonth (year + 1) 1 = 0 := rfl
  simp only [weekday, daysBeforeYear_succ hyear, daysBeforeMonth_twelve, hstart]
  split <;> omega

/-! ### The days from 1900 on -/

theorem exists?_iff : exists? year month day = true ↔
    (1 ≤ month ∧ month ≤ 12) ∧ 1 ≤ day ∧ day ≤ daysInMonth year month := by
  simp [exists?, and_assoc]

/-- The days that are reached exist, and the weekday is the one computed. -/
theorem Dated.sound (h : Dated year month day number) :
    1900 ≤ year ∧ exists? year month day = true ∧ number = weekday year month day := by
  induction h with
  | start => exact ⟨le_rfl, by decide, by decide⟩
  | nextDay _ hday ih =>
    obtain ⟨hyear, hexists, rfl⟩ := ih
    obtain ⟨hmonth, hfirst, -⟩ := exists?_iff.mp hexists
    exact ⟨hyear, exists?_iff.mpr ⟨hmonth, by omega, hday⟩, (weekday_nextDay hfirst).symm⟩
  | nextMonth _ hday hmonth ih =>
    obtain ⟨hyear, hexists, rfl⟩ := ih
    obtain ⟨⟨hfirst, -⟩, -⟩ := exists?_iff.mp hexists
    subst hday
    exact ⟨hyear, exists?_iff.mpr ⟨⟨by omega, hmonth⟩, le_rfl, daysInMonth_pos _ _⟩,
      (weekday_nextMonth hfirst).symm⟩
  | nextYear _ ih =>
    obtain ⟨hyear, -, rfl⟩ := ih
    exact ⟨by omega, exists?_iff.mpr ⟨by decide, le_rfl, daysInMonth_pos _ _⟩,
      (weekday_nextYear (by omega)).symm⟩

/-- Every day of a month is reached after its first. -/
theorem Dated.day_of_first (h : Dated year month 1 (weekday year month 1))
    (hfirst : 1 ≤ day) (hlast : day ≤ daysInMonth year month) :
    Dated year month day (weekday year month day) := by
  induction day, hfirst using Nat.le_induction with
  | base => exact h
  | succ day hfirst ih =>
    rw [weekday_nextDay hfirst]
    exact .nextDay (ih (Nat.le_of_succ_le hlast)) hlast

/-- Every month of a year is reached after its first. -/
theorem Dated.month_of_first (h : Dated year 1 1 (weekday year 1 1))
    (hfirst : 1 ≤ month) (hlast : month ≤ 12) :
    Dated year month 1 (weekday year month 1) := by
  induction month, hfirst using Nat.le_induction with
  | base => exact h
  | succ month hfirst ih =>
    have hmonth := ih (Nat.le_of_succ_le hlast)
    rw [weekday_nextMonth hfirst]
    exact .nextMonth (hmonth.day_of_first (daysInMonth_pos _ _) le_rfl) rfl hlast

theorem dated_newYear (hyear : 1900 ≤ year) : Dated year 1 1 (weekday year 1 1) := by
  induction year, hyear using Nat.le_induction with
  | base =>
    have hmonday : weekday 1900 1 1 = 1 := by decide
    exact hmonday ▸ .start
  | succ year hyear ih =>
    have hdecember : Dated year 12 1 (weekday year 12 1) := ih.month_of_first (by decide) le_rfl
    have hdays : daysInMonth year 12 = 31 := rfl
    rw [weekday_nextYear (by omega)]
    exact .nextYear (hdecember.day_of_first (by decide) hdays.ge)

/-- **The calendar counts its days.**  The days that follow one another from Monday, the first of
January 1900, on are those that exist, each on the weekday that is computed for it. -/
theorem dated_iff : Dated year month day number ↔
    1900 ≤ year ∧ exists? year month day = true ∧ number = weekday year month day := by
  refine ⟨Dated.sound, ?_⟩
  rintro ⟨hyear, hexists, rfl⟩
  obtain ⟨⟨hmonth, hmonth'⟩, hday, hday'⟩ := exists?_iff.mp hexists
  exact ((dated_newYear hyear).month_of_first hmonth hmonth').day_of_first hday hday'

theorem daysInMonth_le (year month : Nat) : daysInMonth year month ≤ 31 := by
  rw [daysInMonth]
  split_ifs <;> decide

theorem weekday_le (year month day : Nat) : weekday year month day ≤ 7 := by
  rw [weekday]
  omega

end Calendar

/-- A date is that of a day, from 1900 on, with the weekday of the day. -/
structure Date.IsDay (date : Date) : Prop where
  year : date.year ≠ unspecified
  dated : Calendar.Dated (1900 + date.year.toNat) date.month.toNat date.day.toNat
    date.weekday.toNat

namespace Calendar

/-- A day has a date if it is reached before the octets for years are used up. -/
theorem date?_eq_some_iff {date : Date} : date? year month day = some date ↔
    date.IsDay ∧ year = 1900 + date.year.toNat ∧ month = date.month.toNat ∧
      day = date.day.toNat := by
  constructor
  · intro h
    obtain ⟨hcond, hdate⟩ := Option.ite_none_right_eq_some.mp h
    obtain rfl := Option.some.inj hdate
    simp only [Bool.and_eq_true, decide_eq_true_eq] at hcond
    obtain ⟨⟨hexists, hfirst⟩, hlast⟩ := hcond
    obtain ⟨hmonth, hday⟩ := exists?_iff.mp hexists
    have hlong := daysInMonth_le year month
    have hoctet : ∀ {n : Nat}, n < 256 → (UInt8.ofNat n).toNat = n := UInt8.toNat_ofNat_of_lt'
    have hyearOctet : (UInt8.ofNat (year - 1900)).toNat = year - 1900 := hoctet (by omega)
    have hmonthOctet : (UInt8.ofNat month).toNat = month := hoctet (by omega)
    have hdayOctet : (UInt8.ofNat day).toNat = day := hoctet (by omega)
    have hnumber : (UInt8.ofNat (weekday year month day)).toNat = weekday year month day :=
      hoctet (Nat.lt_of_le_of_lt (weekday_le ..) (by decide))
    have hyear : year = 1900 + (year - 1900) := by omega
    refine ⟨⟨fun h => ?_, ?_⟩, ?_, hmonthOctet.symm, hdayOctet.symm⟩
    · have h := congrArg UInt8.toNat h
      rw [hyearOctet] at h
      have : unspecified.toNat = 255 := rfl
      omega
    · rw [hyearOctet, hmonthOctet, hdayOctet, hnumber, ← hyear]
      exact dated_iff.mpr ⟨hfirst, hexists, rfl⟩
    · rw [hyearOctet]
      exact hyear
  · rintro ⟨⟨hyear, hdated⟩, rfl, rfl, rfl⟩
    obtain ⟨hfirst, hexists, hnumber⟩ := hdated.sound
    have hlast : date.year.toNat ≠ 255 := fun h => hyear (UInt8.toNat_inj.mp h)
    have hoctet := date.year.toNat_lt
    have hcond : (exists? (1900 + date.year.toNat) date.month.toNat date.day.toNat &&
        1900 ≤ 1900 + date.year.toNat && 1900 + date.year.toNat ≤ 2154) = true := by
      simp only [hexists, Bool.true_and, Bool.and_eq_true, decide_eq_true_eq]
      omega
    rw [date?, if_pos hcond, ← hnumber, Nat.add_sub_cancel_left]
    simp only [UInt8.ofNat_toNat]

end Calendar

end Fieldbus
