import Fieldbus.Text.Blank
import Fieldbus.Text.Numeral

/-!
# Numerals are read back

The decimal text of a number is a row of digits, and the number is what the row spells, for a reader
of plain numbers as for one of numbers with a sign.  Numerals and names are made of plain
characters, so there is nothing to be trimmed from them.

## Main definitions

* `Text.isPlain`: the characters of names and numerals.

## Main results

* `Text.digits?_toDigits`: the digits of a number spell it.
* `Text.natural?_toDigits`, `Text.integer?_signedDecimal_eq`: what is within the bounds is read
  back.
* `Text.trim_of_isPlain`: what is plain stays as it is.
-/

namespace Fieldbus.Text

theorem toNat_of_isDigit {c : Char} (h : c.isDigit = true) : 48 ≤ c.toNat ∧ c.toNat ≤ 57 := by
  simpa [Char.isDigit, UInt32.le_iff_toNat_le] using h

theorem digit?_of_isDigit {c : Char} (h : c.isDigit = true) :
    digit? c = some (c.toNat - '0'.toNat) := by
  have hrange : '0' ≤ c ∧ c ≤ '9' := by
    simpa [Char.isDigit, Char.le_def] using h
  exact if_pos hrange

/-- A row of digits continues a number in base ten. -/
theorem continueDigits_of_isDigit {row : List Char} (h : ∀ c ∈ row, c.isDigit = true)
    (value : Nat) : continueDigits value row = some (Nat.ofDigitChars 10 row value) := by
  induction row generalizing value with
  | nil => rfl
  | cons c rest ih =>
    obtain ⟨hc, hrest⟩ := List.forall_mem_cons.mp h
    rw [continueDigits, digit?_of_isDigit hc, Option.bind_some, ih hrest, Nat.ofDigitChars_cons]

theorem isDigit_of_digit? {c : Char} {d : Nat} (h : digit? c = some d) : c.isDigit = true := by
  obtain ⟨hrange, -⟩ := Option.ite_none_right_eq_some.mp h
  simpa [Char.isDigit, Char.le_def] using hrange

theorem isDigit_eq (c : Char) : isDigit c = c.isDigit := rfl

theorem isDigit_of_continueDigits {row : List Char} {value n : Nat}
    (h : continueDigits value row = some n) : ∀ c ∈ row, c.isDigit = true := by
  induction row generalizing value with
  | nil => exact fun c hc => absurd hc List.not_mem_nil
  | cons c rest ih =>
    obtain ⟨d, hd, hrest⟩ := Option.bind_eq_some_iff.mp h
    exact List.forall_mem_cons.mpr ⟨isDigit_of_digit? hd, ih hrest⟩

/-- The rows that spell a number are those of digits, with at least one. -/
theorem digits?_eq_some_iff {row : List Char} {n : Nat} : digits? row = some n ↔
    row ≠ [] ∧ (∀ c ∈ row, c.isDigit = true) ∧ Nat.ofDigitChars 10 row 0 = n := by
  cases row with
  | nil => simp [digits?]
  | cons first rest =>
    constructor
    · intro h
      have hdigits := isDigit_of_continueDigits h
      have hvalue := (continueDigits_of_isDigit hdigits 0).symm.trans h
      exact ⟨List.cons_ne_nil _ _, hdigits, Option.some.inj hvalue⟩
    · rintro ⟨-, hdigits, rfl⟩
      exact continueDigits_of_isDigit hdigits 0

theorem toList_decimal (n : Nat) : (decimal n).toList = Nat.toDigits 10 n := String.toList_ofList

theorem isDigit_of_mem_toDigits {n : Nat} {c : Char} (h : c ∈ Nat.toDigits 10 n) :
    c.isDigit = true :=
  Nat.isDigit_of_mem_toDigits (by decide) (by decide) h

/-- The digits of a number spell it. -/
theorem digits?_toDigits (n : Nat) : digits? (Nat.toDigits 10 n) = some n := by
  cases hrow : Nat.toDigits 10 n with
  | nil => exact absurd hrow Nat.toDigits_ne_nil
  | cons first rest =>
    rw [digits?, ← hrow, continueDigits_of_isDigit fun c => isDigit_of_mem_toDigits,
      Nat.ofDigitChars_ten_toDigits]

theorem exists_cons_of_toDigits (n : Nat) :
    ∃ first rest, Nat.toDigits 10 n = first :: rest ∧ first ≠ '+' ∧ first ≠ '-' := by
  obtain ⟨first, rest, hrow⟩ := List.exists_cons_of_ne_nil (Nat.toDigits_ne_nil (b := 10) (n := n))
  have hfirst : first.isDigit = true := isDigit_of_mem_toDigits (hrow ▸ List.mem_cons_self)
  refine ⟨first, rest, hrow, ?_, ?_⟩ <;> rintro rfl <;> cases hfirst

/-- A text that spells a number in decimal digits, with perhaps a plus sign before them. -/
inductive Numeral (text : List Char) (n : Nat) : Prop where
  | plain (hspelled : digits? text = some n)
  | signed {row : List Char} (htext : text = '+' :: row) (hspelled : digits? row = some n)

theorem digits?_cons_eq_none {c : Char} (hc : c.isDigit = false) (row : List Char) :
    digits? (c :: row) = none := by
  refine Option.eq_none_iff_forall_ne_some.mpr fun n hn => ?_
  have hdigit := (digits?_eq_some_iff.mp hn).2.1 c List.mem_cons_self
  exact absurd (hc.symm.trans hdigit) Bool.false_ne_true

theorem Numeral.eq {text : List Char} {n m : Nat} (hn : Numeral text n) (hm : Numeral text m) :
    n = m := by
  have hsign (row : List Char) : digits? ('+' :: row) = none := digits?_cons_eq_none rfl row
  cases hn with
  | plain hn =>
    cases hm with
    | plain hm => exact Option.some.inj (hn.symm.trans hm)
    | signed htext => rw [htext, hsign] at hn; cases hn
  | signed htext hn =>
    subst htext
    cases hm with
    | plain hm => rw [hsign] at hm; cases hm
    | signed htext hm =>
      obtain rfl := (List.cons.inj htext).2
      exact Option.some.inj (hn.symm.trans hm)

/-- Where there is a sign and what number it stands before. -/
theorem digits?_unsigned_eq_some_iff {text : List Char} {n : Nat} :
    digits? (match text with | '+' :: rest => rest | row => row) = some n ↔ Numeral text n := by
  constructor
  · intro h
    split at h
    · exact .signed rfl h
    · exact .plain h
  · intro h
    cases h with
    | plain h =>
      split
      · rw [digits?_cons_eq_none rfl] at h
        cases h
      · exact h
    | signed htext h =>
      subst htext
      exact h

theorem natural?_eq_some_iff {bound n : Nat} {text : List Char} :
    natural? bound text = some n ↔ Numeral text n ∧ n ≤ bound := by
  unfold natural?
  rw [Option.filter_eq_some_iff, decide_eq_true_iff]
  exact and_congr_left' digits?_unsigned_eq_some_iff

theorem natural?_le {bound n : Nat} {text : List Char} (h : natural? bound text = some n) :
    n ≤ bound :=
  (natural?_eq_some_iff.mp h).2

/-- A number within the bound is read back. -/
theorem natural?_toDigits {bound n : Nat} (h : n ≤ bound) :
    natural? bound (Nat.toDigits 10 n) = some n :=
  natural?_eq_some_iff.mpr ⟨.plain (digits?_toDigits n), h⟩

theorem natural?_decimal {bound n : Nat} (h : n ≤ bound) :
    natural? bound (decimal n).toList = some n := by
  rw [toList_decimal, natural?_toDigits h]

theorem integer?_bounds {low high n : Int} {text : List Char}
    (h : integer? low high text = some n) : low ≤ n ∧ n ≤ high := by
  obtain ⟨-, hbounds⟩ := Option.filter_eq_some_iff.mp h
  simpa using hbounds

/-- An integer is read back if it is within the bounds. -/
theorem integer?_signedDecimal_eq (low high n : Int) :
    integer? low high (signedDecimal n).toList =
      (some n).filter fun value => low ≤ value && value ≤ high := by
  by_cases hneg : n < 0
  · have htext : (signedDecimal n).toList = '-' :: Nat.toDigits 10 n.natAbs := by
      rw [signedDecimal, if_pos hneg, String.toList_append, toList_decimal]
      rfl
    have hvalue : -(n.natAbs : Int) = n := by omega
    rw [htext, integer?, digits?_toDigits]
    change (some (-(n.natAbs : Int))).filter _ = _
    rw [hvalue]
  · obtain ⟨first, rest, hrow, hplus, hminus⟩ := exists_cons_of_toDigits n.natAbs
    have hread : integer? low high (Nat.toDigits 10 n.natAbs) =
        ((digits? (Nat.toDigits 10 n.natAbs)).map Int.ofNat).filter fun value =>
          low ≤ value && value ≤ high := by
      rw [hrow, integer?]
      · exact fun rest heq => hminus (List.cons.inj heq).1
      · exact fun rest heq => hplus (List.cons.inj heq).1
    have hvalue : Int.ofNat n.natAbs = n := Int.natAbs_of_nonneg (Int.not_lt.mp hneg)
    rw [signedDecimal, if_neg hneg, toList_decimal, hread, digits?_toDigits, Option.map_some,
      hvalue]

theorem integer?_signedDecimal {low high n : Int} (hlow : low ≤ n) (hhigh : n ≤ high) :
    integer? low high (signedDecimal n).toList = some n := by
  rw [integer?_signedDecimal_eq, Option.filter_some, if_pos (by simp [hlow, hhigh])]

theorem integer?_signedDecimal_of_lt {low high n : Int} (h : high < n) :
    integer? low high (signedDecimal n).toList = none := by
  rw [integer?_signedDecimal_eq, Option.filter_some, if_neg (by simp [h])]

/-- The positive numbers that are read among the integers are those of numerals too. -/
theorem integer?_eq_natCast_iff {low high : Int} {n : Nat} (hpos : 0 < n) {text : List Char} :
    integer? low high text = some (n : Int) ↔ Numeral text n ∧ low ≤ n ∧ n ≤ high := by
  unfold integer?
  rw [Option.filter_eq_some_iff, Bool.and_eq_true, decide_eq_true_iff, decide_eq_true_iff]
  refine and_congr_left' ?_
  have hcast (m : Nat) : Int.ofNat m = (n : Int) ↔ m = n := Int.ofNat_inj
  split
  · rename_i rest
    -- no negative number is positive, and a minus sign starts no numeral
    have hnone : ¬ Numeral ('-' :: rest) n := by
      rintro (h | ⟨htext, -⟩)
      · rw [digits?_cons_eq_none rfl] at h
        cases h
      · cases htext
    refine iff_of_false (fun h => ?_) hnone
    obtain ⟨value, hvalue, hneg⟩ := Option.map_eq_some_iff.mp h
    obtain ⟨m, -, hm⟩ := Option.bind_eq_some_iff.mp hvalue
    have hm : (m : Int) = value := Option.some.inj hm
    omega
  · rename_i rest
    simp only [Option.map_eq_some_iff, hcast, exists_eq_right]
    exact @digits?_unsigned_eq_some_iff ('+' :: rest) n
  · rename_i row hminus hplus
    simp only [Option.map_eq_some_iff, hcast, exists_eq_right]
    exact ⟨.plain, fun h => by
      cases h with
      | plain h => exact h
      | signed htext h => exact absurd htext (hplus _)⟩

theorem signedDecimal_natCast (n : Nat) : signedDecimal n = decimal n := by
  rw [signedDecimal, if_neg (Int.not_lt.mpr (Int.natCast_nonneg n)), Int.natAbs_natCast]

theorem toList_twoDigits (n : Nat) : (twoDigits n).toList =
    if n < 10 then '0' :: Nat.toDigits 10 n else Nat.toDigits 10 n := by
  rw [twoDigits]
  split
  · rw [String.toList_append, toList_decimal]
    rfl
  · rw [toList_decimal]

theorem digits?_twoDigits (n : Nat) : digits? (twoDigits n).toList = some n := by
  have hspelled := digits?_toDigits n
  rw [toList_twoDigits]
  split
  · obtain ⟨-, hdigits, hvalue⟩ := digits?_eq_some_iff.mp hspelled
    have hrow : ∀ c ∈ '0' :: Nat.toDigits 10 n, c.isDigit = true :=
      List.forall_mem_cons.mpr ⟨rfl, hdigits⟩
    refine digits?_eq_some_iff.mpr ⟨List.cons_ne_nil _ _, hrow, ?_⟩
    rwa [Nat.ofDigitChars_cons]
  · exact hspelled

theorem length_twoDigits : ∀ n < 100, (twoDigits n).toList.length = 2 := by decide +kernel

theorem hexDigit?_hexDigit : ∀ n < 16, hexDigit? (hexDigit n) = some n := by decide

/-! ### Plain characters -/

variable {c : Char}

/-- The code points of the hyphen, the digits and the letters A to Z in both cases, as inclusive
ranges in ascending order. -/
def plainRanges : List (Nat × Nat) := [(0x2d, 0x2d), (0x30, 0x39), (0x41, 0x5a), (0x61, 0x7a)]

/-- Whether a character is one of those that names and numerals are made of. -/
def isPlain (c : Char) : Bool := inRanges plainRanges c.toNat

theorem isBlank_of_isPlain (h : isPlain c = true) : isBlank c = false := by
  simp only [isPlain, isBlank, inRanges, plainRanges, blankRanges, List.any_cons, List.any_nil,
    Bool.or_eq_true, Bool.or_eq_false_iff, Bool.and_eq_true, Bool.and_eq_false_iff,
    decide_eq_true_eq, decide_eq_false_iff_not, Bool.false_eq_true, or_false, and_true] at h ⊢
  omega

theorem isPlain_of_isDigit (h : c.isDigit = true) : isPlain c = true := by
  have hrange : 48 ≤ c.toNat ∧ c.toNat ≤ 57 := toNat_of_isDigit h
  simp [isPlain, inRanges, plainRanges, hrange]

/-- Nothing is to be trimmed from a text of plain characters. -/
theorem trim_of_isPlain {text : List Char} (h : ∀ c ∈ text, isPlain c = true) : trim text = text :=
  trim_eq_self_of_all fun c hc => isBlank_of_isPlain (h c hc)

theorem isPlain_of_mem_toDigits {n : Nat} (h : c ∈ Nat.toDigits 10 n) : isPlain c = true :=
  isPlain_of_isDigit (isDigit_of_mem_toDigits h)

theorem forall_mem_signedDecimal {P : Char → Prop} (hdigit : ∀ c, c.isDigit = true → P c)
    (hhyphen : P '-') {n : Int} : ∀ c ∈ (signedDecimal n).toList, P c := by
  intro c h
  rw [signedDecimal] at h
  split at h
  · rw [String.toList_append, List.mem_append, toList_decimal] at h
    rcases h with h | h
    · exact List.mem_singleton.mp h ▸ hhyphen
    · exact hdigit c (isDigit_of_mem_toDigits h)
  · rw [toList_decimal] at h
    exact hdigit c (isDigit_of_mem_toDigits h)

theorem isPlain_of_mem_signedDecimal {n : Int} (h : c ∈ (signedDecimal n).toList) :
    isPlain c = true :=
  forall_mem_signedDecimal (fun _ => isPlain_of_isDigit) rfl c h

theorem signedDecimal_inj {n m : Int} (h : signedDecimal n = signedDecimal m) : n = m := by
  have hread := integer?_signedDecimal (Int.min_le_left n m) (Int.le_max_left n m)
  rw [h, integer?_signedDecimal (Int.min_le_right n m) (Int.le_max_right n m)] at hread
  exact (Option.some.inj hread).symm

end Fieldbus.Text
