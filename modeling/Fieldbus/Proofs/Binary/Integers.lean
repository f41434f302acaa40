import Mathlib.Algebra.Group.Basic
import Mathlib.Algebra.Group.Nat.Defs
import Mathlib.Data.List.TakeWhile
import Mathlib.Tactic.SplitIfs
import Fieldbus.Binary.Numeral
import Fieldbus.Proofs.Text.Numeral

/-!
# Integers as doubles

An integer of more than 53 bits is rounded when it is made a double, but never below the greatest
power of two that it has reached.  Its decimal text, read as a double, gives the same number.

## Main results

* `Binary.le_divideToEven`, `Binary.divideToEven_le`: rounding keeps to whole bounds.
* `Binary.Double.le_nearestInt_ofInt`: an integer is not rounded below a power of two.
* `Binary.Double.isZero_ofInt`: no other integer than zero becomes zero.
* `Binary.Double.ofText?_signedDecimal`: the text of an integer is read as the integer is made.
-/

namespace Fieldbus.Binary

open Fieldbus.Text

theorem twoTo_eq (exponent : Nat) : twoTo exponent = 2 ^ exponent := rfl

/-! ### Rounding -/

section Rounding

variable {num den bound : Nat}

theorem le_divideToEven (hden : 0 < den) (h : bound * den ≤ num) :
    bound ≤ divideToEven num den := by
  have hquotient : bound ≤ num / den := (Nat.le_div_iff_mul_le hden).mpr h
  unfold divideToEven
  dsimp only
  split_ifs <;> omega

theorem divideToEven_le (hden : 0 < den) (h : num ≤ bound * den) :
    divideToEven num den ≤ bound := by
  unfold divideToEven
  dsimp only
  rcases Nat.eq_or_lt_of_le h with rfl | hlt
  · rw [Nat.mul_mod_left, Nat.mul_div_cancel _ hden, if_pos hden]
  · have hquotient : num / den < bound := (Nat.div_lt_iff_lt_mul hden).mpr hlt
    split_ifs <;> omega

theorem binaryOrder_one {n order : Nat} (hlow : 2 ^ order ≤ n) (hhigh : n < 2 ^ (order + 1)) :
    binaryOrder n 1 = order := by
  have hnonzero : n ≠ 0 := Nat.ne_of_gt (Nat.lt_of_lt_of_le (Nat.two_pow_pos order) hlow)
  have hlog : n.log2 = order := (Nat.log2_eq_iff hnonzero).mpr ⟨hlow, hhigh⟩
  have hguess : (n.log2 : Int) - (1 : Nat).log2 = order := by
    rw [hlog, show (1 : Nat).log2 = 0 by decide]
    exact Int.sub_zero _
  have hleast : atLeastPower n 1 order = true := by
    simp only [atLeastPower, twoTo_eq]
    simpa using hlow
  rw [binaryOrder, hguess]
  exact if_pos hleast

end Rounding

/-- The pattern of a number of at least 53 bits. -/
theorem exists_roundRatio_double {n order : Nat} (hlow : 2 ^ order ≤ n)
    (hhigh : n < 2 ^ (order + 1)) (hleast : 52 ≤ order) (hgreatest : order ≤ 1022) :
    ∃ significand, 2 ^ 52 ≤ significand ∧ significand ≤ 2 ^ 53 ∧
      double.roundRatio n 1 = (order + 1022) * 2 ^ 52 + significand := by
  have hnonzero : n ≠ 0 := Nat.ne_of_gt (Nat.lt_of_lt_of_le (Nat.two_pow_pos order) hlow)
  have hlast : max (binaryOrder n 1 - double.fractionBits) double.leastExponent =
      ((order - 52 : Nat) : Int) := by
    rw [binaryOrder_one hlow hhigh, show double.leastExponent = -1074 by decide]
    change max ((order : Int) - (52 : Nat)) (-1074) = _
    omega
  have hscaled : 2 ^ 52 * 2 ^ (order - 52) = 2 ^ order := pow_mul_pow_sub 2 hleast
  have hunit : 0 < 2 ^ (order - 52) := Nat.two_pow_pos _
  let significand := divideToEven n (2 ^ (order - 52))
  have hlow' : 2 ^ 52 ≤ significand := le_divideToEven hunit (hscaled.trans_le hlow)
  have hhigh' : significand ≤ 2 ^ 53 := by
    refine divideToEven_le hunit ?_
    calc n ≤ 2 ^ (order + 1) := Nat.le_of_lt hhigh
      _ = 2 ^ order * 2 := Nat.pow_succ 2 order
      _ ≤ 2 ^ 53 * 2 ^ (order - 52) := by omega
  refine ⟨significand, hlow', hhigh', ?_⟩
  have hsignificand : divideToEven (n * twoTo (-((order - 52 : Nat) : Int)).toNat)
      (1 * twoTo ((order - 52 : Nat) : Int).toNat) = significand := by
    rw [Int.toNat_neg_natCast, Int.toNat_natCast, Nat.one_mul]
    exact congrArg (divideToEven · _) (Nat.mul_one n)
  have hpattern : (((order - 52 : Nat) : Int) - double.leastExponent).toNat = order + 1022 := by
    rw [show double.leastExponent = -1074 by decide]
    omega
  rw [Format.roundRatio, if_neg hnonzero]
  dsimp only
  rw [hlast, hsignificand, hpattern, show double.infinity = 2047 * 2 ^ 52 by decide,
    show twoTo double.fractionBits = 2 ^ 52 by decide]
  omega

/-- What the pattern of a number that is not too small stands for. -/
theorem magnitude_double {pattern : Nat} (hlow : 2 ^ 52 ≤ pattern)
    (hhigh : pattern < 2047 * 2 ^ 52) :
    double.magnitude pattern =
      .finite (2 ^ 52 + pattern % 2 ^ 52) (-1074 + ((pattern / 2 ^ 52 : Nat) - 1)) := by
  have hbits : double.magnitudeBits pattern = pattern := by
    refine Nat.mod_eq_of_lt ?_
    rw [show double.signWeight = 2048 * 2 ^ 52 by decide]
    omega
  rw [Format.magnitude, hbits, show twoTo double.fractionBits = 2 ^ 52 by decide,
    show twoTo double.exponentBits - 1 = 2047 by decide,
    show double.leastExponent = -1074 by decide]
  rw [if_neg (by omega), if_neg (by omega)]

namespace Double

/-- An integer of at least 53 bits as a double: it has no fraction, and is not below the greatest
power of two that the integer has reached. -/
theorem exists_magnitude_ofInt {n order : Nat} (hlow : 2 ^ order ≤ n) (hhigh : n < 2 ^ (order + 1))
    (hleast : 52 ≤ order) (hgreatest : order ≤ 1022) :
    ∃ significand exponent : Nat, (ofInt n).magnitude = .finite significand exponent ∧
      2 ^ order ≤ significand * 2 ^ exponent ∧ (ofInt n).isNegative = false := by
  obtain ⟨significand, hsignificand, hsignificand', hround⟩ :=
    exists_roundRatio_double hlow hhigh hleast hgreatest
  have hbits : (ofInt n).bits.toNat = (order + 1022) * 2 ^ 52 + significand := by
    have hnegative : decide ((n : Int) < 0) = false := by simp
    rw [ofInt, hnegative, Int.natAbs_natCast, hround]
    change (UInt64.ofNat ((order + 1022) * 2 ^ 52 + significand)).toNat = _
    rw [UInt64.toNat_ofNat']
    omega
  have hsign : double.signWeight = 2048 * 2 ^ 52 := by decide
  let pattern := (order + 1022) * 2 ^ 52 + significand
  refine ⟨2 ^ 52 + pattern % 2 ^ 52, pattern / 2 ^ 52 - 1075, ?_, ?_, ?_⟩
  · rw [magnitude, hbits, magnitude_double (by omega) (by omega)]
    congr 1
    omega
  · rw [← pow_mul_pow_sub 2 hleast]
    exact Nat.mul_le_mul (Nat.le_add_right _ _) (Nat.pow_le_pow_right (by decide) (by omega))
  · rw [isNegative, hbits, Format.isNegative, hsign]
    exact decide_eq_false (by omega)

/-- **An integer is not rounded below a power of two that it has reached.** -/
theorem le_nearestInt_ofInt {n order : Nat} (hlow : 2 ^ order ≤ n) (hhigh : n < 2 ^ (order + 1))
    (hleast : 52 ≤ order) (hgreatest : order ≤ 1022) :
    (ofInt n).isFinite = true ∧ ((2 ^ order : Nat) : Int) ≤ (ofInt n).nearestInt := by
  obtain ⟨significand, exponent, hmagnitude, hvalue, hnegative⟩ :=
    exists_magnitude_ofInt hlow hhigh hleast hgreatest
  refine ⟨by rw [isFinite, hmagnitude], ?_⟩
  rw [nearestInt, hmagnitude, hnegative]
  dsimp only
  rw [if_pos (Int.natCast_nonneg exponent), Int.toNat_natCast]
  exact Int.ofNat_le.mpr hvalue

end Double

/-! ### Zero -/

theorem Format.roundRatio_le_infinity (format : Format) (num den : Nat) :
    format.roundRatio num den ≤ format.infinity := by
  rw [roundRatio]
  split
  · exact Nat.zero_le _
  · exact Nat.min_le_right _ _

/-- No whole number but zero is rounded to zero. -/
theorem roundRatio_double_pos {n : Nat} (h : 0 < n) : 0 < double.roundRatio n 1 := by
  have horder : binaryOrder n 1 = n.log2 :=
    binaryOrder_one (Nat.log2_self_le (Nat.ne_of_gt h)) Nat.lt_log2_self
  have hlast : 0 < (max (binaryOrder n 1 - double.fractionBits) double.leastExponent -
      double.leastExponent).toNat := by
    rw [horder, show double.leastExponent = -1074 by decide]
    change 0 < (max ((n.log2 : Int) - (52 : Nat)) (-1074) - -1074).toNat
    omega
  rw [Format.roundRatio, if_neg (Nat.ne_of_gt h)]
  refine Nat.lt_min.mpr ⟨?_, by decide⟩
  exact Nat.add_pos_left (Nat.mul_pos hlast (by decide)) _

namespace Double

theorem isZero_of_finite {x : Double} {significand : Nat} {exponent : Int}
    (h : x.magnitude = .finite significand exponent) : x.isZero = decide (significand = 0) := by
  rw [isZero, h]
  cases significand <;> rfl

theorem isZero_eq (x : Double) : x.isZero = decide (double.magnitudeBits x.bits.toNat = 0) := by
  have hmagnitude : x.magnitude = double.magnitude x.bits.toNat := rfl
  have hparts := Nat.div_add_mod (double.magnitudeBits x.bits.toNat) (2 ^ 52)
  rw [Format.magnitude, show twoTo double.fractionBits = 2 ^ 52 by decide,
    show twoTo double.exponentBits - 1 = 2047 by decide] at hmagnitude
  generalize double.magnitudeBits x.bits.toNat = pattern at hmagnitude hparts ⊢
  split at hmagnitude
  · -- infinity and what is no number have all bits of the exponent set
    have hpositive : pattern ≠ 0 := by omega
    rw [decide_eq_false hpositive]
    split at hmagnitude <;> rw [isZero, hmagnitude]
  · split at hmagnitude <;> rw [isZero_of_finite hmagnitude, decide_eq_decide] <;> omega

theorem magnitudeBits_ofMagnitude (negative : Bool) {pattern : Nat}
    (h : pattern < double.signWeight) :
    double.magnitudeBits (ofMagnitude negative pattern).bits.toNat = pattern := by
  have hsign : double.signWeight = 2 ^ 63 := by decide
  rw [Format.magnitudeBits, ofMagnitude, UInt64.toNat_ofNat', Format.withSign]
  rw [hsign] at h ⊢
  split <;> omega

/-- **An integer is zero as a double only if it is zero.** -/
theorem isZero_ofInt (n : Int) : (ofInt n).isZero = decide (n = 0) := by
  have hbound : double.roundRatio n.natAbs 1 < double.signWeight :=
    Nat.lt_of_le_of_lt (double.roundRatio_le_infinity _ _) (by decide)
  rw [isZero_eq, ofInt, magnitudeBits_ofMagnitude _ hbound]
  by_cases hzero : n = 0
  · subst hzero
    rfl
  · have hpos := roundRatio_double_pos (Int.natAbs_pos.mpr hzero)
    rw [decide_eq_false hzero, decide_eq_false (Nat.ne_of_gt hpos)]

end Double
/-! ### Texts -/

theorem decimal?_toDigits (negative : Bool) (n : Nat) :
    decimal? negative (Nat.toDigits 10 n) = some ⟨negative, n, 0⟩ := by
  have hdigits : ∀ c ∈ Nat.toDigits 10 n, isDigit c = true := fun c hc =>
    isDigit_of_mem_toDigits hc
  have hwhole : (Nat.toDigits 10 n).takeWhile isDigit = Nat.toDigits 10 n :=
    List.takeWhile_eq_self_iff.mpr hdigits
  have hrest : (Nat.toDigits 10 n).dropWhile isDigit = [] :=
    List.dropWhile_eq_nil_iff.mpr hdigits
  have hvalue : digitsValue (Nat.toDigits 10 n) = n := by
    rw [digitsValue, continueDigits_of_isDigit fun c => isDigit_of_mem_toDigits,
      Nat.ofDigitChars_ten_toDigits]
    rfl
  rw [decimal?, hwhole, hrest]
  simp [Nat.toDigits_ne_nil, exponent?, hvalue]

theorem numeral_signedDecimal (n : Int) : Numeral.ofText? (signedDecimal n).toList =
    some (.decimal ⟨decide (n < 0), n.natAbs, 0⟩) := by
  have hsplit : splitSign (signedDecimal n).toList =
      (decide (n < 0), Nat.toDigits 10 n.natAbs) := by
    by_cases hneg : n < 0
    · rw [signedDecimal, if_pos hneg, String.toList_append, toList_decimal, decide_eq_true hneg]
      rfl
    · obtain ⟨first, rest, hrow, hplus, hminus⟩ := exists_cons_of_toDigits n.natAbs
      rw [signedDecimal, if_neg hneg, toList_decimal, decide_eq_false hneg, hrow, splitSign]
      · exact fun rest heq => hminus (List.cons.inj heq).1
      · exact fun rest heq => hplus (List.cons.inj heq).1
  rw [Numeral.ofText?, hsplit]
  dsimp only
  rw [decimal?_toDigits]

/-- A whole number of not too many digits is rounded as a quotient by one. -/
theorem roundDecimal_whole (negative : Bool) {n : Nat} (h : digitCount n ≤ greatestOrder) :
    double.roundDecimal ⟨negative, n, 0⟩ =
      double.withSign negative (double.roundRatio n 1) := by
  have hleast : ¬((digitCount n : Int) + 0 < -greatestOrder) := by
    have hpositive : (0 : Int) ≤ greatestOrder := by decide
    omega
  have hgreatest : ¬(greatestOrder < (digitCount n : Int) + 0) := by omega
  rw [Format.roundDecimal]
  dsimp only
  by_cases hzero : n = 0
  · rw [if_pos (.inl hzero), hzero]
    rfl
  · rw [if_neg (not_or.mpr ⟨hzero, hleast⟩), if_neg hgreatest]
    exact congrArg (fun num => double.withSign negative (double.roundRatio num 1)) (Nat.mul_one n)

/-- **The text of an integer is read as the integer is made a double**, if it is not of so many
digits that it counts as infinite. -/
theorem Double.ofText?_signedDecimal {n : Int} (h : digitCount n.natAbs ≤ greatestOrder) :
    ofText? (signedDecimal n).toList = some (ofInt n) := by
  rw [ofText?, numeral_signedDecimal]
  exact congrArg (fun bits => some (mk (UInt64.ofNat bits))) (roundDecimal_whole _ h)

end Fieldbus.Binary
