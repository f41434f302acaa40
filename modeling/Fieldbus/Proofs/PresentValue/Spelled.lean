import Fieldbus.Proofs.PresentValue.Whole
import Fieldbus.Proofs.Text.Spelling

/-!
# Present values that are spelled out

A present value may come as a number or a truth value, or as a text that spells it.  Where a truth
value or an integer is asked for, the two are normalized alike: the words for true and false, the
numerals of integers and those of real numbers are told apart in different places, but none of them
disagrees with what a number is taken for.

## Main definitions

* `PresentValue.word`: the word that a truth value is spelled with.

## Main results

* `PresentValue.wordTruth_of_isShown`, `PresentValue.wordTruth_of_word`: what a text means that
  spells a number or a truth value.
* `PresentValue.normalize_string_of_pads`: a value and its spelling are normalized alike.
-/

namespace Fieldbus.PresentValue

open Fieldbus.Binary Fieldbus.Text

/-- The word that a truth value is spelled with. -/
def word (b : Bool) : String := if b then "true" else "false"

variable {n : Int} {text : String}

/-! ### Numerals -/

theorem toNat_lt_of_mem_signedDecimal : ∀ c ∈ (signedDecimal n).toList, c.toNat < 65 :=
  forall_mem_signedDecimal
    (fun _ hdigit => Nat.lt_of_le_of_lt (toNat_of_isDigit hdigit).2 (by decide)) (by decide)

/-- Among the words for true and false two are numerals. -/
theorem eq_of_signedDecimal_mem (h : signedDecimal n ∈ trueWords ++ falseWords) :
    n = 0 ∨ n = 1 := by
  have hwords : ∀ w ∈ trueWords ++ falseWords, (w.toList.all fun c => c.toNat < 65) = true →
      w = signedDecimal 0 ∨ w = signedDecimal 1 := by
    decide +kernel
  have hbefore := List.all_eq_true.mpr fun c hc =>
    decide_eq_true (@toNat_lt_of_mem_signedDecimal n c hc)
  exact (hwords _ h hbefore).imp signedDecimal_inj signedDecimal_inj

/-- **The numeral of an integer means true if the integer is not zero**, as the integer does. -/
theorem wordTruth_of_isShown (h : Value.IsShown n)
    (htext : trim text.toList = (signedDecimal n).toList) : wordTruth text = (n != 0) := by
  simp only [wordTruth, htext, lowercaseAll_of_lt toNat_lt_of_mem_signedDecimal,
    String.ofList_toList]
  by_cases hword : signedDecimal n ∈ trueWords ++ falseWords
  · rcases eq_of_signedDecimal_mem hword with rfl | rfl <;> decide +kernel
  · obtain ⟨htrue, hfalse⟩ := not_or.mp (mt List.mem_append.mpr hword)
    rw [if_neg (by simpa using htrue), if_neg (by simpa using hfalse), ofText?_of_isShown h]
    exact congrArg not (Double.isZero_ofInt n)

/-! ### Words -/

/-- The words for true and false mean true and false. -/
theorem wordTruth_of_word {b : Bool} (htext : lowercaseAll (trim text.toList) = (word b).toList) :
    wordTruth text = b := by
  simp only [wordTruth, htext]
  cases b <;> decide +kernel

/-! ### Present values -/

/-- **A value and its spelling are normalized alike.**  Where a truth value or an integer is asked
for, an integer of 64 bits, with a sign or without, gives what its decimal text gives, with blanks
around it or without; and where a truth value is asked for, one gives what its word gives, in any
letter case and with blanks around it or without. -/
theorem normalize_string_of_pads (catalogue : Catalogue) (name : String) :
    (catalogue.meaning name ∈ [Meaning.boolean, .integer, .unsigned, .enumerated] →
      ∀ n, minInt ≤ n → n ≤ 18446744073709551615 → ∀ text, Pads text (signedDecimal n).toList →
        normalize catalogue name (.string text) = normalize catalogue name (.int n)) ∧
    (catalogue.meaning name = .boolean →
      ∀ b body, lowercaseLatin body = (word b).toList → ∀ text, Pads text body →
        normalize catalogue name (.string text) = normalize catalogue name (.bool b)) := by
  constructor
  · intro hmeaning n hlow hhigh text htext
    have hshown : Value.IsShown n := Value.isShown_iff.mpr ⟨hlow, hhigh⟩
    have hbody : trim text.toList = (signedDecimal n).toList :=
      htext.trim_eq fun c hc => isBlank_of_isPlain (isPlain_of_mem_signedDecimal hc)
    rcases List.mem_cons.mp hmeaning with hboolean | hmeaning
    · rw [normalize_of_boolean hboolean, normalize_of_boolean hboolean, truth, truth,
        wordTruth_of_isShown hshown hbody]
    · have hwhole : (catalogue.meaning name).isWhole = true := by
        simp only [List.mem_cons, List.not_mem_nil, or_false] at hmeaning
        rcases hmeaning with h | h | h <;> rw [h] <;> rfl
      rw [normalize_of_isWhole hwhole, normalize_of_isWhole hwhole,
        integer?_string_of_isShown hshown hbody, integer?_int_of_isShown hshown]
  · intro hboolean b body hbody text htext
    have hword := lowercaseAll_trim_of_pads htext hbody (by cases b <;> decide +kernel)
    rw [normalize_of_boolean hboolean, normalize_of_boolean hboolean, truth, truth,
      wordTruth_of_word hword]

/-- The greatest unsigned integer, which is no double, with blanks around its text, as a binary
value and as a count; and a word in mixed case. -/
theorem normalize_string_of_pads_greatest :
    Catalogue.standard.meaning "binaryValue" = .boolean ∧
      Catalogue.standard.meaning "accumulator" = .unsigned ∧
      normalize .standard "binaryValue" (.string "\t18446744073709551615 ") =
        normalize .standard "binaryValue" (.int 18446744073709551615) ∧
      normalize .standard "accumulator" (.string "\t18446744073709551615 ") =
        normalize .standard "accumulator" (.int 18446744073709551615) ∧
      normalize .standard "binaryValue" (.string " TruE") =
        normalize .standard "binaryValue" (.bool true) := by
  have hbinary : Catalogue.standard.meaning "binaryValue" = .boolean := by decide +kernel
  have hcount : Catalogue.standard.meaning "accumulator" = .unsigned := by decide +kernel
  have hnumeral : Pads "\t18446744073709551615 " (signedDecimal 18446744073709551615).toList :=
    ⟨['\t'], [' '], by decide +kernel, List.forall_mem_singleton.mpr (by decide),
      List.forall_mem_singleton.mpr (by decide)⟩
  have hword : Pads " TruE" "TruE".toList :=
    ⟨[' '], [], by decide, List.forall_mem_singleton.mpr (by decide), nofun⟩
  obtain ⟨hbinaryNumeral, hbinaryWord⟩ := normalize_string_of_pads .standard "binaryValue"
  exact ⟨hbinary, hcount,
    hbinaryNumeral (by rw [hbinary]; decide) _ (by decide) (by decide) _ hnumeral,
    (normalize_string_of_pads .standard "accumulator").1 (by rw [hcount]; decide) _ (by decide)
      (by decide) _ hnumeral,
    hbinaryWord hbinary true _ (by decide) _ hword⟩

end Fieldbus.PresentValue
