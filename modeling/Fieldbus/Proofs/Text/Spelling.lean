import Mathlib.Data.List.TakeWhile
import Fieldbus.Proofs.Text.Numeral
import Fieldbus.Text.Lowercase

/-!
# Spellings of words and numerals

A word may be spelled in letters of either case, and blanks may stand around it.  Trimming takes the
blanks away, and for the letters A to Z the case rules of all scripts are those of this one, so a
reader that trims and folds does not see how a word was spelled.

## Main definitions

* `Text.Pads`: a text with nothing but blanks around another one.

## Main results

* `Text.Pads.trim_eq`: trimming takes them away.
* `Text.trim_eq_nil_iff`: what trimming leaves nothing of.
* `Text.lowercaseAll_eq_lowercaseLatin`: the letter case of a text in Latin letters.
* `Text.lowercaseAll_trim_of_pads`: a word is read, however it is spelled.
-/

namespace Fieldbus.Text

/-! ### Blanks around a text -/

/-- Whether a text has nothing but blanks before and after another one. -/
def Pads (text : String) (body : List Char) : Prop :=
  ∃ before after, text.toList = before ++ body ++ after ∧ (∀ c ∈ before, isBlank c = true) ∧
    ∀ c ∈ after, isBlank c = true

/-- A text without blanks is what is left when those around it are taken away. -/
theorem Pads.trim_eq {text : String} {body : List Char} (h : Pads text body)
    (hbody : ∀ c ∈ body, isBlank c = false) : trim text.toList = body := by
  obtain ⟨before, after, htext, hbefore, hafter⟩ := h
  have hstart : trimStart text.toList = trimStart (body ++ after) := by
    rw [htext, List.append_assoc, trimStart, List.dropWhile_append_of_pos hbefore]
    rfl
  cases body with
  | nil =>
    have hnil : trimStart ([] ++ after) = [] := List.dropWhile_eq_nil_iff.mpr hafter
    rw [trim, hstart, hnil]
    rfl
  | cons first rest =>
    have hfirst : trimStart (first :: rest ++ after) = first :: rest ++ after :=
      List.dropWhile_cons_of_neg (by rw [hbody first List.mem_cons_self]; decide)
    rw [trim, hstart, hfirst, trimEnd, List.reverse_append,
      List.dropWhile_append_of_pos fun c hc => hafter c (List.mem_reverse.mp hc)]
    -- what is left has no blanks at its end, as if it had been trimmed from itself
    have hself : trim (first :: rest) = first :: rest := trim_eq_self_of_all hbody
    rwa [trim, trimStart, List.dropWhile_cons_of_neg
      (by rw [hbody first List.mem_cons_self]; decide)] at hself

/-- Trimming leaves nothing of texts of blanks only. -/
theorem trim_eq_nil_iff {text : List Char} : trim text = [] ↔ ∀ c ∈ text, isBlank c = true := by
  refine ⟨fun h => ?_, trim_eq_nil_of_all⟩
  have hrest : ∀ c ∈ trimStart text, isBlank c = true := fun c hc =>
    List.dropWhile_eq_nil_iff.mp (List.reverse_eq_nil_iff.mp h) c (List.mem_reverse.mpr hc)
  intro c hc
  rw [← List.takeWhile_append_dropWhile (p := isBlank) (l := text)] at hc
  exact (List.mem_append.mp hc).elim List.mem_takeWhile_imp (hrest c)

/-! ### Letter case -/

/-- The case rules for the first 128 code points change the letters A to Z only. -/
theorem lowercase_ofNat :
    ∀ code < 128, lowercase (Char.ofNat code) = [(Char.ofNat code).toLower] := by
  decide +kernel

theorem lowercase_of_lt {c : Char} (h : c.toNat < 128) : lowercase c = [c.toLower] := by
  have hcode := lowercase_ofNat c.toNat h
  rwa [Char.ofNat_toNat] at hcode

/-- The lower-case form of a text in Latin letters. -/
theorem lowercaseAll_eq_lowercaseLatin {text : List Char} (h : ∀ c ∈ text, c.toNat < 128) :
    lowercaseAll text = lowercaseLatin text := by
  induction text with
  | nil => rfl
  | cons c rest ih =>
    obtain ⟨hc, hrest⟩ := List.forall_mem_cons.mp h
    have hfirst := lowercase_of_lt hc
    rw [lowercaseAll, List.flatMap_cons, hfirst]
    exact congrArg (c.toLower :: ·) (ih hrest)

theorem toLower_cases (c : Char) : c.toLower = c ∨ 65 ≤ c.toNat ∧ c.toNat ≤ 90 := by
  by_cases hupper : c.val ≥ 'A'.val ∧ c.val ≤ 'Z'.val
  · exact .inr ⟨UInt32.le_iff_toNat_le.mp hupper.1, UInt32.le_iff_toNat_le.mp hupper.2⟩
  · exact .inl (dif_neg hupper)

theorem toLower_of_lt {c : Char} (h : c.toNat < 65) : c.toLower = c :=
  (toLower_cases c).resolve_right fun hupper => Nat.not_le.mpr h hupper.1

theorem lowercaseAll_of_lt {text : List Char} (h : ∀ c ∈ text, c.toNat < 65) :
    lowercaseAll text = text := by
  rw [lowercaseAll_eq_lowercaseLatin fun c hc => Nat.lt_trans (h c hc) (by decide)]
  exact (List.map_congr_left fun c hc => toLower_of_lt (h c hc)).trans (List.map_id' text)

theorem isPlain_of_toLower {c : Char} (h : isPlain c.toLower = true) : isPlain c = true := by
  rcases toLower_cases c with hsame | ⟨hlow, hhigh⟩
  · rwa [hsame] at h
  · simp [isPlain, inRanges, plainRanges, hlow, hhigh]

theorem toNat_lt_of_isPlain {c : Char} (h : isPlain c = true) : c.toNat < 128 := by
  simp only [isPlain, inRanges, plainRanges, List.any_cons, List.any_nil, Bool.or_eq_true,
    Bool.and_eq_true, decide_eq_true_eq, Bool.false_eq_true, or_false] at h
  omega

/-- Trimming and folding lead from a word to itself, however it is spelled. -/
theorem lowercaseAll_trim_of_pads {text : String} {body word : List Char} (h : Pads text body)
    (hbody : lowercaseLatin body = word) (hword : word.all isPlain = true) :
    lowercaseAll (trim text.toList) = word := by
  have hplain : ∀ c ∈ body, isPlain c = true := fun c hc =>
    isPlain_of_toLower (List.all_eq_true.mp hword _ (hbody ▸ List.mem_map_of_mem hc))
  rw [h.trim_eq fun c hc => isBlank_of_isPlain (hplain c hc),
    lowercaseAll_eq_lowercaseLatin fun c hc => toNat_lt_of_isPlain (hplain c hc), hbody]

end Fieldbus.Text
