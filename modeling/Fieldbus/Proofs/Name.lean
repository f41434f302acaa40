import Fieldbus.Name
import Fieldbus.Proofs.Text.Spelling
import Mathlib.Data.List.Nodup

/-!
# Names lead back to their codes

Standard names, the names of codes without one and plain numbers share one space of spellings.  A
vocabulary is legible if its names stay apart when they are folded and none of them looks like the
name of a code without one; then every code below the limit is what its own text stands for, however
the text is spelled.

## Main definitions

* `Name.Vocabulary.Legible`: what the names of a vocabulary have to be like.

## Main results

* `Name.Vocabulary.code?_lt`: which codes names can stand for.
* `Name.Vocabulary.Legible.code?_of_fold`: a spelling of the text of a code stands for the code.
* `Name.Vocabulary.Legible.isPlain_text`: of which characters the text of a code consists.
-/

namespace Fieldbus.Name

open Fieldbus.Text

theorem fold_append (left right : String) : fold (left ++ right) = fold left ++ fold right := by
  rw [fold, String.toList_append, List.filter_append, lowercaseAll, List.flatMap_append]
  rfl

theorem fold_decimal (n : Nat) : fold (decimal n) = Nat.toDigits 10 n := by
  have hseparator : ∀ c ∈ Nat.toDigits 10 n, isSeparator c = false := by
    intro c hc
    have hdigit := isDigit_of_mem_toDigits hc
    have hne : c ≠ '-' ∧ c ≠ '_' ∧ c ≠ ' ' := by
      refine ⟨?_, ?_, ?_⟩ <;> rintro rfl <;> cases hdigit
    simp [isSeparator, hne]
  have hkept : (Nat.toDigits 10 n).filter (fun c => !isSeparator c) = Nat.toDigits 10 n :=
    List.filter_eq_self.mpr fun c hc => by rw [hseparator c hc, Bool.not_false]
  rw [fold, toList_decimal, hkept]
  refine lowercaseAll_of_lt fun c hc => ?_
  have hrange := toNat_of_isDigit (isDigit_of_mem_toDigits hc)
  omega

namespace Vocabulary

variable {vocabulary : Vocabulary} {code : Nat}

/-- The names of a vocabulary are letters and digits, differ in more than their spelling, and do
not look like names of codes without one. -/
structure Legible (vocabulary : Vocabulary) : Prop where
  plain : ∀ entry ∈ vocabulary.entries, entry.2.toList.all isPlain = true
  nodup : (vocabulary.entries.map fun entry => fold entry.2).Nodup
  standard : ∀ entry ∈ vocabulary.entries, ¬proprietary.toList <+: fold entry.2

instance : Decidable vocabulary.Legible :=
  decidable_of_iff (_ ∧ _ ∧ _) ⟨fun h => ⟨h.1, h.2.1, h.2.2⟩, fun h => ⟨h.1, h.2, h.3⟩⟩

/-- A vocabulary whose names stand for codes below its limit reads no other codes. -/
theorem code?_lt {name : String}
    (hentries : ∀ entry ∈ vocabulary.entries, entry.1 < vocabulary.limit)
    (hlimit : 0 < vocabulary.limit) (h : vocabulary.code? name = some code) :
    code < vocabulary.limit := by
  rw [code?] at h
  split at h
  · rename_i entry hfound
    exact Option.some.inj h ▸ hentries entry (List.mem_of_find?_eq_some hfound)
  · have hle := natural?_le h
    omega

/-- The text of a code is that of the first entry for it, or is made of its number. -/
theorem text_cases (vocabulary : Vocabulary) (code : Nat) :
    (∃ entry ∈ vocabulary.entries, entry.1 = code ∧ vocabulary.text code = entry.2) ∨
      vocabulary.text code = proprietary ++ "-" ++ decimal code := by
  rw [text, name?]
  cases hfound : vocabulary.entries.find? fun entry => entry.1 = code with
  | none => exact .inr rfl
  | some entry =>
    exact .inl ⟨entry, List.mem_of_find?_eq_some hfound,
      by simpa using List.find?_some hfound, rfl⟩

theorem fold_proprietary (code : Nat) :
    fold (proprietary ++ "-" ++ decimal code) = proprietary.toList ++ Nat.toDigits 10 code := by
  rw [fold_append, fold_decimal]
  rfl

namespace Legible

theorem code?_of_mem (h : vocabulary.Legible) {entry : Nat × String}
    (hentry : entry ∈ vocabulary.entries) : vocabulary.code? entry.2 = some entry.1 := by
  have hfound : vocabulary.entries.find? (fun other => fold other.2 = fold entry.2) =
      some entry := by
    cases hfound : vocabulary.entries.find? fun other => fold other.2 = fold entry.2 with
    | none => exact absurd (decide_eq_true rfl) (List.find?_eq_none.mp hfound entry hentry)
    | some other =>
      have hfold : fold other.2 = fold entry.2 := by simpa using List.find?_some hfound
      rw [List.inj_on_of_nodup_map h.nodup (List.mem_of_find?_eq_some hfound) hentry hfold]
  rw [code?]
  simp only [hfound]

theorem code?_proprietary (h : vocabulary.Legible) (hcode : code < vocabulary.limit) :
    vocabulary.code? (proprietary ++ "-" ++ decimal code) = some code := by
  have hnone : vocabulary.entries.find? (fun entry =>
      fold entry.2 = proprietary.toList ++ Nat.toDigits 10 code) = none := by
    rw [List.find?_eq_none]
    intro entry hentry heq
    exact h.standard entry hentry ((of_decide_eq_true heq) ▸ List.prefix_append _ _)
  have hafter : afterProprietary (proprietary.toList ++ Nat.toDigits 10 code) =
      Nat.toDigits 10 code :=
    if_pos (List.isPrefixOf_iff_prefix.mpr (List.prefix_append _ _))
  rw [code?, fold_proprietary]
  simp only [hnone, hafter]
  exact natural?_toDigits (Nat.le_sub_one_of_lt hcode)

/-- Whatever spells the text of a code stands for the code. -/
theorem code?_of_fold (h : vocabulary.Legible) (hcode : code < vocabulary.limit) {name : String}
    (hname : fold name = fold (vocabulary.text code)) : vocabulary.code? name = some code := by
  have hspelling : vocabulary.code? name = vocabulary.code? (vocabulary.text code) := by
    rw [code?, code?, hname]
  rw [hspelling]
  rcases vocabulary.text_cases code with ⟨entry, hentry, rfl, htext⟩ | htext
  · rw [htext, h.code?_of_mem hentry]
  · rw [htext, h.code?_proprietary hcode]

/-- The text of a code is plain. -/
theorem isPlain_text (h : vocabulary.Legible) {c : Char}
    (hc : c ∈ (vocabulary.text code).toList) : isPlain c = true := by
  rcases vocabulary.text_cases code with ⟨entry, hentry, -, htext⟩ | htext
  · exact List.all_eq_true.mp (h.plain entry hentry) c (htext ▸ hc)
  · rw [htext, String.toList_append, List.mem_append, toList_decimal] at hc
    rcases hc with hc | hc
    · have hall : (proprietary ++ "-").toList.all isPlain = true := by decide
      exact List.all_eq_true.mp hall c hc
    · exact isPlain_of_mem_toDigits hc

end Legible

end Vocabulary

end Fieldbus.Name
