import Fieldbus.Catalogue.Standard
import Fieldbus.Proofs.PresentValue.Kinds
import Fieldbus.Proofs.Text.Numeral

/-!
# Normal forms of present values

A present value that has been normalized has the form that its object type asks for: a truth value,
a real number, an integer of 64 bits or a text.  Such a value stays as it is when it is normalized
again.  Only where a value stands for no number its stand-in is taken, whatever form that has; it
stays as it is if the catalogue has it in normal form.

## Main definitions

* `Meaning.hasForm`: the values of the form that a meaning asks for.
* `Catalogue.KeepsStandIns`: a catalogue that has its stand-ins for numbers in normal form.

## Main results

* `PresentValue.normalize_of_hasForm`: what has its form stays as it is.
* `PresentValue.hasForm_normalize_or`: what a normalized value looks like.
* `PresentValue.normalize_normalize_iff`: to normalize twice is to normalize once.
-/

namespace Fieldbus

/-- Whether a value has the form that a meaning asks for. -/
def Meaning.hasForm (meaning : Meaning) : Json → Bool
  | .bool _ => meaning = .boolean
  | .float _ => meaning = .real
  | .int n => meaning.isWhole && n ≤ PresentValue.maxInt
  | .string _ => meaning.isText
  | .null | .array _ | .object _ => false

/-- The stand-ins of a catalogue for numbers are in normal form. -/
def Catalogue.KeepsStandIns (catalogue : Catalogue) : Prop :=
  ∀ name definition, catalogue.find? name = some definition → definition.meaning.isNumeric = true →
    ∀ value, definition.standIn = some value →
      PresentValue.normalize catalogue name value = value

namespace PresentValue

variable {catalogue : Catalogue} {name : String} {raw value : Json} {n : Int}

theorem nearest_le_maxInt (x : Binary.Double) : nearest x ≤ maxInt := by
  have hbounds : minInt ≤ maxInt := by decide
  unfold nearest
  omega

theorem integer?_int (h : n ≤ maxInt) : integer? (.int n) = some n := congrArg some (if_pos h)

theorem integer?_le_maxInt (h : integer? raw = some n) : n ≤ maxInt := by
  cases raw with
  | int m =>
    cases h
    split
    · assumption
    · exact nearest_le_maxInt _
  | float x =>
    cases h
    exact nearest_le_maxInt x
  | string text =>
    rw [integer?] at h
    split at h
    · rename_i read hread
      cases h
      exact (Text.integer?_bounds hread).2
    · obtain ⟨x, -, rfl⟩ := Option.map_eq_some_iff.mp h
      exact nearest_le_maxInt x
  | bool b => cases b <;> cases h <;> decide
  | _ => cases h

/-- A value of the form that its object type asks for stays as it is. -/
theorem normalize_of_hasForm (h : (catalogue.meaning name).hasForm value = true) :
    normalize catalogue name value = value := by
  cases value with
  | bool b => exact normalize_of_boolean (of_decide_eq_true h) _
  | float x => exact normalize_of_real (of_decide_eq_true h) _
  | int n =>
    obtain ⟨hwhole, hn⟩ := Bool.and_eq_true_iff.mp h
    rw [normalize_of_isWhole hwhole, integer?_int (of_decide_eq_true hn)]
    rfl
  | string text => exact normalize_of_isText h _
  | _ => cases h

/-- **What is normalized has the form that its object type asks for, or is the stand-in for a
number.** -/
theorem hasForm_normalize_or (catalogue : Catalogue) (name : String) (raw : Json) :
    (catalogue.meaning name).hasForm (normalize catalogue name raw) = true ∨
      (catalogue.meaning name).isNumeric = true ∧
        normalize catalogue name raw = (catalogue.standIn name).getD .null := by
  rcases (catalogue.meaning name).kinds with hboolean | hreal | hwhole | htext
  · rw [normalize_of_boolean hboolean]
    exact .inl (decide_eq_true hboolean)
  · rw [normalize_of_real hreal]
    cases real? raw with
    | none => exact .inr ⟨by rw [hreal]; rfl, rfl⟩
    | some x => exact .inl (decide_eq_true hreal)
  · rw [normalize_of_isWhole hwhole]
    cases hraw : integer? raw with
    | none => exact .inr ⟨Meaning.isNumeric_of_isWhole hwhole, rfl⟩
    | some n =>
      have hn : n ≤ maxInt := integer?_le_maxInt hraw
      exact .inl (Bool.and_eq_true_iff.mpr ⟨hwhole, decide_eq_true hn⟩)
  · rw [normalize_of_isText htext]
    exact .inl htext

/-- **To normalize twice is to normalize once.**  This holds of all values, whatever their object
types are, and integers and real numbers are kept apart, if the stand-ins of the catalogue for
numbers are in normal form; and only then. -/
theorem normalize_normalize_iff (catalogue : Catalogue) :
    catalogue.KeepsStandIns ↔ ∀ name raw,
      normalize catalogue name (normalize catalogue name raw) = normalize catalogue name raw := by
  constructor
  · intro hkeeps name raw
    rcases hasForm_normalize_or catalogue name raw with hform | ⟨hnumeric, hstandIn⟩
    · exact normalize_of_hasForm hform
    · rw [hstandIn]
      cases hvalue : catalogue.standIn name with
      | none =>
        rw [Option.getD_none, normalize_null hnumeric, hvalue]
        rfl
      | some value =>
        obtain ⟨definition, hfind, hdefinition⟩ := Option.bind_eq_some_iff.mp hvalue
        rw [Catalogue.meaning, hfind] at hnumeric
        exact hkeeps name definition hfind hnumeric value hdefinition
  · intro hstable name definition hfind hnumeric value hvalue
    have hmeaning : catalogue.meaning name = definition.meaning := by
      rw [Catalogue.meaning, hfind]
      rfl
    have hnull : normalize catalogue name .null = value := by
      rw [normalize_null (hmeaning ▸ hnumeric), Catalogue.standIn, hfind, Option.bind_some, hvalue]
      rfl
    rw [← hnull]
    exact hstable name .null

theorem keepsStandIns_standard : Catalogue.standard.KeepsStandIns := by
  have hforms : ∀ entry ∈ Catalogue.standard.definitions,
      entry.2.standIn.all entry.2.meaning.hasForm = true := by
    decide +kernel
  intro name definition hfind _ value hvalue
  have hmeaning : Catalogue.standard.meaning name = definition.meaning := by
    rw [Catalogue.meaning, hfind]
    rfl
  obtain ⟨before, after, hentries, -⟩ := List.lookup_eq_some_iff.mp hfind
  have hform := hforms (Name.fold name, definition) (by simp [hentries])
  rw [hvalue, Option.all_some] at hform
  exact normalize_of_hasForm (hmeaning ▸ hform)

/-- With the standard catalogue to normalize twice is to normalize once. -/
theorem normalize_normalize_standard :
    Catalogue.standard.KeepsStandIns ∧ ∀ name raw,
      normalize .standard name (normalize .standard name raw) = normalize .standard name raw :=
  ⟨keepsStandIns_standard, (normalize_normalize_iff .standard).mp keepsStandIns_standard⟩

end PresentValue

end Fieldbus
