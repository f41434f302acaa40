import Fieldbus.PresentValue

/-!
# Kinds of present values

What a present value is normalized to depends on the meaning of its object type by its kind only:
truth values, real numbers, integers and texts.  There is one equation for each kind.

## Main definitions

* `Meaning.isWhole`, `Meaning.isText`, `Meaning.isNumeric`: the kinds of meanings.

## Main results

* `PresentValue.normalize_of_boolean`, `PresentValue.normalize_of_real`,
  `PresentValue.normalize_of_isWhole`, `PresentValue.normalize_of_isText`: the equations.
-/

namespace Fieldbus

namespace Meaning

/-- Whether present values of a meaning are integers. -/
def isWhole : Meaning → Bool
  | .integer | .unsigned | .enumerated => true
  | .boolean | .real | .string | .unknown => false

/-- Whether present values of a meaning are texts. -/
def isText : Meaning → Bool
  | .string | .unknown => true
  | .boolean | .real | .integer | .unsigned | .enumerated => false

/-- Whether present values of a meaning are numbers, for which a stand-in may be taken. -/
def isNumeric (meaning : Meaning) : Bool := meaning.isWhole || meaning = .real

theorem kinds (meaning : Meaning) :
    meaning = .boolean ∨ meaning = .real ∨ meaning.isWhole = true ∨ meaning.isText = true := by
  cases meaning <;> decide

theorem isNumeric_of_isWhole {meaning : Meaning} (h : meaning.isWhole = true) :
    meaning.isNumeric = true := by
  rw [isNumeric, h]
  rfl

end Meaning

namespace PresentValue

variable {catalogue : Catalogue} {name : String}

theorem normalize_of_boolean (h : catalogue.meaning name = .boolean) (raw : Json) :
    normalize catalogue name raw = .bool (truth raw) := by
  rw [normalize, h]

theorem normalize_of_real (h : catalogue.meaning name = .real) (raw : Json) :
    normalize catalogue name raw =
      ((real? raw).map .float).getD ((catalogue.standIn name).getD .null) := by
  rw [normalize, h]

theorem normalize_of_isWhole (h : (catalogue.meaning name).isWhole = true) (raw : Json) :
    normalize catalogue name raw =
      ((integer? raw).map .int).getD ((catalogue.standIn name).getD .null) := by
  rw [normalize]
  cases hmeaning : catalogue.meaning name <;> rw [hmeaning] at h <;> first | rfl | cases h

theorem normalize_of_isText (h : (catalogue.meaning name).isText = true) (raw : Json) :
    normalize catalogue name raw = .string (textOf raw) := by
  rw [normalize]
  cases hmeaning : catalogue.meaning name <;> rw [hmeaning] at h <;> first | rfl | cases h

/-- For what is null the stand-in is taken, if a number is asked for. -/
theorem normalize_null (h : (catalogue.meaning name).isNumeric = true) :
    normalize catalogue name .null = (catalogue.standIn name).getD .null := by
  rcases Bool.or_eq_true_iff.mp h with hwhole | hreal
  · exact normalize_of_isWhole hwhole .null
  · exact normalize_of_real (of_decide_eq_true hreal) .null

end PresentValue

end Fieldbus
