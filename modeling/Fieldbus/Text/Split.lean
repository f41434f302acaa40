/-!
# Splitting text

Cutting a text at a separating character: everywhere, at its first or at its last occurrence.
-/

namespace Fieldbus.Text

/-- The fields between the occurrences of a separator; there is one more than occurrences. -/
def fields (separator : Char) : List Char → List (List Char)
  | [] => [[]]
  | c :: rest =>
    if c = separator then [] :: fields separator rest
    else
      match fields separator rest with
      | [] => [[c]]
      | field :: more => (c :: field) :: more

/-- The texts before and after the first occurrence of a separator. -/
def splitFirst? (separator : Char) : List Char → Option (List Char × List Char)
  | [] => none
  | c :: rest =>
    if c = separator then some ([], rest)
    else (splitFirst? separator rest).map fun parts => (c :: parts.1, parts.2)

/-- The texts before and after the last occurrence of a separator. -/
def splitLast? (separator : Char) (text : List Char) : Option (List Char × List Char) :=
  (splitFirst? separator text.reverse).map fun parts => (parts.2.reverse, parts.1.reverse)

/-- Two texts with the separator between them are split there, if it is not in the first. -/
theorem splitFirst?_append {separator : Char} {before : List Char} (h : separator ∉ before)
    (after : List Char) : splitFirst? separator (before ++ separator :: after) =
      some (before, after) := by
  induction before with
  | nil => exact if_pos rfl
  | cons c rest ih =>
    have hc : separator ≠ c := List.ne_of_not_mem_cons h
    rw [List.cons_append, splitFirst?, if_neg hc.symm, ih (List.not_mem_of_not_mem_cons h)]
    rfl

end Fieldbus.Text
