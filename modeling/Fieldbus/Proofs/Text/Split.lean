import Fieldbus.Text.Split

/-!
# Fields are put together again

Cutting a text at a separator and joining the fields with it undo each other, as long as the
separator is in none of the fields.

## Main results

* `Text.fields_append`: a text is cut behind its first field.
* `Text.intercalate_fields`: the fields, joined again, are the text.
* `Text.splitFirst?_of_notMem`: a text without the separator is not split.
-/

namespace Fieldbus.Text

variable {separator : Char} {field text : List Char}

theorem fields_of_notMem (h : separator ∉ field) : fields separator field = [field] := by
  induction field with
  | nil => rfl
  | cons c rest ih =>
    have hc : separator ≠ c := List.ne_of_not_mem_cons h
    rw [fields, if_neg hc.symm, ih (List.not_mem_of_not_mem_cons h)]

/-- A text is cut behind its first field. -/
theorem fields_append (h : separator ∉ field) (rest : List Char) :
    fields separator (field ++ separator :: rest) = field :: fields separator rest := by
  induction field with
  | nil => exact if_pos rfl
  | cons c row ih =>
    have hc : separator ≠ c := List.ne_of_not_mem_cons h
    rw [List.cons_append, fields, if_neg hc.symm, ih (List.not_mem_of_not_mem_cons h)]

theorem exists_cons_of_fields (separator : Char) (text : List Char) :
    ∃ first more, fields separator text = first :: more := by
  cases text with
  | nil => exact ⟨_, _, rfl⟩
  | cons c rest =>
    rw [fields]
    split
    · exact ⟨_, _, rfl⟩
    · split <;> exact ⟨_, _, rfl⟩

theorem fields_cons {c : Char} (hc : c ≠ separator) {first : List Char} {more : List (List Char)}
    (h : fields separator text = first :: more) :
    fields separator (c :: text) = (c :: first) :: more := by
  rw [fields, if_neg hc, h]

/-- The fields, joined with the separator, are the text. -/
theorem intercalate_fields (separator : Char) (text : List Char) :
    List.intercalate [separator] (fields separator text) = text := by
  induction text with
  | nil => rfl
  | cons c rest ih =>
    obtain ⟨first, more, hrest⟩ := exists_cons_of_fields separator rest
    rw [hrest] at ih
    by_cases hc : c = separator
    · rw [fields, if_pos hc, hrest, List.intercalate_cons_cons, ih, hc]
      rfl
    · rw [fields_cons hc hrest]
      cases more with
      | nil => simpa using ih
      | cons second more =>
        rw [List.intercalate_cons_cons] at ih ⊢
        exact congrArg (c :: ·) ih

/-- A text without the separator is not split. -/
theorem splitFirst?_of_notMem (h : separator ∉ text) : splitFirst? separator text = none := by
  induction text with
  | nil => rfl
  | cons c rest ih =>
    have hc : separator ≠ c := List.ne_of_not_mem_cons h
    rw [splitFirst?, if_neg hc.symm, ih (List.not_mem_of_not_mem_cons h), Option.map_none]

/-- A text is cut in one way only before the first separator. -/
theorem append_inj_of_notMem {before before' after after' : List Char}
    (hbefore : separator ∉ before) (hbefore' : separator ∉ before')
    (hafter : after = [] ∨ ∃ row, after = separator :: row)
    (hafter' : after' = [] ∨ ∃ row, after' = separator :: row)
    (h : before ++ after = before' ++ after') : before = before' ∧ after = after' := by
  rcases hafter with rfl | ⟨row, rfl⟩ <;> rcases hafter' with rfl | ⟨row', rfl⟩
  · simpa using h
  · rw [List.append_nil] at h
    exact absurd (h ▸ List.mem_append_right _ List.mem_cons_self) hbefore
  · rw [List.append_nil] at h
    exact absurd (h ▸ List.mem_append_right _ List.mem_cons_self) hbefore'
  · have hsplit := splitFirst?_append hbefore row
    rw [h, splitFirst?_append hbefore', Option.some.injEq, Prod.mk.injEq] at hsplit
    obtain ⟨rfl, rfl⟩ := hsplit
    exact ⟨rfl, rfl⟩

end Fieldbus.Text
