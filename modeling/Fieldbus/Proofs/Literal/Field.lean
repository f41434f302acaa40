import Fieldbus.Literal.Field
import Fieldbus.Proofs.Text.Numeral
import Fieldbus.Proofs.Text.Split
import Mathlib.Data.List.DropRight

/-!
# Numbers that fill a field

A date or a time without stars is read from left to right, number by number, and one with stars is
cut at its separators first.  Both are readers of fields: what is read from left to right are the
numbers that fill the fields between the separators, because no number runs over a separator and
none stops before it.

## Main definitions

* `Literal.NumberRow`, `Literal.YearRow`: the rows that are read as a number, or as a year, where
  there are no stars.

## Main results

* `Literal.leadingNumber?_eq_some_iff`, `Literal.leadingYear?_eq_some_iff`: the number that starts a
  text fills the field in front of what is left.
* `Literal.field?_eq_some_iff`: what a field stands for where there are stars.
* `Literal.field?_partText_iff`, `Literal.numberRow_partText`: what shows a part is read as the
  part.
-/

namespace Fieldbus.Literal

open Fieldbus.Text

variable {c : Char} {width n : Nat} {field text rest row : List Char}

/-! ### Rows -/

/-- A row of at most `width` digits spells a number. -/
structure NumberRow (width : Nat) (row : List Char) (n : Nat) : Prop where
  short : row.length ≤ width
  spelled : digits? row = some n

/-- A row spells a year: a number of at most four digits, or a plus sign and a number of any
length. -/
inductive YearRow (row : List Char) (n : Nat) : Prop where
  | short (hnumber : NumberRow 4 row n)
  | signed {digits : List Char} (hrow : row = '+' :: digits) (hspelled : digits? digits = some n)

theorem NumberRow.numeral (h : NumberRow width row n) : Numeral row n := .plain h.spelled

theorem YearRow.numeral (h : YearRow row n) : Numeral row n := by
  cases h with
  | short h => exact h.numeral
  | signed hrow h => exact .signed hrow h

theorem exists_cons_of_digits? (h : digits? row = some n) :
    ∃ first more, row = first :: more ∧ first.isDigit = true := by
  obtain ⟨hne, hdigits, -⟩ := digits?_eq_some_iff.mp h
  obtain ⟨first, more, rfl⟩ := List.exists_cons_of_ne_nil hne
  exact ⟨first, more, rfl, hdigits first List.mem_cons_self⟩

theorem exists_cons_of_numeral (h : Numeral row n) :
    ∃ first more, row = first :: more ∧ (first.isDigit = true ∨ first = '+') := by
  cases h with
  | plain h =>
    obtain ⟨first, more, hrow, hfirst⟩ := exists_cons_of_digits? h
    exact ⟨first, more, hrow, .inl hfirst⟩
  | signed hrow h => exact ⟨'+', _, hrow, .inr rfl⟩

theorem isBlank_of_numeral (h : Numeral row n) :
    ∃ first more, row = first :: more ∧ isBlank first = false := by
  obtain ⟨first, more, hrow, hfirst | rfl⟩ := exists_cons_of_numeral h
  · exact ⟨first, more, hrow, isBlank_of_isPlain (isPlain_of_isDigit hfirst)⟩
  · exact ⟨'+', more, hrow, rfl⟩

theorem trimStart_of_numeral (h : Numeral row n) : trimStart row = row := by
  obtain ⟨first, more, rfl, hfirst⟩ := isBlank_of_numeral h
  exact List.dropWhile_cons_of_neg (by simp [hfirst])

theorem notMem_of_numeral (h : Numeral (trimStart field) n) (hdigit : c.isDigit = false)
    (hblank : isBlank c = false) (hplus : c ≠ '+') : c ∉ field := by
  have hrow : ∀ {row}, digits? row = some n → c ∉ row := fun {row} hrow hc =>
    absurd (hdigit.symm.trans ((digits?_eq_some_iff.mp hrow).2.1 c hc)) Bool.false_ne_true
  have hfield : field.takeWhile isBlank ++ trimStart field = field :=
    List.takeWhile_append_dropWhile
  rw [← hfield, List.mem_append]
  rintro (hc | hc)
  · exact absurd (hblank.symm.trans (List.mem_takeWhile_imp hc)) Bool.false_ne_true
  · cases h with
    | plain h => exact hrow h hc
    | signed htext h =>
      rw [htext, List.mem_cons] at hc
      exact hc.elim hplus (hrow h)

/-! ### The front of a text -/

theorem isDigit_of_mem_head? (hc : c.isDigit = false) (rest : List Char) :
    ∀ d ∈ (c :: rest).head?, d.isDigit = false := fun d hd => by
  obtain rfl := Option.some.inj hd
  exact hc

/-- The row of digits at the front of a text ends before the first character that is none, unless
it is as long as it may be. -/
theorem leadingRow_iff (hrest : ∀ c ∈ rest.head?, c.isDigit = false) :
    digits? ((text.take width).takeWhile isDigit) = some n ∧
        text.drop ((text.take width).takeWhile isDigit).length = rest ↔
      ∃ row, text = row ++ rest ∧ NumberRow width row n := by
  constructor
  · rintro ⟨hspelled, rfl⟩
    have hstart : (text.take width).takeWhile isDigit <+: text :=
      (List.takeWhile_prefix isDigit).trans (List.take_prefix width text)
    have hshort : ((text.take width).takeWhile isDigit).length ≤ width :=
      Nat.le_trans (List.takeWhile_prefix isDigit).length_le (List.length_take_le width text)
    exact ⟨_, (List.prefix_iff_eq_append.mp hstart).symm, hshort, hspelled⟩
  · rintro ⟨row, rfl, hshort, hspelled⟩
    have hdigits : ∀ c ∈ row, isDigit c = true := (digits?_eq_some_iff.mp hspelled).2.1
    have hend : (rest.take (width - row.length)).takeWhile isDigit = [] := by
      cases rest with
      | nil => rw [List.take_nil, List.takeWhile_nil]
      | cons c rest =>
        have hc : isDigit c = false := hrest c rfl
        cases width - row.length with
        | zero => rfl
        | succ k => exact List.takeWhile_cons_of_neg (by simp [hc])
    have hrow : ((row ++ rest).take width).takeWhile isDigit = row := by
      rw [List.take_append, List.take_of_length_le hshort, List.takeWhile_append_of_pos hdigits,
        hend, List.append_nil]
    rw [hrow]
    exact ⟨hspelled, List.drop_left⟩

/-- The number that starts a text is that of a row behind the blanks. -/
theorem leadingNumber?_iff_row (hrest : ∀ c ∈ rest.head?, c.isDigit = false) :
    leadingNumber? width text = some (n, rest) ↔
      ∃ row, trimStart text = row ++ rest ∧ NumberRow width row n := by
  rw [← leadingRow_iff hrest]
  simp only [leadingNumber?, Option.map_eq_some_iff, Prod.mk.injEq]
  exact ⟨fun ⟨_, hspelled, rfl, hleft⟩ => ⟨hspelled, hleft⟩, fun ⟨h, hleft⟩ => ⟨n, h, rfl, hleft⟩⟩

/-- Where the length has no bound, the number is that of a row too. -/
theorem unbounded_eq_some_iff (hrest : ∀ c ∈ rest.head?, c.isDigit = false) :
    leadingYear?.unbounded text = some (n, rest) ↔
      ∃ row, text = row ++ rest ∧ digits? row = some n := by
  have hrow := @leadingRow_iff text.length n text rest hrest
  rw [List.take_length] at hrow
  simp only [leadingYear?.unbounded, Option.map_eq_some_iff, Prod.mk.injEq]
  constructor
  · rintro ⟨_, hspelled, rfl, hleft⟩
    obtain ⟨row, htext, h⟩ := hrow.mp ⟨hspelled, hleft⟩
    exact ⟨row, htext, h.spelled⟩
  · rintro ⟨row, htext, hspelled⟩
    have hshort : row.length ≤ text.length := by simp [htext]
    obtain ⟨hspelled, hleft⟩ := hrow.mpr ⟨row, htext, hshort, hspelled⟩
    exact ⟨n, hspelled, rfl, hleft⟩

/-- The positive year that starts a text is that of a row behind the blanks. -/
theorem leadingYear?_iff_row (hpos : 0 < n) (hrest : ∀ c ∈ rest.head?, c.isDigit = false) :
    leadingYear? text = some ((n : Int), rest) ↔
      ∃ row, trimStart text = row ++ rest ∧ YearRow row n := by
  have hcast : ∀ found : Option (Nat × List Char),
      found.map (fun f => ((f.1 : Int), f.2)) = some ((n : Int), rest) ↔
        found = some (n, rest) := by
    rintro (_ | ⟨m, left⟩)
    · exact iff_of_false nofun nofun
    · simp only [Option.map_some, Option.some.injEq, Prod.mk.injEq, Int.ofNat_inj]
  unfold leadingYear?
  split
  · rename_i tail htext
    -- a year with a minus sign is not positive, and no row of a year starts with one
    refine iff_of_false (fun h => ?_) ?_
    · obtain ⟨⟨m, left⟩, -, hfound⟩ := Option.map_eq_some_iff.mp h
      have hneg : -(m : Int) = n := (Prod.mk.inj hfound).1
      omega
    · rintro ⟨row, hrow, h⟩
      obtain ⟨first, more, rfl, hfirst⟩ := exists_cons_of_numeral h.numeral
      obtain rfl := (List.cons.inj (htext.symm.trans hrow)).1
      rcases hfirst with hdigit | hplus
      · cases hdigit
      · cases hplus
  · rename_i tail htext
    rw [hcast, unbounded_eq_some_iff hrest, htext]
    constructor
    · rintro ⟨digits, rfl, hspelled⟩
      exact ⟨'+' :: digits, rfl, .signed rfl hspelled⟩
    · rintro ⟨row, hrow, h⟩
      cases h with
      | short h =>
        obtain ⟨first, more, rfl, hdigit⟩ := exists_cons_of_digits? h.spelled
        obtain rfl := (List.cons.inj hrow).1
        cases hdigit
      | signed hsign hspelled =>
        subst hsign
        exact ⟨_, (List.cons.inj hrow).2, hspelled⟩
  · rename_i hminus hplus
    have hidem : trimStart (trimStart text) = trimStart text := List.dropWhile_idempotent _ _
    rw [hcast, leadingNumber?_iff_row hrest, hidem]
    refine exists_congr fun row => and_congr_right fun hrow => ⟨.short, fun h => ?_⟩
    cases h with
    | short h => exact h
    | signed hsign => exact absurd hrow (by rw [hsign]; exact hplus _)

/-! ### Fields -/

/-- Blanks before a row belong to the field that ends with it. -/
theorem exists_field_iff {Row : List Char → Prop} (hrow : ∀ row, Row row → Numeral row n) :
    (∃ row, trimStart text = row ++ rest ∧ Row row) ↔
      ∃ field, text = field ++ rest ∧ Row (trimStart field) := by
  have hblanks : text.takeWhile isBlank ++ trimStart text = text :=
    List.takeWhile_append_dropWhile
  constructor
  · rintro ⟨row, htext, h⟩
    have htrim : trimStart (text.takeWhile isBlank ++ row) = row := by
      rw [trimStart, List.dropWhile_append_of_pos fun c => List.mem_takeWhile_imp]
      exact trimStart_of_numeral (hrow row h)
    refine ⟨text.takeWhile isBlank ++ row, ?_, by rwa [htrim]⟩
    rw [List.append_assoc, ← htext, hblanks]
  · rintro ⟨field, rfl, h⟩
    obtain ⟨first, more, hfield, -⟩ := isBlank_of_numeral (hrow _ h)
    have hne : ¬ (field.dropWhile isBlank).isEmpty = true := by
      rw [show field.dropWhile isBlank = first :: more from hfield]
      exact Bool.false_ne_true
    refine ⟨trimStart field, ?_, h⟩
    rw [trimStart, List.dropWhile_append, if_neg hne, trimStart]

/-- The number that starts a text fills the field in front of what is left. -/
theorem leadingNumber?_eq_some_iff (hrest : ∀ c ∈ rest.head?, c.isDigit = false) :
    leadingNumber? width text = some (n, rest) ↔
      ∃ field, text = field ++ rest ∧ NumberRow width (trimStart field) n := by
  rw [leadingNumber?_iff_row hrest, exists_field_iff fun row => NumberRow.numeral]

/-- A number before a separator fills the field that ends there. -/
theorem leadingNumber?_append_iff {tail : List Char} (hdigit : c.isDigit = false)
    (hblank : isBlank c = false) (hplus : c ≠ '+') (hfield : c ∉ field) :
    leadingNumber? width (field ++ c :: rest) = some (n, c :: tail) ↔
      NumberRow width (trimStart field) n ∧ tail = rest := by
  rw [leadingNumber?_eq_some_iff (isDigit_of_mem_head? hdigit tail)]
  constructor
  · rintro ⟨other, htext, h⟩
    have hother : c ∉ other := notMem_of_numeral h.numeral hdigit hblank hplus
    obtain ⟨rfl, hrest⟩ := append_inj_of_notMem hfield hother (.inr ⟨_, rfl⟩) (.inr ⟨_, rfl⟩) htext
    exact ⟨h, (List.cons.inj hrest).2.symm⟩
  · rintro ⟨h, rfl⟩
    exact ⟨field, rfl, h⟩

/-- The positive year that starts a text fills the field in front of what is left. -/
theorem leadingYear?_eq_some_iff (hpos : 0 < n) (hrest : ∀ c ∈ rest.head?, c.isDigit = false) :
    leadingYear? text = some ((n : Int), rest) ↔
      ∃ field, text = field ++ rest ∧ YearRow (trimStart field) n := by
  rw [leadingYear?_iff_row hpos hrest, exists_field_iff fun row => YearRow.numeral]

theorem hasStar_iff : hasStar text = true ↔ '*' ∈ text := by
  simp [hasStar]

theorem after?_eq_some_iff : after? c text = some rest ↔ text = c :: rest := by
  cases text with
  | nil => simp [after?]
  | cons first row => simp [after?]

theorem not_numeral_star : ¬ Numeral ['*'] n := fun h => by
  obtain ⟨first, more, hrow, hfirst⟩ := exists_cons_of_numeral h
  obtain rfl := (List.cons.inj hrow).1
  rcases hfirst with h | h <;> cases h

/-- What a field stands for where there are stars: nothing, or the number that it spells. -/
theorem field?_eq_some_iff {low high : Nat} {octet : UInt8} :
    field? low high field = some octet ↔
      field = ['*'] ∧ octet = unspecified ∨
        Numeral field octet.toNat ∧ low ≤ octet.toNat ∧ octet.toNat ≤ high := by
  rw [field?]
  split
  · rename_i hstar
    subst hstar
    simp [not_numeral_star, eq_comm]
  · rename_i hstar
    simp only [hstar, false_and, false_or, Option.map_eq_some_iff, Option.filter_eq_some_iff,
      Bool.and_eq_true, decide_eq_true_eq, natural?_eq_some_iff]
    constructor
    · rintro ⟨n, ⟨⟨hspelled, hbound⟩, hrange⟩, rfl⟩
      rw [UInt8.toNat_ofNat_of_lt' (Nat.lt_succ_of_le hbound)]
      exact ⟨hspelled, hrange⟩
    · rintro ⟨hspelled, hrange⟩
      have hbound : octet.toNat ≤ 255 := Nat.le_of_lt_succ octet.toNat_lt
      exact ⟨octet.toNat, ⟨⟨hspelled, hbound⟩, hrange⟩, UInt8.ofNat_toNat⟩

/-! ### Parts as they are shown -/

theorem partText_cases (octet : UInt8) :
    octet = unspecified ∧ (partText octet).toList = ['*'] ∨
      octet ≠ unspecified ∧ (partText octet).toList = (twoDigits octet.toNat).toList ∧
        digits? (partText octet).toList = some octet.toNat := by
  rw [partText]
  split
  · rename_i h
    exact .inl ⟨h, rfl⟩
  · rename_i h
    exact .inr ⟨h, rfl, digits?_twoDigits _⟩

/-- A star is shown for nothing else than a part that is unspecified. -/
theorem star_mem_partText_iff {octet : UInt8} :
    '*' ∈ (partText octet).toList ↔ octet = unspecified := by
  obtain ⟨h, htext⟩ | ⟨h, -, hspelled⟩ := partText_cases octet
  · exact iff_of_true (htext ▸ List.mem_singleton_self '*') h
  · refine iff_of_false (fun hstar => ?_) h
    cases (digits?_eq_some_iff.mp hspelled).2.1 _ hstar

/-- What the fields of a date or a time are made of where nothing else is around them: digits and
stars. -/
def IsFieldChar (c : Char) : Prop := c = '*' ∨ c.isDigit = true

theorem isBlank_of_isFieldChar (h : IsFieldChar c) : isBlank c = false := by
  obtain rfl | h := h
  · rfl
  · exact isBlank_of_isPlain (isPlain_of_isDigit h)

theorem notMem_of_isFieldChar (hdigit : c.isDigit = false) (hstar : c ≠ '*')
    (h : ∀ d ∈ field, IsFieldChar d) : c ∉ field := fun hc => by
  obtain hc | hc := h c hc
  · exact hstar hc
  · exact absurd (hdigit.symm.trans hc) Bool.false_ne_true

theorem isFieldChar_of_mem_partText {octet : UInt8} (h : c ∈ (partText octet).toList) :
    IsFieldChar c := by
  obtain ⟨-, htext⟩ | ⟨-, -, hspelled⟩ := partText_cases octet
  · exact .inl (List.mem_singleton.mp (htext ▸ h))
  · exact .inr ((digits?_eq_some_iff.mp hspelled).2.1 c h)

theorem notMem_partText (hdigit : c.isDigit = false) (hstar : c ≠ '*') (octet : UInt8) :
    c ∉ (partText octet).toList :=
  notMem_of_isFieldChar hdigit hstar fun _ => isFieldChar_of_mem_partText

/-- What shows a part is read as the part where there are stars, if it lies between the bounds. -/
theorem field?_partText_iff {low high : Nat} {octet : UInt8} :
    field? low high (partText octet).toList = some octet ↔
      octet = unspecified ∨ low ≤ octet.toNat ∧ octet.toNat ≤ high := by
  rw [field?_eq_some_iff]
  obtain ⟨h, htext⟩ | ⟨h, -, hspelled⟩ := partText_cases octet
  · exact iff_of_true (.inl ⟨htext, h⟩) (.inl h)
  · simp [h, Numeral.plain hspelled]

/-- What shows a part is read as the part where there are no stars, if two digits are enough. -/
theorem numberRow_partText {octet : UInt8} (h : octet.toNat < 100) :
    NumberRow 2 (trimStart (partText octet).toList) octet.toNat := by
  obtain ⟨rfl, -⟩ | ⟨-, htext, hspelled⟩ := partText_cases octet
  · cases Nat.not_lt_of_le (show 100 ≤ unspecified.toNat by decide) h
  · rw [trimStart_of_numeral (.plain hspelled)]
    exact ⟨by rw [htext, length_twoDigits _ h], hspelled⟩

end Fieldbus.Literal
