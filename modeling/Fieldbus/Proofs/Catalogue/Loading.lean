import Mathlib.Data.List.Nodup
import Fieldbus.Proofs.Catalogue.Entry

/-!
# Loading named entries

A catalogue is made of named entries one after the other.  Where the names differ in more than their
spelling no entry displaces another, so the catalogue has one definition for each, and the order in
which the entries are taken shows in nothing that can be asked of it.  The first entry at fault ends
the loading, and then there is no catalogue.

## Main definitions

* `Catalogue.Answers`, `Catalogue.IsSilent`: what a catalogue answers about an object type.
* `Catalogue.Holds`: a catalogue that says what some entries say, and nothing else.
* `Catalogue.Loads`: what loading some entries has to come to.

## Main results

* `Catalogue.ofEntries_cases`: the catalogue of valid entries, and the error for others.
* `Catalogue.loads_ofEntries`: what loading entries comes to, in whatever order they are taken.
-/

namespace Fieldbus.Catalogue

/-! ### Taking one entry after the other -/

/-- The folded names of named entries. -/
def keys (rows : List (String × Entry)) : List (List Char) := rows.map fun row => Name.fold row.1

/-- What a catalogue has for a named entry. -/
def binding (row : String × Entry) : List Char × Definition := (Name.fold row.1, row.2.meant)

/-- The catalogue with a named entry taken in, if the entry is valid. -/
def take (catalogue : Catalogue) (row : String × Entry) : Except CatalogueError Catalogue := do
  return catalogue.insert row.1 (← row.2.definition row.1)

theorem put_of_notMem {key : List Char} {definitions : List (List Char × Definition)}
    (h : key ∉ definitions.map Prod.fst) (definition : Definition) :
    put key definition definitions = definitions ++ [(key, definition)] := by
  induction definitions with
  | nil => rfl
  | cons first rest ih =>
    rw [List.map_cons, List.mem_cons, not_or] at h
    rw [put, if_neg h.1, ih h.2, List.cons_append]

/-- Entries that are taken in under new names come behind those that are there, up to the first one
at fault. -/
theorem foldlM_take_cases {rows : List (String × Entry)} {catalogue : Catalogue}
    (hkeys : (catalogue.definitions.map Prod.fst ++ keys rows).Nodup) :
    (∀ row ∈ rows, row.2.IsValid) ∧
        rows.foldlM take catalogue = .ok ⟨catalogue.definitions ++ rows.map binding⟩ ∨
      ∃ row ∈ rows, ∃ error, row.2.Fault row.1 error ∧
        rows.foldlM take catalogue = .error error := by
  induction rows generalizing catalogue with
  | nil => exact .inl ⟨nofun, by rw [List.map_nil, List.append_nil]; rfl⟩
  | cons row rest ih =>
    rw [List.foldlM_cons, take]
    rcases row.2.definition_cases row.1 with ⟨hvalid, hdefinition⟩ | ⟨error, hfault, hdefinition⟩
    · have hnew : Name.fold row.1 ∉ catalogue.definitions.map Prod.fst := fun hmem =>
        List.disjoint_of_nodup_append hkeys hmem List.mem_cons_self
      have hinsert : (catalogue.insert row.1 row.2.meant).definitions =
          catalogue.definitions ++ [binding row] := put_of_notMem hnew _
      have hrest : ((catalogue.insert row.1 row.2.meant).definitions.map Prod.fst ++
          keys rest).Nodup := by
        rw [hinsert, List.map_append, List.append_assoc]
        exact hkeys
      rw [hdefinition]
      rcases ih hrest with ⟨hall, hloaded⟩ | ⟨other, hother, error, hfault, hfailed⟩
      · rw [hinsert, List.append_assoc] at hloaded
        exact .inl ⟨List.forall_mem_cons.mpr ⟨hvalid, hall⟩, hloaded⟩
      · exact .inr ⟨other, List.mem_cons_of_mem _ hother, error, hfault, hfailed⟩
    · rw [hdefinition]
      exact .inr ⟨row, List.mem_cons_self, error, hfault, rfl⟩

/-- **Entries under different names are loaded as a whole or not at all.** -/
theorem ofEntries_cases {rows : List (String × Entry)} (hkeys : (keys rows).Nodup) :
    (∀ row ∈ rows, row.2.IsValid) ∧ ofEntries rows = .ok ⟨rows.map binding⟩ ∨
      ∃ row ∈ rows, ∃ error, row.2.Fault row.1 error ∧ ofEntries rows = .error error :=
  @foldlM_take_cases rows empty hkeys

/-! ### What catalogues answer -/

/-- What a catalogue answers, when asked by some spelling of a name, about the object type of an
entry. -/
structure Answers (catalogue : Catalogue) (query : String) (entry : Entry) : Prop where
  found : ∃ definition, catalogue.find? query = some definition ∧ entry.Defines definition
  writable : catalogue.isWritable query = true ↔ entry.access = "R/W"
  meaning : (catalogue.meaning query).text = entry.meaning
  representation : (catalogue.representation query).text = entry.representation
  standIn : ∀ value, catalogue.standIn query = some value ↔ value = entry.standIn ∧ value ≠ .null

/-- What a catalogue answers about an object type that it does not define. -/
structure IsSilent (catalogue : Catalogue) (query : String) : Prop where
  found : catalogue.find? query = none
  writable : catalogue.isWritable query = false
  meaning : catalogue.meaning query = .unknown
  representation : catalogue.representation query = .string
  standIn : catalogue.standIn query = none

/-- A catalogue that says what named entries say, and nothing else. -/
structure Holds (catalogue : Catalogue) (rows : List (String × Entry)) : Prop where
  size : catalogue.size = rows.length
  answers : ∀ query, ∀ row ∈ rows, Name.fold row.1 = Name.fold query → catalogue.Answers query row.2
  silent : ∀ query, (∀ row ∈ rows, Name.fold row.1 ≠ Name.fold query) → catalogue.IsSilent query

/-- What loading named entries has to come to. -/
structure Loads (rows : List (String × Entry)) (result : Except CatalogueError Catalogue) :
    Prop where
  exists_ok_iff : (∃ catalogue, result = .ok catalogue) ↔ ∀ row ∈ rows, row.2.IsValid
  holds : ∀ catalogue, result = .ok catalogue → catalogue.Holds rows
  fault : ∀ error, result = .error error → ∃ row ∈ rows, row.2.Fault row.1 error

variable {catalogue : Catalogue} {query : String}

/-- A catalogue answers by the definition that it finds. -/
theorem answers_of_find? {entry : Entry} {definition : Definition}
    (hfound : catalogue.find? query = some definition) (hdefines : entry.Defines definition) :
    catalogue.Answers query entry := by
  refine ⟨⟨definition, hfound, hdefines⟩, ?_, ?_, ?_, ?_⟩
  · have hword : definition.access = .readWrite ↔ entry.access = "R/W" := by
      rw [← hdefines.access]
      cases definition.access <;> decide
    rw [isWritable, hfound, Option.any_some, decide_eq_true_iff, hword]
  · rw [meaning, hfound]
    exact hdefines.meaning
  · rw [representation, hfound]
    exact hdefines.representation
  · rw [standIn, hfound]
    exact hdefines.standIn

theorem isSilent_of_find? (h : catalogue.find? query = none) : catalogue.IsSilent query :=
  ⟨h, by rw [isWritable, h]; rfl, by rw [meaning, h]; rfl, by rw [representation, h]; rfl,
    by rw [standIn, h]; rfl⟩

variable {rows order : List (String × Entry)}

/-- Where names differ, a definition is found by every spelling of its name. -/
theorem find?_of_mem (hkeys : (keys rows).Nodup) {row : String × Entry} (hrow : row ∈ rows)
    (hquery : Name.fold row.1 = Name.fold query) :
    Catalogue.find? ⟨rows.map binding⟩ query = some row.2.meant := by
  obtain ⟨before, after, rfl⟩ := List.append_of_mem hrow
  rw [keys, List.map_append, List.map_cons] at hkeys
  refine List.lookup_eq_some_iff.mpr ⟨before.map binding, after.map binding, ?_, ?_⟩
  · rw [List.map_append, List.map_cons, binding, hquery]
  · intro other hother
    obtain ⟨earlier, hearlier, rfl⟩ := List.mem_map.mp hother
    rw [bne_iff_ne, ← hquery]
    intro hsame
    exact List.disjoint_of_nodup_append hkeys (List.mem_map_of_mem hearlier)
      (hsame ▸ List.mem_cons_self)

theorem find?_of_forall_ne (h : ∀ row ∈ rows, Name.fold row.1 ≠ Name.fold query) :
    Catalogue.find? ⟨rows.map binding⟩ query = none := by
  refine List.lookup_eq_none_iff.mpr fun other hother => ?_
  obtain ⟨row, hrow, rfl⟩ := List.mem_map.mp hother
  exact bne_iff_ne.mpr (h row hrow).symm

/-- The catalogue of valid entries holds them. -/
theorem holds_bindings (hkeys : (keys rows).Nodup) (hvalid : ∀ row ∈ rows, row.2.IsValid) :
    Holds ⟨rows.map binding⟩ rows where
  size := List.length_map _
  answers _ row hrow hquery :=
    answers_of_find? (find?_of_mem hkeys hrow hquery) (hvalid row hrow).defines
  silent _ h := isSilent_of_find? (find?_of_forall_ne h)

/-- **Entries under different names are loaded as they are.** -/
theorem loads_ofEntries (hkeys : (keys rows).Nodup) : Loads rows (ofEntries rows) := by
  rcases ofEntries_cases hkeys with ⟨hvalid, hloaded⟩ | ⟨row, hrow, error, hfault, hfailed⟩
  · rw [hloaded]
    refine ⟨⟨fun _ => hvalid, fun _ => ⟨_, rfl⟩⟩, ?_, nofun⟩
    rintro catalogue ⟨⟩
    exact holds_bindings hkeys hvalid
  · rw [hfailed]
    refine ⟨⟨nofun, fun hvalid => absurd (hvalid row hrow) hfault.not_isValid⟩, nofun, ?_⟩
    rintro other ⟨⟩
    exact ⟨row, hrow, hfault⟩

/-! ### Other orders -/

theorem keys_perm (h : order.Perm rows) : (keys order).Perm (keys rows) := h.map _

/-- What a catalogue holds does not depend on the order of the entries. -/
theorem Holds.of_perm (h : catalogue.Holds order) (horder : order.Perm rows) :
    catalogue.Holds rows where
  size := h.size.trans horder.length_eq
  answers query row hrow := h.answers query row (horder.mem_iff.mpr hrow)
  silent query hnone := h.silent query fun row hrow => hnone row (horder.mem_iff.mp hrow)

theorem Loads.of_perm {result : Except CatalogueError Catalogue} (h : Loads order result)
    (horder : order.Perm rows) : Loads rows result where
  exists_ok_iff := h.exists_ok_iff.trans
    (forall_congr' fun _ => imp_congr_left horder.mem_iff)
  holds catalogue hok := (h.holds catalogue hok).of_perm horder
  fault error herror := by
    obtain ⟨row, hrow, hfault⟩ := h.fault error herror
    exact ⟨row, horder.mem_iff.mp hrow, hfault⟩

/-- In whatever order valid entries are taken, the definitions are the same. -/
theorem perm_definitions (hkeys : (keys rows).Nodup) (horder : order.Perm rows)
    {first second : Catalogue} (hfirst : ofEntries order = .ok first)
    (hsecond : ofEntries rows = .ok second) : first.definitions.Perm second.definitions := by
  have hok : ∀ {rows : List (String × Entry)} {catalogue : Catalogue}, (keys rows).Nodup →
      ofEntries rows = .ok catalogue → catalogue.definitions = rows.map binding := by
    intro rows catalogue hkeys hok
    rcases ofEntries_cases hkeys with ⟨-, hloaded⟩ | ⟨-, -, error, -, hfailed⟩
    · cases hok.symm.trans hloaded
      rfl
    · cases hok.symm.trans hfailed
  rw [hok ((keys_perm horder).nodup_iff.mpr hkeys) hfirst, hok hkeys hsecond]
  exact horder.map _

end Fieldbus.Catalogue
