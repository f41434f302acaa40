import Mathlib.Logic.Basic
import Fieldbus.Catalogue.Document

/-!
# Entries and their definitions

An entry of a catalogue document says in words what a definition says: whether present values may be
written, what they mean and how they are represented.  An entry with known words gives the
definition that has these spellings; of another entry the first unknown word is found at fault.

## Main definitions

* `Catalogue.Entry.Defines`: an entry says in words what a definition says.
* `Catalogue.Entry.IsValid`: the words of an entry are known.
* `Catalogue.Entry.Fault`: the first unknown word of an entry, as an error names it.
* `Catalogue.Entry.meant`: the definition that known words mean.

## Main results

* `Catalogue.Entry.definition_cases`: an entry gives its definition, or is at fault.
* `Catalogue.Entry.IsValid.defines`: what the definition of an entry says.
-/

namespace Fieldbus

/-! ### Words -/

/-- In a table of spellings the word for a thing is found to mean the thing. -/
theorem lookup_spellings_eq_some_iff {α : Type} {spellings : List (String × α)} {spell : α → String}
    (hspells : ∀ entry ∈ spellings, spell entry.2 = entry.1)
    (hfound : ∀ thing, spellings.lookup (spell thing) = some thing) {word : String} {thing : α} :
    spellings.lookup word = some thing ↔ spell thing = word := by
  constructor
  · intro h
    obtain ⟨before, after, htable, -⟩ := List.lookup_eq_some_iff.mp h
    exact hspells (word, thing) (htable ▸ List.mem_append_right _ List.mem_cons_self)
  · rintro rfl
    exact hfound thing

theorem eq_none_iff_not_exists {α : Type} {found? : Option α} {means : α → Prop}
    (hfound : ∀ thing, found? = some thing ↔ means thing) :
    found? = none ↔ ¬ ∃ thing, means thing := by
  rw [Option.eq_none_iff_forall_ne_some, not_exists]
  exact forall_congr' fun thing => not_congr (hfound thing)

theorem Access.ofText?_eq_some_iff {word : String} {access : Access} :
    Access.ofText? word = some access ↔ access.text = word :=
  lookup_spellings_eq_some_iff (by decide) fun access => by cases access <;> rfl

theorem Meaning.ofText?_eq_some_iff {word : String} {meaning : Meaning} :
    Meaning.ofText? word = some meaning ↔ meaning.text = word :=
  lookup_spellings_eq_some_iff (by decide) fun meaning => by cases meaning <;> rfl

theorem Representation.ofText?_eq_some_iff {word : String} {representation : Representation} :
    Representation.ofText? word = some representation ↔ representation.text = word :=
  lookup_spellings_eq_some_iff (by decide) fun representation => by cases representation <;> rfl

namespace Catalogue

namespace Entry

/-! ### What entries say -/

/-- An entry says in words what a definition says; a stand-in that is null is none. -/
structure Defines (entry : Entry) (definition : Definition) : Prop where
  access : definition.access.text = entry.access
  meaning : definition.meaning.text = entry.meaning
  representation : definition.representation.text = entry.representation
  standIn : ∀ value, definition.standIn = some value ↔ value = entry.standIn ∧ value ≠ .null

/-- The access right of an entry is a known one. -/
def HasAccess (entry : Entry) : Prop := entry.access = "R" ∨ entry.access = "R/W"

/-- The meaning of an entry is the word for one. -/
def HasMeaning (entry : Entry) : Prop := ∃ meaning : Meaning, meaning.text = entry.meaning

/-- The representation of an entry is the word for one. -/
def HasRepresentation (entry : Entry) : Prop :=
  ∃ representation : Representation, representation.text = entry.representation

/-- The words of an entry are known. -/
structure IsValid (entry : Entry) : Prop where
  access : entry.HasAccess
  meaning : entry.HasMeaning
  representation : entry.HasRepresentation

/-- The first unknown word of an entry, as the error for the entry under a name has it. -/
inductive Fault (entry : Entry) (name : String) : CatalogueError → Prop
  | access (hunknown : ¬ entry.HasAccess) :
      Fault entry name (.invalidAccess name entry.access)
  | meaning (haccess : entry.HasAccess) (hunknown : ¬ entry.HasMeaning) :
      Fault entry name (.unknownType name "bacnet_type" entry.meaning)
  | representation (haccess : entry.HasAccess) (hmeaning : entry.HasMeaning)
      (hunknown : ¬ entry.HasRepresentation) :
      Fault entry name (.unknownType name "datalayer_type" entry.representation)

/-- The definition that the words of an entry mean, if they are known. -/
def meant (entry : Entry) : Definition where
  access := (Access.ofText? entry.access).getD .read
  meaning := (Meaning.ofText? entry.meaning).getD .unknown
  representation := (Representation.ofText? entry.representation).getD .string
  standIn :=
    match entry.standIn with
    | .null => none
    | value => some value

variable {entry : Entry}

theorem Fault.not_isValid {name : String} {error : CatalogueError} (h : entry.Fault name error) :
    ¬ entry.IsValid := by
  intro hvalid
  cases h with
  | access hunknown => exact hunknown hvalid.access
  | meaning _ hunknown => exact hunknown hvalid.meaning
  | representation _ _ hunknown => exact hunknown hvalid.representation

theorem hasAccess_iff : entry.HasAccess ↔ ∃ access : Access, access.text = entry.access := by
  constructor
  · rintro (h | h)
    · exact ⟨.read, h.symm⟩
    · exact ⟨.readWrite, h.symm⟩
  · rintro ⟨access, h⟩
    cases access with
    | read => exact .inl h.symm
    | readWrite => exact .inr h.symm

theorem standIn_meant (entry : Entry) (value : Json) :
    entry.meant.standIn = some value ↔ value = entry.standIn ∧ value ≠ .null := by
  obtain ⟨access, meaning, representation, standIn⟩ := entry
  cases standIn with
  | null => simp +contextual [meant]
  | _ =>
    simp only [meant, Option.some.injEq]
    constructor
    · rintro rfl
      exact ⟨rfl, by rintro ⟨⟩⟩
    · exact fun h => h.1.symm

/-- A definition says what the words of a valid entry mean. -/
theorem IsValid.defines (h : entry.IsValid) : entry.Defines entry.meant := by
  obtain ⟨access, haccess⟩ := hasAccess_iff.mp h.access
  obtain ⟨meaning, hmeaning⟩ := h.meaning
  obtain ⟨representation, hrepresentation⟩ := h.representation
  refine ⟨?_, ?_, ?_, entry.standIn_meant⟩
  · rw [meant, Access.ofText?_eq_some_iff.mpr haccess, Option.getD_some, haccess]
  · rw [meant, Meaning.ofText?_eq_some_iff.mpr hmeaning, Option.getD_some, hmeaning]
  · rw [meant, Representation.ofText?_eq_some_iff.mpr hrepresentation, Option.getD_some,
      hrepresentation]

/-- **An entry with known words gives the definition that they mean**, and any other is at fault. -/
theorem definition_cases (entry : Entry) (name : String) :
    entry.IsValid ∧ entry.definition name = .ok entry.meant ∨
      ∃ error, entry.Fault name error ∧ entry.definition name = .error error := by
  rw [definition, meant]
  cases haccess : Access.ofText? entry.access with
  | none =>
    have hunknown := (eq_none_iff_not_exists fun _ => Access.ofText?_eq_some_iff).mp haccess
    exact .inr ⟨_, .access (hasAccess_iff.not.mpr hunknown), rfl⟩
  | some access =>
    have haccess := hasAccess_iff.mpr ⟨access, Access.ofText?_eq_some_iff.mp haccess⟩
    cases hmeaning : Meaning.ofText? entry.meaning with
    | none =>
      have hunknown := (eq_none_iff_not_exists fun _ => Meaning.ofText?_eq_some_iff).mp hmeaning
      exact .inr ⟨_, .meaning haccess hunknown, rfl⟩
    | some meaning =>
      have hmeaning : entry.HasMeaning := ⟨meaning, Meaning.ofText?_eq_some_iff.mp hmeaning⟩
      cases hrepresentation : Representation.ofText? entry.representation with
      | none =>
        have hunknown := (eq_none_iff_not_exists fun _ =>
          Representation.ofText?_eq_some_iff).mp hrepresentation
        exact .inr ⟨_, .representation haccess hmeaning hunknown, rfl⟩
      | some representation =>
        exact .inl ⟨⟨haccess, hmeaning, representation,
          Representation.ofText?_eq_some_iff.mp hrepresentation⟩, rfl⟩

end Entry

end Catalogue

end Fieldbus
