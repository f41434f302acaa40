import Fieldbus.Datatype.Schema
import Mathlib.Data.List.Basic

/-!
# What the schema knows

Every datatype that the schema knows for a property stands in one of its tables, so what holds of
all entries holds of the datatype of every property.

## Main definitions

* `Schema.datatypes`: the datatypes in the tables.

## Main results

* `Schema.mem_datatypes`: the datatype of a property is one of them.
* `Schema.element?_of_array`: arrays hold no arrays.
-/

namespace Fieldbus.Schema

variable {type : ObjectType} {property : Property} {datatype element : Datatype}

/-- The datatypes in the tables of the schema. -/
def datatypes : List Datatype := (common :: objects.map Prod.snd).flatten.map Prod.snd

/-- What stands in the table of an object type is common to the standard objects, or listed for the
type. -/
theorem mem_tables_of_mem_tableOf {entry : UInt32 × Datatype} (h : entry ∈ tableOf type) :
    entry ∈ (common :: objects.map Prod.snd).flatten := by
  have hown : ∀ {entry : UInt32 × Datatype},
      entry ∈ ((objects.find? fun listed => listed.1 = type).map Prod.snd).getD [] →
        entry ∈ (objects.map Prod.snd).flatten := by
    intro entry hentry
    cases hfound : objects.find? fun listed => listed.1 = type with
    | none => simp [hfound] at hentry
    | some listed =>
      rw [hfound, Option.map_some, Option.getD_some] at hentry
      exact List.mem_flatten_of_mem
        (List.mem_map_of_mem (List.mem_of_find?_eq_some hfound)) hentry
  rw [List.flatten_cons, List.mem_append]
  rw [tableOf] at h
  split at h
  · exact (List.mem_append.mp h).symm.imp_right hown
  · exact .inr (hown h)

/-- The datatype of a property stands in a table. -/
theorem mem_datatypes (h : datatype? type property = some datatype) : datatype ∈ datatypes := by
  obtain ⟨entry, hentry, rfl⟩ := Option.map_eq_some_iff.mp h
  exact List.mem_map_of_mem (mem_tables_of_mem_tableOf (List.mem_of_find?_eq_some hentry))

/-- The elements of an array are no arrays. -/
theorem element?_of_array (h : datatype? type property = some (.array element)) :
    element.element? = none := by
  have hall : ∀ datatype ∈ datatypes, ∀ element ∈ datatype.element?, element.element? = none := by
    decide +kernel
  exact hall _ (mem_datatypes h) element rfl

end Fieldbus.Schema
