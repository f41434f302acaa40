import Fieldbus.Proofs.Value.Grammar

/-!
# The kind that octets tell

The tag of a value tells its kind, whatever it is read as.  An atomic datatype takes the values of
its own kind, each as the value that it is for any primitive datatype, and refuses all others.  So
octets are never read as values of two kinds, and an array of an atomic datatype holds what the
datatype alone would take.

Three things can be wrong, and the first that is found counts: there is no value at the front of the
octets, which no datatype changes; its kind is another than that of the datatype; something stands
behind it.

## Main definitions

* `Value.kind?`: the kind of a primitive value.

## Main results

* `Atom.decode_of_atom_eq_ok`: what comes of octets with a value at their front.
* `Value.decode_of_isAtomic`: an atomic datatype reads the values of its kind, and no others.
-/

namespace Fieldbus

variable {datatype : Datatype} {input : List UInt8}

/-- The kind of a value, unless it is an array. -/
def Value.kind? : Value → Option Kind
  | .atom value => some value.kind
  | .array _ => none

theorem Datatype.admits_iff_of_isAtomic (h : datatype.isAtomic = true) {kind : Kind} :
    datatype.admits kind = true ↔ datatype.kind? = some kind := by
  have hany : datatype ≠ .anyAtomic := by
    rintro rfl
    cases h
  simp [admits, hany]

/-! ### One value -/

/-- The kind of the value at the front is looked at before what stands behind it. -/
theorem Atom.decode_of_atom_eq_ok {value : Atom} {rest : List UInt8}
    (h : Decode.atom input = .ok (value, rest)) (datatype : Datatype) :
    Atom.decode input datatype =
      if datatype.admits value.kind then
        if rest.isEmpty then .ok value else .error (.trailingBytes rest.length)
      else .error (.unexpectedTag datatype value.kind) := by
  by_cases hadmits : datatype.admits value.kind = true
  · simp only [Atom.decode, Decode.expected, h, bind, Except.bind, if_pos hadmits, pure,
      Except.pure]
  · simp only [Atom.decode, Decode.expected, h, bind, Except.bind, if_neg hadmits]

theorem Spells.atom_eq_ok {value : Atom} (h : Spells input value) :
    Decode.atom input = .ok (value, []) :=
  Decode.atom_eq_ok_iff.mpr ⟨input, h, (List.append_nil input).symm⟩

theorem Spells.eq {value value' : Atom} (h : Spells input value) (h' : Spells input value') :
    value = value' := by
  have hsame := h.atom_eq_ok.symm.trans h'.atom_eq_ok
  exact (Prod.mk.inj (Except.ok.inj hsame)).1

/-- A row of octets that spells a value is read as the value by a datatype that admits its kind, and
refused for its kind by any other. -/
theorem Atom.decode_of_spells {value : Atom} (h : Spells input value) (datatype : Datatype) :
    Atom.decode input datatype =
      if datatype.admits value.kind then .ok value
      else .error (.unexpectedTag datatype value.kind) := by
  rw [decode_of_atom_eq_ok h.atom_eq_ok]
  rfl

theorem Value.decode_eq_map_of_isAtomic (h : datatype.isAtomic = true) (input : List UInt8) :
    Value.decode input datatype = (Atom.decode input datatype).map .atom := by
  cases datatype with
  | array element => cases h
  | _ => rfl

theorem Value.decode_of_spells (h : datatype.isAtomic = true) {value : Atom}
    (hspells : Spells input value) :
    Value.decode input datatype =
      if datatype.kind? = some value.kind then .ok (.atom value)
      else .error (.unexpectedTag datatype value.kind) := by
  rw [decode_eq_map_of_isAtomic h, Atom.decode_of_spells hspells]
  simp only [Datatype.admits_iff_of_isAtomic h]
  split <;> rfl

/-! ### Arrays of one value -/

theorem Value.decode_array_of_spells {value : Atom} (h : Spells input value)
    (hadmits : datatype.admits value.kind = true) :
    Value.decode input (.array datatype) = .ok (.array [.atom value]) := by
  have hexpected : Decode.expected datatype input = .ok (value, []) :=
    Decode.expected_eq_ok_iff.mpr ⟨hadmits, input, h, (List.append_nil input).symm⟩
  have hend : ∀ fuel, Decode.elements datatype fuel [] = .ok [] := by
    rintro (_ | fuel) <;> rfl
  cases input with
  | nil => cases hexpected
  | cons first rest =>
    have helements : Decode.elements datatype (first :: rest).length (first :: rest) =
        .ok [value] := by
      simp only [List.length_cons, Decode.elements, List.isEmpty_cons, Bool.false_eq_true,
        if_false, hexpected, hend, bind, Except.bind, pure, Except.pure]
    rw [Value.decode, helements]
    rfl

/-! ### Kinds -/

/-- **Octets are values of one kind.**  What an atomic datatype takes is a value of its kind, which
is the same value for any primitive datatype and the only element of an array of the datatype.  What
is a value for any primitive datatype is that value for an atomic one of its kind, and for another
an error that names the datatype and the kind of the value.  So no octets are taken by two atomic
datatypes of different kinds. -/
theorem Value.decode_of_isAtomic (h : datatype.isAtomic = true) (input : List UInt8) :
    (∀ value, Value.decode input datatype = .ok value →
      value.kind? = datatype.kind? ∧ Value.decode input .anyAtomic = .ok value ∧
        Value.decode input (.array datatype) = .ok (.array [value])) ∧
    (∀ value, Value.decode input .anyAtomic = .ok value →
      (value.kind? = datatype.kind? → Value.decode input datatype = .ok value) ∧
      (value.kind? ≠ datatype.kind? → ∃ found, value.kind? = some found ∧
        found.text = value.typeName ∧
        Value.decode input datatype = .error (.unexpectedTag datatype found))) ∧
    ∀ other : Datatype, other.isAtomic = true → ∀ value value',
      Value.decode input datatype = .ok value → Value.decode input other = .ok value' →
        datatype.kind? = other.kind? := by
  -- an atomic datatype takes what is spelt, if it is of its kind
  have htaken : ∀ {datatype : Datatype}, datatype.isAtomic = true → ∀ {value : Value},
      Value.decode input datatype = .ok value →
        ∃ atom, value = .atom atom ∧ Spells input atom ∧ datatype.kind? = some atom.kind := by
    intro datatype hatomic value hvalue
    rw [decode_eq_map_of_isAtomic hatomic, map_eq_ok_iff] at hvalue
    obtain ⟨atom, hatom, rfl⟩ := hvalue
    obtain ⟨hadmits, hspells⟩ := Atom.decode_eq_ok_iff.mp hatom
    exact ⟨atom, rfl, hspells, (Datatype.admits_iff_of_isAtomic hatomic).mp hadmits⟩
  refine ⟨fun value hvalue => ?_, fun value hvalue => ?_, fun other hother value value' hvalue
    hvalue' => ?_⟩
  · obtain ⟨atom, rfl, hspells, hkind⟩ := htaken h hvalue
    exact ⟨hkind.symm, (decode_anyAtomic_eq_ok_iff input _).mpr ⟨atom, rfl, hspells⟩,
      decode_array_of_spells hspells ((Datatype.admits_iff_of_isAtomic h).mpr hkind)⟩
  · obtain ⟨atom, rfl, hspells⟩ := (decode_anyAtomic_eq_ok_iff input value).mp hvalue
    rw [decode_of_spells h hspells]
    exact ⟨fun hkind => if_pos hkind.symm,
      fun hkind => ⟨atom.kind, rfl, rfl, if_neg (Ne.symm hkind)⟩⟩
  · obtain ⟨atom, -, hspells, hkind⟩ := htaken h hvalue
    obtain ⟨atom', -, hspells', hkind'⟩ := htaken hother hvalue'
    rw [hkind, hkind', hspells.eq hspells']

/-- The number seven, spelt with more octets than it needs, is a number for whoever reads it, and
never a date. -/
theorem Value.decode_of_isAtomic_seven :
    let input : List UInt8 := [0xF5, 2, 254, 0, 2, 0, 7]
    let seven : Value := .atom (.unsigned 7)
    Datatype.unsigned.isAtomic = true ∧ Datatype.date.isAtomic = true ∧
      Value.decode input .unsigned = .ok seven ∧ seven.kind? = some .unsigned ∧
      Value.decode input .anyAtomic = .ok seven ∧
      Value.decode input (.array .unsigned) = .ok (.array [seven]) ∧
      Value.decode input .date = .error (.unexpectedTag .date .unsigned) := by
  intro input seven
  have hseven : Value.decode input .unsigned = .ok seven := rfl
  obtain ⟨hkind, hany, harray⟩ := (@decode_of_isAtomic .unsigned rfl input).1 seven hseven
  obtain ⟨found, hfound, -, hdate⟩ :=
    ((@decode_of_isAtomic .date rfl input).2.1 seven hany).2 (by decide)
  obtain rfl := Option.some.inj hfound
  exact ⟨rfl, rfl, hseven, hkind, hany, harray, hdate⟩

end Fieldbus
