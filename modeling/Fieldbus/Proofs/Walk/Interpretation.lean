import Fieldbus.Proofs.Datatype.Schema
import Fieldbus.Proofs.Result
import Fieldbus.Walk.Basic

/-!
# What a reply means to a walk

A walk takes a read acknowledgement apart in its own way, and yet it means the same to a walk as to
a caller who reads a property.  What is decoded for index 0 of an array has to be a length, which
sets the indices to read; of anything else all that identifies an object counts, and the indices
stay.  An acknowledgement that is not decoded means nothing to either of them.

## Main definitions

* `ReadAck.NamesLength`: an acknowledgement names the length of an array.
* `Value.Identifies`: the object identifiers that a value consists of.
* `Walk.absorb`: taking an acknowledgement, with the walk as a state.

## Main results

* `Walk.apply_of_namesLength`, `Walk.apply_of_not_namesLength`: what a walk makes of an
  acknowledgement is made of what it is decoded to.
* `Walk.follows_absorb`: the walk is written to only where an acknowledgement is accepted.
* `Walk.apply_iff_decode`: which acknowledgements a walk accepts.
-/

namespace Fieldbus

/-- An acknowledgement names the length of an array: index 0 of it. -/
def ReadAck.NamesLength (ack : ReadAck) : Prop :=
  ack.index = some 0 ∧ ∃ element, ack.datatype = .ok (.array element)

/-- A value consists of object identifiers: it is one, or an array of nothing else. -/
inductive Value.Identifies : Value → List ObjectIdentifier → Prop
  | one (id : ObjectIdentifier) : Identifies (.atom (.objectIdentifier id)) [id]
  | row (ids : List ObjectIdentifier) :
      Identifies (.array (ids.map fun id => .atom (.objectIdentifier id))) ids

theorem Datatype.eq_array_of_element?_ne_none {datatype : Datatype} (h : datatype.element? ≠ none) :
    ∃ element, datatype = .array element := by
  cases datatype with
  | array element => exact ⟨element, rfl⟩
  | _ => exact absurd rfl h

theorem Value.exists_atom_of_decode {input : List UInt8} {datatype : Datatype} {value : Value}
    (hflat : datatype.element? = none) (h : Value.decode input datatype = .ok value) :
    ∃ atom, value = .atom atom := by
  have hatom : ∃ atom, Atom.decode input datatype = .ok atom ∧ .atom atom = value := by
    cases datatype with
    | array element => cases hflat
    | _ => exact map_eq_ok_iff.mp h
  obtain ⟨atom, -, rfl⟩ := hatom
  exact ⟨atom, rfl⟩

namespace ReadAck

variable {ack : ReadAck} {datatype : Datatype} {value : Value} {cause : ReplyError}

theorem valueAs_eq_ok_iff :
    ack.valueAs datatype = .ok value ↔ Value.decode ack.octets datatype = .ok value := by
  rw [valueAs]
  cases Value.decode ack.octets datatype <;> simp

theorem decode_of_datatype (h : ack.datatype = .ok datatype) :
    ack.decode = (ack.valueAs (picked datatype ack.index)).map (·, picked datatype ack.index) := by
  rw [decode, h]
  rfl

/-- A property that is no array, or of which no index is named, is picked as a whole. -/
theorem picked_of_whole {index : Option UInt32} (h : datatype.element? = none ∨ index = none) :
    picked datatype index = datatype := by
  rcases h with hflat | rfl
  · simp only [picked, hflat]
  · cases datatype <;> rfl

theorem element?_of_datatype {element : Datatype} (h : ack.datatype = .ok (.array element)) :
    element.element? = none := by
  rw [ReadAck.datatype] at h
  split at h
  · rename_i found hfound
    cases h
    exact Schema.element?_of_array hfound
  · cases h

end ReadAck

namespace Walk

variable {walk : Walk} {ack : ReadAck}

variable {α β : Type}

theorem ofReply_eq_ok_iff {reply : Except ReplyError α} {result : α} :
    ofReply reply = .ok result ↔ reply = .ok result := by
  cases reply <;> simp [ofReply]

/-- What goes on from a reply that is only changed goes on from the reply. -/
theorem ofReply_map_bind (reply : Except ReplyError α) (change : α → β) {γ : Type}
    (next : β → Except WalkError γ) :
    ofReply (reply.map change) >>= next = ofReply reply >>= fun result => next (change result) := by
  cases reply <;> rfl

theorem reference_eq_ok_iff {value : Value} {object : ObjectReference} :
    reference value = .ok object ↔
      ∃ id, value = .atom (.objectIdentifier id) ∧ object = id.reference := by
  constructor
  · intro h
    unfold reference at h
    split at h
    · cases h
      exact ⟨_, rfl, rfl⟩
    · cases h
  · rintro ⟨id, rfl, rfl⟩
    rfl

/-- The elements of a list are taken if each of them identifies an object. -/
theorem mapM_reference_eq_ok_iff {items : List Value} {objects : List ObjectReference} :
    items.mapM reference = .ok objects ↔
      ∃ ids : List ObjectIdentifier, items = ids.map (fun id => .atom (.objectIdentifier id)) ∧
        objects = ids.map ObjectIdentifier.reference := by
  constructor
  · intro h
    induction items generalizing objects with
    | nil =>
      cases h
      exact ⟨[], rfl, rfl⟩
    | cons item rest ih =>
      rw [List.mapM_cons] at h
      obtain ⟨object, hobject, h⟩ := bind_eq_ok_iff.mp h
      obtain ⟨others, hothers, h⟩ := bind_eq_ok_iff.mp h
      cases h
      obtain ⟨id, rfl, rfl⟩ := reference_eq_ok_iff.mp hobject
      obtain ⟨ids, rfl, rfl⟩ := ih hothers
      exact ⟨id :: ids, rfl, rfl⟩
  · rintro ⟨ids, rfl, rfl⟩
    induction ids with
    | nil => rfl
    | cons id ids ih =>
      rw [List.map_cons, List.mapM_cons, ih]
      rfl

/-- The references to the objects that a value consists of. -/
def references : Value → Except WalkError (List ObjectReference)
  | .array items => items.mapM reference
  | single => (reference single).map ([·])

theorem references_eq_ok_iff {value : Value} {objects : List ObjectReference} :
    references value = .ok objects ↔
      ∃ ids, value.Identifies ids ∧ objects = ids.map ObjectIdentifier.reference := by
  cases value with
  | atom value =>
    change (reference (.atom value)).map _ = _ ↔ _
    rw [map_eq_ok_iff]
    constructor
    · rintro ⟨object, hobject, rfl⟩
      obtain ⟨id, hid, rfl⟩ := reference_eq_ok_iff.mp hobject
      exact ⟨[id], hid ▸ .one id, rfl⟩
    · rintro ⟨ids, hids, rfl⟩
      cases hids with
      | one id => exact ⟨id.reference, rfl, rfl⟩
  | array items =>
    rw [references, mapM_reference_eq_ok_iff]
    constructor
    · rintro ⟨ids, rfl, rfl⟩
      exact ⟨ids, .row ids, rfl⟩
    · rintro ⟨ids, hids, rfl⟩
      cases hids with
      | row ids => exact ⟨ids, rfl, rfl⟩

/-- The indices of a list are those up to its length, which has 32 bits. -/
theorem spanOfLength_eq_ok_iff {value : Value} {span : Span} :
    spanOfLength value = .ok span ↔ ∃ count : UInt64, value = .atom (.unsigned count) ∧
      count.toNat < UInt32.size ∧ span = .upTo count.toUInt32 := by
  constructor
  · intro h
    unfold spanOfLength at h
    split at h
    · split at h
      · rename_i count hcount
        cases h
        exact ⟨count, rfl, hcount, rfl⟩
      · cases h
    · cases h
  · rintro ⟨count, rfl, hcount, rfl⟩
    exact if_pos hcount

/-! ### Accepting an acknowledgement -/

/-- What names the length of an array is taken for a length. -/
theorem apply_of_namesLength (h : ack.NamesLength) (walk : Walk) :
    walk.apply ack = ofReply ack.decode >>= fun decoded =>
      (spanOfLength decoded.1).map fun span => ([], span) := by
  obtain ⟨hindex, element, hdatatype⟩ := h
  rw [ReadAck.decode_of_datatype hdatatype, apply, hdatatype, hindex, ofReply_map_bind]
  rfl

/-- An element of an array has to be one object. -/
theorem apply_of_element {element : Datatype} {index : UInt32}
    (hdatatype : ack.datatype = .ok (.array element)) (hindex : ack.index = some index)
    (hne : index ≠ 0) (walk : Walk) :
    walk.apply ack = ofReply (ack.valueAs element) >>= fun value =>
      (reference value).map fun object => ([object], walk.remaining) := by
  rw [apply, hdatatype, hindex]
  change (if index = 0 then _ else _) = _
  rw [if_neg hne]
  rfl

/-- A whole property may be any number of objects. -/
theorem apply_of_whole {datatype : Datatype} (hdatatype : ack.datatype = .ok datatype)
    (hwhole : datatype.element? = none ∨ ack.index = none) (walk : Walk) :
    walk.apply ack = ofReply (ack.valueAs datatype) >>= fun value =>
      (references value).map fun objects => (objects, walk.remaining) := by
  have hvalue : ∀ value : Value,
      (match value with
        | .array items => do return (← items.mapM reference, walk.remaining)
        | single => do return ([← reference single], walk.remaining) :
        Except WalkError (List ObjectReference × Span)) =
      (references value).map fun objects => (objects, walk.remaining) := by
    rintro (value | items)
    · cases value <;> rfl
    · rfl
  rw [apply, hdatatype]
  rcases hwhole with hflat | hindex
  · cases datatype with
    | array element => cases hflat
    | _ => exact bind_congr hvalue
  · rw [hindex]
    cases datatype <;> exact bind_congr hvalue

/-- What names anything else is taken for the objects that it identifies. -/
theorem apply_of_not_namesLength (h : ¬ack.NamesLength) (walk : Walk) :
    walk.apply ack = ofReply ack.decode >>= fun decoded =>
      (references decoded.1).map fun objects => (objects, walk.remaining) := by
  cases hdatatype : ack.datatype with
  | error cause =>
    rw [apply, ReadAck.decode, hdatatype]
    rfl
  | ok datatype =>
    rw [ReadAck.decode_of_datatype hdatatype, ofReply_map_bind]
    by_cases hwhole : datatype.element? = none ∨ ack.index = none
    · rw [apply_of_whole hdatatype hwhole, ReadAck.picked_of_whole hwhole]
    · obtain ⟨helement, hindex⟩ := not_or.mp hwhole
      obtain ⟨element, rfl⟩ := Datatype.eq_array_of_element?_ne_none helement
      obtain ⟨index, hindex⟩ := Option.ne_none_iff_exists'.mp hindex
      have hne : index ≠ 0 := fun hzero => h ⟨hzero ▸ hindex, element, hdatatype⟩
      have hpicked : ReadAck.picked (.array element) ack.index = element := by
        rw [hindex]
        exact if_neg hne
      rw [apply_of_element hdatatype hindex hne, hpicked]
      cases hvalue : ack.valueAs element with
      | error cause => rfl
      | ok value =>
        -- the elements of an array are no arrays, so there is one object or none
        obtain ⟨atom, rfl⟩ := Value.exists_atom_of_decode (ReadAck.element?_of_datatype hdatatype)
          (ReadAck.valueAs_eq_ok_iff.mp hvalue)
        change (reference _).map _ = ((reference _).map _).map _
        cases reference (.atom atom) <;> rfl

/-- An acknowledgement is accepted if it is decoded to a length where it names one, and to objects
elsewhere. -/
theorem apply_eq_ok_iff {objects : List ObjectReference} {span : Span} :
    walk.apply ack = .ok (objects, span) ↔ ∃ value datatype, ack.decode = .ok (value, datatype) ∧
      (ack.NamesLength ∧ spanOfLength value = .ok span ∧ objects = [] ∨
        ¬ack.NamesLength ∧ references value = .ok objects ∧ span = walk.remaining) := by
  by_cases h : ack.NamesLength
  · simp only [apply_of_namesLength h, bind_eq_ok_iff, ofReply_eq_ok_iff, map_eq_ok_iff,
      Prod.exists, Prod.mk.injEq, h, true_and, not_true, false_and, or_false]
    grind
  · simp only [apply_of_not_namesLength h, bind_eq_ok_iff, ofReply_eq_ok_iff, map_eq_ok_iff,
      Prod.exists, Prod.mk.injEq, h, not_false_eq_true, true_and, false_and, false_or]
    grind

theorem apply_of_decode_error {cause : ReplyError} (h : ack.decode = .error cause) (walk : Walk) :
    walk.apply ack = .error (.reply cause) := by
  by_cases hlength : ack.NamesLength
  · rw [apply_of_namesLength hlength, h]
    rfl
  · rw [apply_of_not_namesLength hlength, h]
    rfl

/-! ### The walk as a state -/

/-- Takes an acknowledgement, with the walk as a state.  The indices are set once the length is
known, and the walk is not written to otherwise. -/
def absorb (ack : ReadAck) : ExceptT WalkError (StateM Walk) (List ObjectReference) := do
  let datatype ← liftExcept (ofReply ack.datatype)
  match datatype.element?, ack.index with
  | some element, some index =>
    if index = 0 then
      let value ← liftExcept (ofReply (ack.valueAs .unsigned))
      let span ← liftExcept (spanOfLength value)
      modify fun walk => { walk with remaining := span }
      return []
    else
      let value ← liftExcept (ofReply (ack.valueAs element))
      return [← liftExcept (reference value)]
  | _, _ =>
    match ← liftExcept (ofReply (ack.valueAs datatype)) with
    | .array items => liftExcept (items.mapM reference)
    | single => return [← liftExcept (reference single)]

/-- A computation on a walk follows a result: it gives the objects and sets the indices, or fails
and leaves the walk as it was. -/
def Follows (computation : ExceptT WalkError (StateM Walk) (List ObjectReference)) (walk : Walk)
    (result : Except WalkError (List ObjectReference × Span)) : Prop :=
  computation.run.run walk =
    match result with
    | .ok (objects, span) => (.ok objects, { walk with remaining := span })
    | .error cause => (.error cause, walk)

theorem Follows.pure (objects : List ObjectReference) (walk : Walk) :
    Follows (Pure.pure objects) walk (.ok (objects, walk.remaining)) := rfl

/-- A step that does not look at the walk comes before either. -/
theorem Follows.bind {result : Except WalkError α}
    {next : α → ExceptT WalkError (StateM Walk) (List ObjectReference)}
    {follow : α → Except WalkError (List ObjectReference × Span)} {walk : Walk}
    (h : ∀ value, Follows (next value) walk (follow value)) :
    Follows (liftExcept result >>= next) walk (result >>= follow) := by
  cases result with
  | error cause => rfl
  | ok value => exact h value

/-- Taking an acknowledgement writes to the walk only where the acknowledgement is accepted. -/
theorem follows_absorb (walk : Walk) (ack : ReadAck) :
    Follows (absorb ack) walk (walk.apply ack) := by
  refine Follows.bind fun datatype => ?_
  have hwhole : Follows
      (do match ← liftExcept (ofReply (ack.valueAs datatype)) with
          | .array items => liftExcept (items.mapM reference)
          | single => return [← liftExcept (reference single)]) walk
      (do match ← ofReply (ack.valueAs datatype) with
          | .array items => return (← items.mapM reference, walk.remaining)
          | single => return ([← reference single], walk.remaining)) := by
    refine Follows.bind fun value => ?_
    rcases value with value | items
    · cases value <;> exact Follows.bind fun object => .pure [object] walk
    · change Follows (liftExcept (items.mapM reference)) walk _
      rw [← bind_pure (liftExcept _)]
      exact Follows.bind fun objects => .pure objects walk
  cases helement : datatype.element? with
  | none => exact hwhole
  | some element =>
    cases hindex : ack.index with
    | none => exact hwhole
    | some index =>
      by_cases hzero : index = 0
      · subst hzero
        exact Follows.bind fun value => Follows.bind fun span => rfl
      · change Follows (if index = 0 then _ else _) walk (if index = 0 then _ else _)
        rw [if_neg hzero, if_neg hzero]
        exact Follows.bind fun value => Follows.bind fun object => .pure [object] walk

/-- **An acknowledgement means the same to a walk and to a reader.**  A walk accepts it just if it
is decoded: where it names the length of an array, to a number of 32 bits, which sets the indices
and names no objects; elsewhere to nothing but object identifiers, which are the objects, in order,
and the indices stay.  What is not decoded is refused for that very cause.  As a state the walk is
written to where an acknowledgement is accepted, and stays as it is where one is refused. -/
theorem apply_iff_decode (walk : Walk) (ack : ReadAck) :
    (∀ objects span, walk.apply ack = .ok (objects, span) ↔
      ∃ value datatype, ack.decode = .ok (value, datatype) ∧
        (ack.NamesLength ∧ (∃ count : UInt64, value = .atom (.unsigned count) ∧
            count.toNat < UInt32.size ∧ objects = [] ∧ span = .upTo count.toUInt32) ∨
          ¬ack.NamesLength ∧ ∃ ids, value.Identifies ids ∧
            objects = ids.map ObjectIdentifier.reference ∧ span = walk.remaining)) ∧
    (∀ cause, ack.decode = .error cause → walk.apply ack = .error (.reply cause)) ∧
    (∀ objects span, walk.apply ack = .ok (objects, span) →
      (absorb ack).run.run walk = (.ok objects, { walk with remaining := span })) ∧
    ∀ cause, walk.apply ack = .error cause → (absorb ack).run.run walk = (.error cause, walk) := by
  have hstate := follows_absorb walk ack
  refine ⟨fun objects span => ?_, fun cause h => apply_of_decode_error h walk,
    fun objects span h => by rwa [h] at hstate, fun cause h => by rwa [h] at hstate⟩
  rw [apply_eq_ok_iff]
  refine exists_congr fun value => exists_congr fun datatype => and_congr_right fun _ => ?_
  rw [spanOfLength_eq_ok_iff, references_eq_ok_iff]
  grind

/-- The length of a list and then, where an element was asked for, the whole list of two objects;
and an element that breaks off, after which the walk still has to read what it had. -/
theorem apply_iff_decode_pair :
    let walk : Walk := { onDevice 9 1 0 with remaining := .upTo 2 }
    let ack (index : Option UInt32) (octets : List UInt8) : ReadAck :=
      ⟨⟨.device, 1⟩, .objectList, index, octets⟩
    let ids : List ObjectIdentifier := [⟨.device, 1⟩, ⟨.analogInput, 3⟩]
    let whole := ack none [0xC4, 2, 0, 0, 1, 0xC4, 0, 0, 0, 3]
    let broken := ack (some 2) [0xC4, 0, 0]
    let cause : ReplyError := .undecodable .objectIdentifier .truncated
    (walk.apply (ack (some 0) [0x21, 2]) = .ok ([], .upTo 2)) ∧
      walk.apply whole = .ok (ids.map ObjectIdentifier.reference, .upTo 2) ∧
      (absorb whole).run.run walk = (.ok (ids.map ObjectIdentifier.reference), walk) ∧
      broken.decode = .error cause ∧ walk.apply broken = .error (.reply cause) ∧
      (absorb broken).run.run walk = (.error (.reply cause), walk) := by
  intro walk ack ids whole broken cause
  have hlength : (ack (some 0) [0x21, 2]).NamesLength := ⟨rfl, .objectIdentifier, rfl⟩
  have hwhole : walk.apply whole = .ok (ids.map ObjectIdentifier.reference, .upTo 2) :=
    ((apply_iff_decode walk whole).1 _ _).mpr
      ⟨.array (ids.map fun id => .atom (.objectIdentifier id)), .array .objectIdentifier, rfl,
        .inr ⟨by rintro ⟨⟨⟩, -⟩, ids, .row ids, rfl, rfl⟩⟩
  have hbroken : walk.apply broken = .error (.reply cause) :=
    (apply_iff_decode walk broken).2.1 cause rfl
  exact ⟨((apply_iff_decode walk _).1 _ _).mpr
      ⟨.atom (.unsigned 2), .unsigned, rfl, .inl ⟨hlength, 2, rfl, by decide, rfl, rfl⟩⟩,
    hwhole, (apply_iff_decode walk whole).2.2.1 _ _ hwhole, rfl, hbroken,
    (apply_iff_decode walk broken).2.2.2 _ hbroken⟩

end Walk

end Fieldbus
