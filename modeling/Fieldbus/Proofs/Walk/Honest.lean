import Fieldbus.Proofs.Value.RoundTrip
import Fieldbus.Proofs.Walk.Course
import Fieldbus.Proofs.Walk.Interpretation

/-!
# Walks over honest devices

A device that answers honestly says how long its object list is where index 0 is read, and names
the element where another index is read, as the read names it.  A walk over such a device reads the
indices one after the other, and what it has found after any reply is the front of the list.  A
reply that names nothing ends the walk early, and what was found before stays.

## Main definitions

* `Walk.honestReply?`: what a device with a given object list answers.
* `Walk.Spoils`: replies that end a walk early.
* `Course.onList`: a walk over a list after some replies.

## Main results

* `Course.along_take`: honest replies lead a walk along the list.
* `Course.along_of_honest`: a walk whose every read is answered honestly goes over the whole list.
* `Course.along_of_spoils`: a reply that spoils the walk leaves it with what it has found.
-/

namespace Fieldbus

namespace Walk

/-- What an object list has at an index: its length at index 0, then its elements. -/
def listed? (objects : List ObjectIdentifier) (index : UInt32) : Option Atom :=
  if index = 0 then some (.unsigned (UInt64.ofNat objects.length))
  else objects[index.toNat - 1]?.map .objectIdentifier

theorem listed?_zero (objects : List ObjectIdentifier) :
    listed? objects (UInt32.ofNat 0) = some (.unsigned (UInt64.ofNat objects.length)) :=
  if_pos rfl

theorem ofNat_succ_ne_zero {index : Nat} (h : index + 1 < 2 ^ 32) :
    UInt32.ofNat (index + 1) ≠ 0 := by
  intro hzero
  have hsame := congrArg UInt32.toNat hzero
  rw [UInt32.toNat_ofNat_of_lt' h] at hsame
  cases hsame

theorem listed?_succ {objects : List ObjectIdentifier} {index : Nat} (h : index < objects.length)
    (hlength : objects.length < 2 ^ 32) :
    listed? objects (UInt32.ofNat (index + 1)) = some (.objectIdentifier objects[index]) := by
  have hindex : index + 1 < 2 ^ 32 := by omega
  rw [listed?, if_neg (ofNat_succ_ne_zero hindex), UInt32.toNat_ofNat_of_lt' hindex,
    Nat.add_sub_cancel, List.getElem?_eq_getElem h, Option.map_some]

/-- What a device with a given object list answers to the read of an element of it. -/
def honestReply? (objects : List ObjectIdentifier) : ConfirmedRequest → Option Outcome
  | .read ⟨object, property, some index⟩ =>
    (listed? objects index).map fun value =>
      .ack (.read ⟨object, property, some index, (Value.atom value).encode⟩)
  | _ => none

/-- Replies that end a walk early, each with its cause: failures, acknowledgements of something
else than a read, and reads whose octets mean nothing. -/
inductive Spoils : Outcome → WalkError → Prop
  | failure (cause : Failure) : Spoils (.failure cause) (.failure cause)
  | kind {ack : Ack} (h : ack.kind ≠ .readProperty) :
      Spoils (.ack ack) (.reply (.unexpectedAck .readProperty ack.kind))
  | undecodable {ack : ReadAck} {error : ReplyError} (h : ack.decode = .error error) :
      Spoils (.ack (.read ack)) (.reply error)

variable {walk : Walk} {objects : List ObjectIdentifier}

theorem step_of_spoils {outcome : Outcome} {cause : WalkError} (h : Spoils outcome cause) :
    walk.step outcome = .error cause := by
  cases h with
  | failure cause => rfl
  | @kind ack h =>
    cases ack with
    | read ack => exact absurd rfl h
    | _ => rfl
  | undecodable h => exact apply_of_decode_error h walk

/-! ### Honest replies -/

theorem datatype_objectList {ack : ReadAck} (hobject : ack.object.type = .device)
    (hproperty : ack.property = .objectList) :
    ack.datatype = .ok (.array .objectIdentifier) := by
  have hknown : Schema.datatype? .device .objectList = some (.array .objectIdentifier) := by decide
  rw [ReadAck.datatype, hobject, hproperty, hknown]

/-- The honest answer about the length sets the indices to read. -/
theorem apply_length (hdevice : walk.device.type = .device) (hlength : objects.length < 2 ^ 32) :
    walk.apply ⟨walk.device, .objectList, some 0,
        (Value.atom (.unsigned (UInt64.ofNat objects.length))).encode⟩ =
      .ok ([], ⟨1, UInt32.ofNat objects.length⟩) := by
  have hcount : (UInt64.ofNat objects.length).toNat = objects.length := by
    rw [UInt64.toNat_ofNat']
    omega
  have hspan : spanOfLength (.atom (.unsigned (UInt64.ofNat objects.length))) =
      .ok ⟨1, UInt32.ofNat objects.length⟩ := by
    have hfew : (UInt64.ofNat objects.length).toNat < UInt32.size := by
      rw [hcount]
      exact hlength
    have hsame : (UInt64.ofNat objects.length).toUInt32 = UInt32.ofNat objects.length := by
      apply UInt32.toNat_inj.mp
      rw [UInt64.toNat_toUInt32, hcount, UInt32.toNat_ofNat']
    rw [spanOfLength, if_pos hfew, Span.upTo, hsame]
  have hdecode : Value.decode (Value.atom (.unsigned (UInt64.ofNat objects.length))).encode
      .unsigned = .ok (.atom (.unsigned (UInt64.ofNat objects.length))) :=
    Value.decode_encode_atom (Atom.fitsWire_unsigned _) rfl
  rw [apply, datatype_objectList hdevice rfl]
  simp only [ofReply, bind, Except.bind, Datatype.element?, ReadAck.valueAs, hdecode, hspan,
    if_true, pure, Except.pure]

theorem apply_element (hdevice : walk.device.type = .device) {index : UInt32} (hindex : index ≠ 0)
    {id : ObjectIdentifier} (hid : id.InRange) :
    walk.apply ⟨walk.device, .objectList, some index,
        (Value.atom (.objectIdentifier id)).encode⟩ =
      .ok ([id.reference], walk.remaining) := by
  have hdecode : Value.decode (Value.atom (.objectIdentifier id)).encode .objectIdentifier =
      .ok (.atom (.objectIdentifier id)) :=
    Value.decode_encode_atom (Atom.fitsWire_objectIdentifier hid) rfl
  rw [apply, datatype_objectList hdevice rfl]
  simp only [ofReply, bind, Except.bind, Datatype.element?, ReadAck.valueAs, hdecode, if_neg hindex,
    reference, pure, Except.pure]

/-- The walk over a list that waits after a number of replies. -/
def advance (walk : Walk) (objects : List ObjectIdentifier) (replies : Nat) : Walk :=
  { walk with
    remaining :=
      if replies = 0 then walk.remaining else ⟨replies + 1, UInt32.ofNat objects.length⟩ }

/-- What an honest reply names, and the indices to read after it. -/
theorem step_advance (hdevice : walk.device.type = .device) (hlength : objects.length < 2 ^ 32)
    (hobjects : ∀ id ∈ objects, id.InRange) {replies : Nat} (h : replies ≤ objects.length)
    {outcome : Outcome}
    (houtcome : honestReply? objects (walk.readAt (UInt32.ofNat replies)) = some outcome) :
    ∃ found, (walk.advance objects replies).step outcome =
        .ok (found, ⟨replies + 1, UInt32.ofNat objects.length⟩) ∧
      (objects.take (replies - 1)).map ObjectIdentifier.reference ++ found =
        (objects.take replies).map ObjectIdentifier.reference := by
  cases replies with
  | zero =>
    rw [readAt, honestReply?, listed?_zero, Option.map_some] at houtcome
    rw [← Option.some.inj houtcome]
    exact ⟨[], apply_length hdevice hlength, rfl⟩
  | succ read =>
    have hread : read < objects.length := h
    have hnonzero := ofNat_succ_ne_zero (show read + 1 < 2 ^ 32 by omega)
    have helement := @apply_element (walk.advance objects (read + 1)) hdevice _ hnonzero
      objects[read] (hobjects _ (List.getElem_mem hread))
    rw [readAt, honestReply?, listed?_succ hread hlength, Option.map_some] at houtcome
    rw [← Option.some.inj houtcome]
    refine ⟨_, helement, ?_⟩
    rw [Nat.add_sub_cancel, List.take_add_one, List.getElem?_eq_getElem hread, List.map_append]
    rfl

end Walk

namespace Course

/-- A walk over a list after a number of replies: the reply to the read of the length and those to
the reads of the first elements. -/
def onList (walk : Walk) (objects : List ObjectIdentifier) (replies : Nat) : Course where
  walk? := if replies ≤ objects.length then some (walk.advance objects replies) else none
  report :=
    { objects := (objects.take (replies - 1)).map ObjectIdentifier.reference
      finished := decide (objects.length < replies) }
  reads := (List.range (min replies objects.length + 1)).map fun index =>
    walk.readAt (UInt32.ofNat index)

variable {walk : Walk} {objects : List ObjectIdentifier} {replies : Nat}

theorem walk?_onList (h : replies ≤ objects.length) :
    (onList walk objects replies).walk? = some (walk.advance objects replies) := if_pos h

theorem walk?_onList_eq_none (h : objects.length < replies) :
    (onList walk objects replies).walk? = none := if_neg (Nat.not_le.mpr h)

theorem abandoned_onList : (onList walk objects replies).report.abandoned = false := rfl

theorem onList_zero : onList walk objects 0 = begin walk := by
  simp [onList, Walk.advance, begin, Walk.firstRead, List.range_succ]

/-- The last read of a walk over a list that is not over. -/
theorem reads_onList_getElem? (h : replies ≤ objects.length) :
    (onList walk objects replies).reads[replies]? = some (walk.readAt (UInt32.ofNat replies)) := by
  have hlt : replies < min replies objects.length + 1 := by omega
  simp [onList, List.getElem?_range hlt]

/-- A walk over a list that has ended early, with what it had found after some replies. -/
def spoilt (walk : Walk) (objects : List ObjectIdentifier) (replies : Nat) (cause : WalkError) :
    Course where
  walk? := none
  report :=
    { objects := (objects.take (replies - 1)).map ObjectIdentifier.reference
      error := some cause
      finished := true }
  reads := (List.range (replies + 1)).map fun index => walk.readAt (UInt32.ofNat index)

theorem onReply_of_spoils (h : replies ≤ objects.length) {outcome : Outcome} {cause : WalkError}
    (hspoils : Walk.Spoils outcome cause) :
    (onList walk objects replies).onReply outcome = spoilt walk objects replies cause := by
  rw [onReply, walk?_onList h]
  simp only [Walk.onReply, abandoned_onList, Walk.step_of_spoils hspoils, Bool.false_eq_true,
    if_false]
  rw [onList, Nat.min_eq_left h]
  rfl

/-! ### Replies one after the other -/

section

variable (hdevice : walk.device.type = .device) (hlength : objects.length < 2 ^ 32)
  (hobjects : ∀ id ∈ objects, id.InRange)

include hdevice hlength hobjects

/-- An honest reply leads a walk along the list. -/
theorem onReply_onList (h : replies ≤ objects.length) {outcome : Outcome}
    (houtcome : Walk.honestReply? objects (walk.readAt (UInt32.ofNat replies)) = some outcome) :
    (onList walk objects replies).onReply outcome = onList walk objects (replies + 1) := by
  have hlast : (UInt32.ofNat objects.length).toNat = objects.length :=
    UInt32.toNat_ofNat_of_lt' hlength
  obtain ⟨found, hstep, hfound⟩ := Walk.step_advance hdevice hlength hobjects h houtcome
  rw [onReply, walk?_onList h]
  simp only [Walk.onReply, abandoned_onList, hstep, Bool.false_eq_true, if_false]
  by_cases hmore : replies + 1 ≤ objects.length
  · have htake : Span.take? ⟨replies + 1, UInt32.ofNat objects.length⟩ =
        some (UInt32.ofNat (replies + 1), ⟨replies + 2, UInt32.ofNat objects.length⟩) :=
      if_pos (by rw [hlast]; exact hmore)
    have hreads : min (replies + 1) objects.length = min replies objects.length + 1 := by omega
    have hnext : min replies objects.length + 1 = replies + 1 := by omega
    have hunfinished : ¬ objects.length < replies ∧ ¬ objects.length < replies + 1 := by omega
    simp only [htake, onList, if_pos hmore, WalkReport.extend, hfound, hreads, hunfinished,
      Nat.add_sub_cancel, List.range_succ (n := min replies objects.length + 1), List.map_append]
    rw [hnext]
    rfl
  · have htake : Span.take? ⟨replies + 1, UInt32.ofNat objects.length⟩ = none :=
      if_neg (by rw [hlast]; exact hmore)
    have hreads : min (replies + 1) objects.length = min replies objects.length := by omega
    have hfinished : objects.length < replies + 1 := by omega
    simp only [htake, onList, if_neg hmore, WalkReport.extend, WalkReport.finish, hfound, hreads,
      hfinished, Nat.add_sub_cancel, decide_true]

/-- Honest replies lead a walk along the list, and there are no more than reads. -/
theorem along_take {outcomes : List Outcome}
    (hhonest : ∀ index < replies, ∃ request outcome,
      ((begin walk).along outcomes).reads[index]? = some request ∧
        outcomes[index]? = some outcome ∧ Walk.honestReply? objects request = some outcome) :
    (begin walk).along (outcomes.take replies) = onList walk objects replies ∧
      replies ≤ objects.length + 1 := by
  induction replies with
  | zero => exact ⟨onList_zero.symm, Nat.zero_le _⟩
  | succ replies ih =>
    obtain ⟨halong, hle⟩ := ih fun index hindex => hhonest index (by omega)
    obtain ⟨request, outcome, hrequest, houtcome, hreply⟩ := hhonest replies (by omega)
    -- the whole course goes on from what the replies so far have led to
    have hwhole := along_eq_along_drop halong
    by_cases hover : replies ≤ objects.length
    · obtain ⟨more, hmore⟩ := (onList walk objects replies).reads_prefix_along
        (outcomes.drop replies)
      have hlast := @reads_onList_getElem? walk objects replies hover
      have hlt : replies < (onList walk objects replies).reads.length :=
        (List.getElem?_eq_some_iff.mp hlast).1
      rw [hwhole, ← hmore, List.getElem?_append_left hlt, hlast] at hrequest
      rw [← Option.some.inj hrequest] at hreply
      refine ⟨?_, by omega⟩
      rw [List.take_add_one, houtcome, along_append, halong]
      exact onReply_onList hdevice hlength hobjects hover hreply
    · -- the walk is over, so there is no read that this reply could answer
      have hend := @walk?_onList_eq_none walk objects replies (Nat.lt_of_not_le hover)
      rw [hwhole, along_of_walk?_eq_none hend] at hrequest
      have hlt := (List.getElem?_eq_some_iff.mp hrequest).1
      rw [onList, List.length_map, List.length_range] at hlt
      omega

/-! ### Whole courses -/

variable {outcomes : List Outcome}

/-- A walk whose every read is answered honestly goes over the whole list. -/
theorem along_of_honest
    (hcount : outcomes.length + ((begin walk).along outcomes).walk?.isSome.toNat =
      ((begin walk).along outcomes).reads.length)
    (hhonest : ∀ (index : Nat) request,
      ((begin walk).along outcomes).reads[index]? = some request →
      ∃ outcome, outcomes[index]? = some outcome ∧
        Walk.honestReply? objects request = some outcome) :
    (begin walk).along outcomes = onList walk objects (objects.length + 1) := by
  have hall : ∀ index < ((begin walk).along outcomes).reads.length, ∃ request outcome,
      ((begin walk).along outcomes).reads[index]? = some request ∧
        outcomes[index]? = some outcome ∧ Walk.honestReply? objects request = some outcome := by
    intro index hindex
    obtain ⟨outcome, houtcome⟩ := hhonest index _ (List.getElem?_eq_getElem hindex)
    exact ⟨_, outcome, List.getElem?_eq_getElem hindex, houtcome⟩
  -- every read has its reply, so the walk does not wait any more
  have hreplied : ((begin walk).along outcomes).reads.length ≤ outcomes.length := by
    by_contra hfewer
    obtain ⟨-, outcome, -, houtcome, -⟩ := hall outcomes.length (by omega)
    exact absurd (List.getElem?_eq_some_iff.mp houtcome).1 (Nat.lt_irrefl _)
  have hover : ((begin walk).along outcomes).walk? = none := by
    cases hwalk : ((begin walk).along outcomes).walk? with
    | none => rfl
    | some current =>
      rw [hwalk] at hcount
      simp only [Option.isSome_some, Bool.toNat_true] at hcount
      omega
  obtain ⟨halong, hle⟩ := along_take hdevice hlength hobjects hall
  rw [List.take_of_length_le (by omega)] at halong
  rw [halong] at hover
  have hmore : ¬ ((begin walk).along outcomes).reads.length ≤ objects.length := by
    intro hless
    rw [walk?_onList hless] at hover
    cases hover
  rw [halong]
  congr 1
  omega

/-- A walk whose first replies are honest and whose next reply spoils it has found the elements
before. -/
theorem along_of_spoils
    (hcount : outcomes.length + ((begin walk).along outcomes).walk?.isSome.toNat =
      ((begin walk).along outcomes).reads.length)
    (hhonest : ∀ index < replies, ∃ request outcome,
      ((begin walk).along outcomes).reads[index]? = some request ∧
        outcomes[index]? = some outcome ∧ Walk.honestReply? objects request = some outcome)
    {outcome : Outcome} {cause : WalkError} (houtcome : outcomes[replies]? = some outcome)
    (hspoils : Walk.Spoils outcome cause) :
    (begin walk).along outcomes = spoilt walk objects replies cause := by
  obtain ⟨halong, hle⟩ := along_take hdevice hlength hobjects hhonest
  have hwhole := along_eq_along_drop halong
  have hlt := (List.getElem?_eq_some_iff.mp houtcome).1
  have hmore : replies ≤ objects.length := by
    by_contra hmany
    have hend := @walk?_onList_eq_none walk objects replies (Nat.lt_of_not_le hmany)
    rw [hwhole, along_of_walk?_eq_none hend, hend, onList, List.length_map,
      List.length_range] at hcount
    simp only [Option.isSome_none, Bool.toNat_false] at hcount
    omega
  have hdrop : outcomes.drop replies = outcome :: outcomes.drop (replies + 1) := by
    rw [List.drop_eq_getElem_cons hlt, ← (List.getElem?_eq_some_iff.mp houtcome).2]
  rw [hwhole, hdrop, along, List.foldl_cons, onReply_of_spoils hmore hspoils, ← along]
  exact along_of_walk?_eq_none rfl _

end

end Course

end Fieldbus
