import Fieldbus.Device.Station
import Fieldbus.Walk.Report

/-!
# Walks over object lists

A walk reads the object list of a device one element at a time: first the length, at index 0, then
the elements in ascending order, each one when the reply to the read before has come.  A station
may answer with the whole list where one element was asked for, and all objects it names count.
-/

namespace Fieldbus

/-- Indices that are still to be read, from `next` to `last`. -/
structure Span where
  next : Nat
  last : UInt32
  deriving DecidableEq, Repr

namespace Span

/-- No indices. -/
def empty : Span := ⟨1, 0⟩

/-- The indices of the elements of a list. -/
def upTo (count : UInt32) : Span := ⟨1, count⟩

/-- The next index, and those after it. -/
def take? (span : Span) : Option (UInt32 × Span) :=
  if span.next ≤ span.last.toNat then
    some (UInt32.ofNat span.next, { span with next := span.next + 1 })
  else none

end Span

/-- The number of a report. -/
abbrev WalkId := Nat

/-- A walk under way. -/
structure Walk where
  destination : Mac
  /-- The device object whose list is read. -/
  device : ObjectIdentifier
  /-- The elements to read after the one under way. -/
  remaining : Span
  report : WalkId
  deriving DecidableEq, Repr

namespace Walk

/-- The walk over the object list of a device at a station. -/
def onDevice (destination : Mac) (device : UInt32) (report : WalkId) : Walk :=
  ⟨destination, ⟨.device, device⟩, .empty, report⟩

/-- The read of one element. -/
def readAt (walk : Walk) (index : UInt32) : ConfirmedRequest :=
  .read ⟨walk.device, .objectList, some index⟩

/-- The read of the length, with which a walk begins. -/
def firstRead (walk : Walk) : ConfirmedRequest := walk.readAt 0

/-- The reference to the object that a value identifies. -/
def reference : Value → Except WalkError ObjectReference
  | .atom (.objectIdentifier id) => .ok id.reference
  | value => .error (.elementOfType value.typeName)

/-- The indices of a list whose length is a value. -/
def spanOfLength : Value → Except WalkError Span
  | .atom (.unsigned count) =>
    if count.toNat < UInt32.size then .ok (.upTo count.toUInt32)
    else .error (.lengthOutOfRange count)
  | value => .error (.lengthOfType value.typeName)

/-- An error of a reply as one of a walk. -/
def ofReply {α : Type} : Except ReplyError α → Except WalkError α
  | .ok result => .ok result
  | .error error => .error (.reply error)

/-- The objects that an acknowledgement names, and the indices to read after it.  A length sets the
indices anew. -/
def apply (walk : Walk) (ack : ReadAck) : Except WalkError (List ObjectReference × Span) := do
  let datatype ← ofReply ack.datatype
  match datatype.element?, ack.index with
  | some element, some index =>
    if index = 0 then
      let span ← spanOfLength (← ofReply (ack.valueAs .unsigned))
      return ([], span)
    else
      let object ← reference (← ofReply (ack.valueAs element))
      return ([object], walk.remaining)
  | _, _ =>
    match ← ofReply (ack.valueAs datatype) with
    | .array items => return (← items.mapM reference, walk.remaining)
    | single => return ([← reference single], walk.remaining)

/-- The objects that an outcome names, and the indices to read after it. -/
def step (walk : Walk) : Outcome → Except WalkError (List ObjectReference × Span)
  | .ack (.read ack) => walk.apply ack
  | .ack ack => .error (.reply (.unexpectedAck .readProperty ack.kind))
  | .failure cause => .error (.failure cause)

/-- Takes an outcome into the report.  Returns the next read with the walk that waits for it, if
the walk goes on. -/
def onReply (walk : Walk) (outcome : Outcome) (report : WalkReport) :
    Option (ConfirmedRequest × Walk) × WalkReport :=
  if report.abandoned then (none, report.finish)
  else
    match walk.step outcome with
    | .error cause => (none, report.abort cause)
    | .ok (objects, span) =>
      match span.take? with
      | none => (none, (report.extend objects).finish)
      | some (index, rest) =>
        (some (walk.readAt index, { walk with remaining := rest }), report.extend objects)

/-- No walk goes on after a failure. -/
theorem onReply_failure (walk : Walk) (cause : Failure) (report : WalkReport) :
    (walk.onReply (.failure cause) report).1 = none := by
  unfold onReply
  split <;> rfl

/-- The report of a walk is finished once it does not go on. -/
theorem finished_of_onReply {walk : Walk} {outcome : Outcome} {report : WalkReport}
    (h : (walk.onReply outcome report).1 = none) :
    (walk.onReply outcome report).2.finished = true := by
  unfold onReply at h ⊢
  split
  · rfl
  · split
    · rfl
    · split <;> simp_all [WalkReport.finish]

end Walk

end Fieldbus
