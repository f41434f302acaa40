import Fieldbus.Session.Basic
import Fieldbus.Value.Json

/-!
# Reading and writing properties

A read or a write is begun by handing one confirmed request to the engine, and ended by its outcome.
What can be found wrong without asking the station is refused before anything is sent.
-/

namespace Fieldbus

/-- A property of an object, or one element of it, by name. -/
structure PropertyPath where
  typeName : String
  number : UInt32
  property : String
  index : Option UInt32
  deriving DecidableEq, Repr

/-- A value that was read from a station. -/
structure Reading where
  mac : Mac
  path : PropertyPath
  value : Json
  deriving Repr

/-- A reading as JSON. -/
def Reading.toJson (reading : Reading) : Json :=
  .ofMembers
    [("address", .ofNat reading.mac.toNat),
     ("index", (reading.path.index.map fun index => Json.ofNat index.toNat).getD .null),
     ("object", .ofMembers [("instance", .ofNat reading.path.number.toNat),
        ("type", .string reading.path.typeName)]),
     ("property", .string reading.path.property),
     ("value", reading.value)]

/-- What the caller of a request holds while it waits. -/
structure Transaction where
  ticket : Ticket
  /-- The time at which the caller stops waiting. -/
  deadline : Nat
  deriving DecidableEq, Repr

/-- The object type and the property that a path names, with the datatype. -/
def PropertyPath.resolve (path : PropertyPath) : Except ClientError Schema.Resolved :=
  match Schema.resolve? path.typeName path.property with
  | some resolved => .ok resolved
  | none => .error (.unknownProperty path.typeName path.property)

/-- Refuses an instance number that no object identifier can carry. -/
def checkInstance (number : UInt32) : Except ClientError Unit :=
  if number ≤ maxInstance then .ok () else .error (.instanceNumber number)

/-- Which station is meant: one by its address, or the one where a device was last heard. -/
inductive Address where
  | station (mac : Mac)
  | device (number : UInt32)
  deriving DecidableEq, Repr

namespace Session

variable {σ : Type}

/-- The station that an address means. -/
def locate (session : Session σ) : Address → Except ClientError Mac
  | .station mac => .ok mac
  | .device number => do
    let _ ← session.engine
    match session.cache.mac? number with
    | some mac => return mac
    | none => .error (.unknownDevice number)

/-- Hands a confirmed request to the engine.  The caller waits twice as long as the engine gives the
station. -/
def transact (session : Session σ) (run : EngineRun) (mac : Mac) (request : ConfirmedRequest) :
    Except ClientError (Transaction × Session σ) :=
  let (ticket, desk) := session.desk.issue
  match { session with desk := desk }.submit? (.request mac request (.ticket ticket)) with
  | some session => .ok (⟨ticket, session.clock + 2 * run.timing.apduTimeout.toNat⟩, session)
  | none => .error (.transport .stopped)

/-- The outcome of a request, if there is nothing to wait for any more. -/
def outcome? (session : Session σ) (transaction : Transaction) : Option Outcome :=
  match session.desk.outcome? transaction.ticket with
  | some outcome => some outcome
  | none =>
    if !session.worker?.any fun worker => worker.holdsTicket transaction.ticket then
      some (.failure .stopped)
    else if transaction.deadline ≤ session.clock then some (.failure .timeout)
    else none

/-- Begins to read a property of a station. -/
def beginRead (session : Session σ) (mac : Mac) (path : PropertyPath) :
    Except ClientError (Transaction × Session σ) := do
  let run ← session.engine
  checkInstance path.number
  let resolved ← path.resolve
  session.transact run mac
    (.read ⟨⟨resolved.type, path.number⟩, resolved.property, path.index⟩)

/-- Reads the text to be written as a value of a datatype. -/
def writtenValue (text : String) (datatype : Datatype) (index : Option UInt32) :
    Except ClientError Atom :=
  match Literal.write text datatype index with
  | .ok value => .ok value
  | .error error => .error (.cast (.literal error))

/-- Begins to write a property of a station. -/
def beginWrite (session : Session σ) (mac : Mac) (path : PropertyPath) (text : String)
    (priority : Option UInt8) : Except ClientError (Transaction × Session σ) := do
  let run ← session.engine
  if maxInstance < path.number then throw (.cast (.instanceNumber path.number))
  let resolved ← path.resolve
  let value ← writtenValue text resolved.datatype path.index
  session.transact run mac
    (.write ⟨⟨resolved.type, path.number⟩, resolved.property, path.index, value.encode,
      priority⟩)

end Session

/-- The reading that an outcome gives. -/
def Reading.ofOutcome (mac : Mac) (path : PropertyPath) : Outcome → Except ClientError Reading
  | .failure cause => .error (.transport cause)
  | .ack (.read ack) =>
    match ack.decode with
    | .ok (value, datatype) => .ok ⟨mac, path, value.toJson datatype⟩
    | .error error => .error (.protocol error)
  | .ack ack => .error (.protocol (.unexpectedAck .readProperty ack.kind))

/-- Whether an outcome says that the property was written. -/
def writeResult : Outcome → Except ClientError Unit
  | .failure cause => .error (.transport cause)
  | .ack .simple => .ok ()
  | .ack ack => .error (.protocol (.unexpectedAck .simple ack.kind))

end Fieldbus
