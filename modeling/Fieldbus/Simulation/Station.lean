import Fieldbus.Link.Basic
import Fieldbus.Value.Encode

/-!
# Simulated stations

A station that answers as its settings say: it serves the object list of its device and the values
stored at it, takes values that are written, and may be told to keep silent, to hold an answer
back, or to answer out of turn.
-/

namespace Fieldbus.Simulation

/-- A property of an object; a station stores one value for each. -/
abbrev Slot := ObjectIdentifier × Property

/-- A simulated station. -/
structure Station where
  mac : Mac
  /-- The instance number of the device at the station. -/
  device : UInt32
  /-- The objects of the device beside the device object. -/
  objects : List ObjectIdentifier
  values : List (Slot × List UInt8) := []
  silent : Bool := false
  /-- Elements of the object list that cannot be read, with what is answered instead. -/
  faults : List (UInt32 × Failure) := []
  /-- The element of the object list whose read is held back. -/
  stall : Option UInt32 := none
  /-- What the next requests are answered with, whatever they are. -/
  script : List Outcome := []
  deriving DecidableEq, Repr

/-- An association put into a list, in place of the one with its key. -/
def assign {α β : Type} [DecidableEq α] (key : α) (value : β) (entries : List (α × β)) :
    List (α × β) :=
  (key, value) :: entries.filter fun entry => entry.1 ≠ key

/-- What is associated with a key. -/
def lookup? {α β : Type} [DecidableEq α] (key : α) (entries : List (α × β)) : Option β :=
  (entries.find? fun entry => entry.1 = key).map Prod.snd

/-- The answer to a request for an element that is not there. -/
def invalidIndex : Failure := .error 2 42

/-- The answer to a request for a property that is not there. -/
def unknownProperty : Failure := .error 2 32

namespace Station

/-- The identifier of the device object. -/
def identifier (station : Station) : ObjectIdentifier := ⟨.device, station.device⟩

/-- All objects of the device, the device object first. -/
def objectList (station : Station) : List ObjectIdentifier :=
  station.identifier :: station.objects

/-- The octets stored in a slot. -/
def stored? (station : Station) (slot : Slot) : Option (List UInt8) := lookup? slot station.values

/-- The station with octets stored in a slot. -/
def store (station : Station) (slot : Slot) (octets : List UInt8) : Station :=
  { station with values := assign slot octets station.values }

/-- The octets of an element of the object list, of its length, or of the whole list. -/
def listOctets (station : Station) : Option UInt32 → Except Failure (List UInt8)
  | none => .ok (Value.ofAtoms (station.objectList.map Atom.objectIdentifier)).encode
  | some index =>
    if index = 0 then
      .ok (Atom.unsigned (UInt64.ofNat station.objectList.length)).encode
    else
      match lookup? index station.faults, station.objectList[index.toNat - 1]? with
      | some fault, _ => .error fault
      | none, some id => .ok (Atom.objectIdentifier id).encode
      | none, none => .error invalidIndex

/-- The octets that a read yields. -/
def octetsOf (station : Station) (request : ReadRequest) : Except Failure (List UInt8) :=
  if request.object = station.identifier ∧ request.property = .objectList then
    station.listOctets request.index
  else
    match station.stored? (request.object, request.property) with
    | some octets => .ok octets
    | none => .error unknownProperty

/-- Answers a request: out of turn if something is scripted, else as the request asks. -/
def answer (station : Station) (request : ConfirmedRequest) : Outcome × Station :=
  match station.script, request with
  | outcome :: rest, _ => (outcome, { station with script := rest })
  | [], .read request =>
    match station.octetsOf request with
    | .ok octets =>
      (.ack (.read ⟨request.object, request.property, request.index, octets⟩), station)
    | .error cause => (.failure cause, station)
  | [], .write request =>
    (.ack .simple, station.store (request.object, request.property) request.octets)

/-- Whether the answer to a request is held back. -/
def holdsBack (station : Station) : ConfirmedRequest → Bool
  | .read request => request.property = .objectList && station.stall.isSome &&
      request.index = station.stall
  | .write _ => false

/-- Whether a station answers a Who-Is. -/
def isAddressed (station : Station) (destination : Destination) (low high : Option UInt32) : Bool :=
  (match destination with
    | .broadcast => true
    | .station mac => mac = station.mac) &&
  !station.silent && low.all (· ≤ station.device) && high.all (station.device ≤ ·)

/-- What a device with an instance number announces. -/
def announcementOf (device : UInt32) : Announcement := ⟨⟨.device, device⟩, 480, .none, 260⟩

end Station

end Fieldbus.Simulation
