import Fieldbus.Simulation.Station

/-!
# Simulated segments

A link to stations that exist only here.  What is heard waits in an inbox, and what is sent is
logged.  Each operation of the link can be told to fail.
-/

namespace Fieldbus.Simulation

/-- A request handed to the link, and whether the link took it. -/
inductive Sent where
  | unconfirmed (destination : Destination) (request : UnconfirmedRequest) (taken : Bool)
  | confirmed (mac : Mac) (id : InvokeId) (request : ConfirmedRequest) (taken : Bool)
  deriving DecidableEq, Repr

/-- Lets an operation fail from some time on. -/
structure Fault where
  /-- How many times the operation still succeeds. -/
  spared : Nat
  error : LinkError
  deriving DecidableEq, Repr

/-- Whether an operation succeeds, and what is left of the fault. -/
def Fault.strike : Option Fault → Except LinkError Unit × Option Fault
  | none => (.ok (), none)
  | some ⟨0, error⟩ => (.error error, some ⟨0, error⟩)
  | some ⟨spared + 1, error⟩ => (.ok (), some ⟨spared, error⟩)

/-- A request whose answer is held back. -/
structure Held where
  mac : Mac
  id : InvokeId
  request : ConfirmedRequest
  deriving DecidableEq, Repr

/-- A simulated segment with a link to it. -/
structure Segment where
  /-- The stations, in ascending order of their addresses. -/
  stations : List Station := []
  /-- What is heard, the oldest first. -/
  inbox : List Indication := []
  /-- The requests whose answers are held back, the oldest first. -/
  held : List Held := []
  /-- What was sent, the oldest first. -/
  log : List Sent := []
  connects : Nat := 0
  disconnects : Nat := 0
  /-- The parameters that the link was last opened with. -/
  parameters : Option LinkParameters := none
  connectError : Option LinkError := none
  confirmedFault : Option Fault := none
  unconfirmedFault : Option Fault := none
  /-- How many times listening fails, and why. -/
  receiveFault : Nat × LinkError := (0, .closed)
  /-- Whether the link breaks down when it is next listened to. -/
  breaking : Bool := false
  deriving DecidableEq, Repr

namespace Segment

/-- Stations with one more, in place of the one with its address. -/
def insertStation (station : Station) : List Station → List Station
  | [] => [station]
  | other :: rest =>
    if station.mac = other.mac then station :: rest
    else if station.mac < other.mac then station :: other :: rest
    else other :: insertStation station rest

/-- The segment with a station added, in place of the one with its address. -/
def addStation (segment : Segment) (station : Station) : Segment :=
  { segment with stations := insertStation station segment.stations }

/-- The station at an address. -/
def station? (segment : Segment) (mac : Mac) : Option Station :=
  segment.stations.find? fun station => station.mac = mac

/-- The segment with the station at an address changed, if there is one. -/
def mapStation (segment : Segment) (mac : Mac) (change : Station → Station) : Segment :=
  { segment with
    stations := segment.stations.map fun station =>
      if station.mac = mac then change station else station }

/-- The segment with something more to be heard. -/
def tell (segment : Segment) (indication : Indication) : Segment :=
  { segment with inbox := segment.inbox ++ [indication] }

/-- The segment whose station at an address answers a request. -/
def respond (segment : Segment) (mac : Mac) (id : InvokeId) (request : ConfirmedRequest) :
    Segment :=
  match segment.station? mac with
  | none => segment
  | some station =>
    let (outcome, answered) := station.answer request
    (segment.mapStation mac fun _ => answered).tell (.completion mac id outcome)

/-- The segment once a request has reached the station at an address. -/
def carry (segment : Segment) (mac : Mac) (id : InvokeId) (request : ConfirmedRequest) : Segment :=
  match segment.station? mac with
  | none => segment
  | some station =>
    if station.silent then segment
    else if station.holdsBack request then
      { segment with held := segment.held ++ [⟨mac, id, request⟩] }
    else segment.respond mac id request

/-- The segment whose stations have answered what was held back. -/
def release (segment : Segment) : Segment :=
  segment.held.foldl (fun segment held => segment.respond held.mac held.id held.request)
    { segment with held := [] }

/-- The segment once an unconfirmed request has reached the stations. -/
def spread (segment : Segment) (destination : Destination) : UnconfirmedRequest → Segment
  | .iAm _ => segment
  | .whoIs low high =>
    let asked := segment.stations.filter fun station => station.isAddressed destination low high
    { segment with
      inbox := segment.inbox ++
        asked.map fun station => .iAm (some station.mac) (Station.announcementOf station.device) }

/-- Whether an operation succeeded. -/
def succeeded : Except LinkError Unit → Bool
  | .ok _ => true
  | .error _ => false

/-- Opens the link. -/
def connect (parameters : LinkParameters) (segment : Segment) : Except LinkError Unit × Segment :=
  match segment.connectError with
  | some error => (.error error, segment)
  | none =>
    (.ok (),
      { segment with parameters := some parameters, connects := segment.connects + 1 })

/-- Sends an unconfirmed request. -/
def sendUnconfirmed (destination : Destination) (request : UnconfirmedRequest)
    (segment : Segment) : Except LinkError Unit × Segment :=
  let (result, fault) := Fault.strike segment.unconfirmedFault
  let segment :=
    { segment with
      unconfirmedFault := fault
      log := segment.log ++ [.unconfirmed destination request (succeeded result)] }
  (result, if succeeded result then segment.spread destination request else segment)

/-- Sends a confirmed request. -/
def sendConfirmed (mac : Mac) (id : InvokeId) (request : ConfirmedRequest) (segment : Segment) :
    Except LinkError Unit × Segment :=
  let (result, fault) := Fault.strike segment.confirmedFault
  let segment :=
    { segment with
      confirmedFault := fault
      log := segment.log ++ [.confirmed mac id request (succeeded result)] }
  (result, if succeeded result then segment.carry mac id request else segment)

/-- Listens for one indication. -/
def receive (segment : Segment) : Reception × Segment :=
  if segment.breaking then (.broken, { segment with breaking := false })
  else
    match segment.receiveFault, segment.inbox with
    | (count + 1, error), _ =>
      (.failed error, { segment with receiveFault := (count, error) })
    | (0, _), indication :: rest => (.heard indication, { segment with inbox := rest })
    | (0, _), [] => (.nothing, segment)

instance : Link Segment where
  connect := connect
  disconnect segment := { segment with disconnects := segment.disconnects + 1 }
  sendUnconfirmed := sendUnconfirmed
  sendConfirmed := sendConfirmed
  receive := receive

/-- Whether there is nothing to be heard and nothing to go wrong. -/
def isQuiet (segment : Segment) : Bool :=
  !segment.breaking && segment.receiveFault.1 == 0 && segment.inbox.isEmpty

end Segment

end Fieldbus.Simulation
