import Fieldbus.Config.Basic
import Fieldbus.Device.Cache
import Fieldbus.Engine.Desk
import Fieldbus.Link.Basic

/-!
# The state of an engine

An engine carries out the commands of its callers over one link.  It keeps the confirmed requests
that wait for an answer, each under an invoke id of its own, and the discovery windows that want to
hear of announcements.  The link, the clock, the device cache and the desk outlive the engine.
-/

namespace Fieldbus

/-- Who gets the outcome of a confirmed request. -/
inductive Responder where
  /-- The holder of a ticket. -/
  | ticket (ticket : Ticket)
  /-- A walk, which goes on with its next read. -/
  | walk (walk : Walk)
  deriving DecidableEq, Repr

/-- What a caller asks of an engine. -/
inductive Command where
  /-- Announce the local device. -/
  | announce
  /-- Let a window hear of announcements, and ask for some. -/
  | discover (window : WindowId) (destination : Destination) (low high : Option UInt32)
  /-- Let a window hear no more. -/
  | endDiscovery (window : WindowId)
  | request (destination : Mac) (request : ConfirmedRequest) (responder : Responder)
  | shutdown
  deriving DecidableEq, Repr

/-- A confirmed request that waits for its answer. -/
structure Pending where
  id : InvokeId
  destination : Mac
  /-- The time at which it was sent. -/
  sentAt : Nat
  responder : Responder
  deriving DecidableEq, Repr

/-- What outlives an engine. -/
structure Shared (σ : Type) where
  link : σ
  /-- The time, in milliseconds. -/
  clock : Nat
  cache : DeviceCache
  desk : Desk

/-- What an engine has of its own. -/
structure Worker where
  identity : LocalDevice
  timing : Timing
  /-- The commands not yet carried out, the oldest first. -/
  commands : List Command := []
  /-- The invoke id to try next. -/
  cursor : InvokeId := 0
  pending : List Pending := []
  /-- The windows that hear of announcements. -/
  listeners : List WindowId := []
  deriving DecidableEq, Repr

/-- An engine at work. -/
structure Engine (σ : Type) extends Shared σ, Worker

/-- How many invoke ids there are. -/
def invokeIds : Nat := 256

/-- The first id, of `count` ones from `id` on, that is not busy. -/
def firstFree (busy : InvokeId → Bool) : Nat → InvokeId → Option InvokeId
  | 0, _ => none
  | count + 1, id => if busy id then firstFree busy count (id + 1) else some id

/-- The id that is found is not busy. -/
theorem not_busy_of_firstFree {busy : InvokeId → Bool} {count : Nat} {id free : InvokeId}
    (h : firstFree busy count id = some free) : busy free = false := by
  induction count generalizing id with
  | zero => simp [firstFree] at h
  | succ count ih =>
    by_cases taken : busy id
    · exact ih (by simpa [firstFree, taken] using h)
    · simp only [firstFree, taken] at h
      exact Option.some.inj h ▸ by simpa using taken

namespace Worker

/-- Whether a request waits under an id. -/
def isBusy (worker : Worker) (id : InvokeId) : Bool := worker.pending.any fun entry => entry.id = id

/-- The next free id after the one given out last, and the worker that has given it out. -/
def takeId? (worker : Worker) : Option (InvokeId × Worker) :=
  (firstFree worker.isBusy invokeIds worker.cursor).map fun id =>
    (id, { worker with cursor := id + 1 })

/-- The request that waits under an id. -/
def pending? (worker : Worker) (id : InvokeId) : Option Pending :=
  worker.pending.find? fun entry => entry.id = id

/-- The worker without the request that waits under an id. -/
def drop (worker : Worker) (id : InvokeId) : Worker :=
  { worker with pending := worker.pending.filter fun entry => entry.id ≠ id }

/-- The worker with one more command. -/
def submit (worker : Worker) (command : Command) : Worker :=
  { worker with commands := worker.commands ++ [command] }

/-- Whether the outcome for a ticket is still to come. -/
def holdsTicket (worker : Worker) (ticket : Ticket) : Bool :=
  worker.pending.any (fun entry => entry.responder = .ticket ticket) ||
    worker.commands.any fun
      | .request _ _ responder => responder = .ticket ticket
      | _ => false

/-- Whether a window may still hear of announcements. -/
def holdsWindow (worker : Worker) (window : WindowId) : Bool :=
  worker.listeners.contains window ||
    worker.commands.any fun
      | .discover id _ _ _ => id = window
      | _ => false

end Worker

end Fieldbus
