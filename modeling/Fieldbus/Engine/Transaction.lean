import Fieldbus.Engine.Basic

/-!
# Transactions

A confirmed request from its start to its outcome.  A request gets a free invoke id and waits under
it until the station it was sent to answers with that id, or its time is up.  A request that cannot
be sent fails at once.  The outcome goes to the responder; a walk may go on with another request.
-/

namespace Fieldbus.Engine

variable {σ : Type}

/-- The engine whose responder has got a failure.  No walk goes on after one. -/
def fail (engine : Engine σ) (responder : Responder) (failure : Failure) : Engine σ :=
  match responder with
  | .ticket ticket => { engine with desk := engine.desk.leave ticket (.failure failure) }
  | .walk walk =>
    { engine with
      desk := engine.desk.mapReport walk.report fun report =>
        (walk.onReply (.failure failure) report).2 }

/-- The reason given where all invoke ids are busy. -/
def noFreeId : String := "no free invoke id"

/-- Sends a request, which then waits for its answer; a request that cannot be sent fails. -/
def start [Link σ] (engine : Engine σ) (destination : Mac) (request : ConfirmedRequest)
    (responder : Responder) : Engine σ :=
  match engine.takeId? with
  | none => engine.fail responder (.link noFreeId)
  | some (id, worker) =>
    match Link.sendConfirmed destination id request engine.link with
    | (.error error, link) =>
      Engine.fail { engine with toWorker := worker, link := link } responder (.link error.message)
    | (.ok (), link) =>
      { engine with
        link := link
        toWorker :=
          { worker with
            pending := worker.pending ++ [⟨id, destination, engine.clock, responder⟩] } }

/-- Hands an outcome to its responder. -/
def complete [Link σ] (engine : Engine σ) (responder : Responder) (outcome : Outcome) : Engine σ :=
  match responder with
  | .ticket ticket => { engine with desk := engine.desk.leave ticket outcome }
  | .walk walk =>
    let (next, report) := walk.onReply outcome (engine.desk.report walk.report)
    let engine :=
      { engine with desk := engine.desk.mapReport walk.report fun _ => report }
    match next with
    | none => engine
    | some (request, walk) => engine.start walk.destination request (.walk walk)

/-- Takes in that a station answered the request with an id.  An id under which nothing waits, or a
request to another station, is none of the engine's. -/
def completion [Link σ] (engine : Engine σ) (source : Mac) (id : InvokeId) (outcome : Outcome) :
    Engine σ :=
  match engine.pending? id with
  | none => engine
  | some entry =>
    if entry.destination = source then
      Engine.complete { engine with toWorker := engine.drop id } entry.responder outcome
    else engine

/-- Whether a request has waited longer than it may. -/
def isOverdue (engine : Engine σ) (entry : Pending) : Bool :=
  entry.sentAt + engine.timing.apduTimeout.toNat < engine.clock

/-- Gives up a request that has waited too long. -/
def giveUp [Link σ] (engine : Engine σ) (entry : Pending) : Engine σ :=
  Engine.complete { engine with toWorker := engine.drop entry.id } entry.responder
    (.failure .timeout)

/-- Gives up all requests that have waited too long. -/
def expire [Link σ] (engine : Engine σ) : Engine σ :=
  (engine.pending.filter engine.isOverdue).foldl giveUp engine

end Fieldbus.Engine
