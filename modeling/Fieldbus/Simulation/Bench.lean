import Fieldbus.Session.Call
import Fieldbus.Simulation.Segment

/-!
# Test benches

A session over a simulated segment, with a clock that moves only when there is nothing else to do.
Calls wait on the bench: they are attended to after each turn of the engine and whenever time has
passed, so what a call yields does not hang on who is scheduled when.
-/

namespace Fieldbus.Simulation

/-- A session over a simulated segment, with the calls that wait. -/
structure Bench where
  session : Session Segment
  /-- The calls under way, the innermost first. -/
  calls : List Call

namespace Bench

/-- A stopped session over an empty segment. -/
def fresh : Bench := ⟨.onLink {}, []⟩

/-- The bench with its segment changed. -/
def mapSegment (bench : Bench) (change : Segment → Segment) : Bench :=
  { bench with session := { bench.session with link := change bench.session.link } }

/-- Attends to a call a number of times. -/
def attendWithin : Nat → Session Segment → Call → Call × Session Segment
  | 0, session, call => (call, session)
  | count + 1, session, call =>
    let (call, session) := session.attend call
    attendWithin count session call

/-- How many records wait for a call. -/
def backlog (session : Session Segment) : Call → Nat
  | .discover discovery _ =>
    ((session.desk.window? discovery.window).map fun window => window.waiting.length).getD 0
  | _ => 0

/-- Attends to a call as long as there is something to do about it: a look at the clock and a fetch
for each record that waits. -/
def attendTo (session : Session Segment) (call : Call) : Call × Session Segment :=
  attendWithin (2 * backlog session call + 2) session call

/-- Attends to calls, one after the other. -/
def attendAll (session : Session Segment) : List Call → List Call × Session Segment
  | [] => ([], session)
  | call :: rest =>
    let (call, session) := attendTo session call
    let (rest, session) := attendAll session rest
    (call :: rest, session)

/-- Attends to all calls. -/
def attend (bench : Bench) : Bench :=
  let (calls, session) := attendAll bench.session bench.calls
  ⟨session, calls⟩

/-- One turn of the engine, after which all calls are attended to. -/
def turn (bench : Bench) : Bench := Bench.attend { bench with session := bench.session.turn }

/-- Whether the engine has something to do that takes no time. -/
def isBusy (bench : Bench) : Bool :=
  bench.session.worker?.any fun worker =>
    !worker.commands.isEmpty || !bench.session.link.isQuiet

/-- Takes turns while the engine is busy. -/
def settleWithin : Nat → Bench → Bench
  | 0, bench => bench
  | count + 1, bench => if bench.isBusy then settleWithin count bench.turn else bench

/-- How many turns the engine may be busy.  A turn uses up an indication or a fault, and carries out
the commands that wait.  A command gives rise to an announcement of each station or to the reads of
a walk.  A walk has no more reads than there are indices, unless a scripted answer sets it back. -/
def patience (bench : Bench) : Nat :=
  let segment := bench.session.link
  let scripted := segment.stations.foldl (fun total station => total + station.script.length) 0
  let waiting :=
    (bench.session.worker?.map fun worker =>
      worker.commands.length + worker.pending.length).getD 0
  segment.inbox.length + segment.receiveFault.1 +
    (waiting + scripted + 1) * (segment.stations.length + UInt32.size + 2)

/-- Lets the engine work until it has nothing to do. -/
def settle (bench : Bench) : Bench := bench.settleWithin bench.patience

/-- The times to come at which a request is given up or a call ends. -/
def dueTimes (bench : Bench) : List Nat :=
  let expiries := (bench.session.worker?.map fun worker =>
    worker.pending.map fun entry =>
      entry.sentAt + worker.timing.apduTimeout.toNat + 1).getD []
  (expiries ++ bench.calls.filterMap Call.deadline?).filter (bench.session.clock < ·)

/-- The bench at a later time, once the engine has done what is to be done then. -/
def advance (bench : Bench) (time : Nat) : Bench :=
  let later := { bench with session := { bench.session with clock := time } }
  later.attend.turn.settle

/-- Lets time pass until the innermost call has its answer. -/
def awaitWithin : Nat → Bench → Bench
  | 0, bench => bench
  | count + 1, bench =>
    match bench.calls, bench.dueTimes.min? with
    | .answered _ :: _, _ => bench
    | _, some time => awaitWithin count (bench.advance time)
    | _, none => bench

/-- Waits for the innermost call, which then no longer waits on the bench. -/
def await (bench : Bench) : Option Answer × Bench :=
  let bench := bench.awaitWithin bench.dueTimes.length
  match bench.calls with
  | [] => (none, bench)
  | call :: rest =>
    let (answer, session) := bench.session.conclude call
    (some answer, settle ⟨session, rest⟩)

/-- Begins an operation, and lets the engine do what it can do at once. -/
def beginCall (bench : Bench) (operation : Operation) : Bench :=
  let (call, session) := bench.session.beginCall operation
  settle (attend ⟨session, call :: bench.calls⟩)

end Bench

end Fieldbus.Simulation
