import Fieldbus.Simulation.Bench

/-!
# Scenarios

What can be done on a bench, step by step: to the stations and the link, to the session, and while
a call is under way.  Each step yields a result, and its effects are complete when the next begins.
-/

namespace Fieldbus.Simulation

/-- A step of a scenario. -/
inductive Step where
  | addStation (station : Station)
  | store (mac : Mac) (slot : Slot) (octets : List UInt8)
  | stored (mac : Mac) (slot : Slot)
  | silence (mac : Mac) (silent : Bool)
  | failElement (mac : Mac) (index : UInt32) (cause : Failure)
  | stall (mac : Mac) (index : Option UInt32)
  | release
  | script (mac : Mac) (outcome : Outcome)
  | tell (indication : Indication)
  | failConnect (error : Option LinkError)
  | failConfirmed (fault : Option Fault)
  | failUnconfirmed (fault : Option Fault)
  | failReceive (count : Nat) (error : LinkError)
  | breakDown
  | takeLog
  | viewLink
  | start (config : Config)
  /-- Several callers start the session at the same time. -/
  | startTogether (callers : Nat) (config : Config)
  | shutdown
  | viewState
  | announce
  | call (operation : Operation)
  | putRecord (record : DeviceRecord)
  | getRecord (device : UInt32)
  | clearCache
  | viewCache
  | repeated (count : Nat) (step : Step)
  /-- Takes steps while a step that waits is under way. -/
  | during (step : Step) (steps : List Step)

/-- What a session shows of its state. -/
structure StateView where
  stage : String
  text : String
  identity : Option LocalDevice
  timing : Option Timing
  deriving DecidableEq, Repr

/-- What a step yields. -/
inductive Result where
  | done
  | nothing
  | flag (value : Bool)
  | count (value : Nat)
  | octets (value : Option (List UInt8))
  | log (entries : List Sent)
  | link (connects disconnects : Nat) (parameters : Option LinkParameters)
  | started (result : Except StartError Unit)
  | state (view : StateView)
  | announced (result : Except ClientError Bool)
  | answer (answer : Answer)
  | record (record : Option DeviceRecord) (mac : Option Mac)
  | cache (cache : DeviceCache)
  | several (results : List Result)
  | during (result : Result) (results : List Result)

namespace Bench

/-- Changes the segment, and lets the engine take it in. -/
def change (bench : Bench) (f : Segment → Segment) : Result × Bench :=
  (.done, (bench.mapSegment f).settle)

/-- Looks at something without changing it. -/
def view (bench : Bench) (result : Result) : Result × Bench := (result, bench)

/-- Starts the session. -/
def start (bench : Bench) (config : Config) : Result × Bench :=
  let (result, session) := bench.session.ensureStarted config
  (.started result, settle { bench with session := session })

/-- Repeats an action on the bench, and collects the results in order. -/
def replicate (action : Bench → Result × Bench) : Nat → Bench → List Result × Bench
  | 0, bench => ([], bench)
  | count + 1, bench =>
    let (result, bench) := action bench
    let (results, bench) := replicate action count bench
    (result :: results, bench)

/-- Puts a cache in place of the session's. -/
def withCache (bench : Bench) (cache : DeviceCache) : Bench :=
  { bench with session := { bench.session with cache := cache } }

/-- Announces the local device. -/
def announce (bench : Bench) : Result × Bench :=
  match bench.session.announce with
  | .ok (queued, session) =>
    (.announced (.ok queued), settle { bench with session := session })
  | .error error => (.announced (.error error), bench)

/-- What the session shows of its state. -/
def stateView (bench : Bench) : StateView :=
  ⟨bench.session.lifecycle.text, bench.session.text, bench.session.identity?,
    bench.session.timing?⟩

/-- The result of the innermost call, for which time passes as needed. -/
def finish (bench : Bench) : Result × Bench :=
  let (answer, bench) := bench.await
  ((answer.map Result.answer).getD .nothing, bench)

end Bench

mutual

/-- Takes a step on a bench. -/
def Step.run : Step → Bench → Result × Bench
  | .addStation station, bench => bench.change fun segment => segment.addStation station
  | .store mac slot octets, bench =>
    bench.change fun segment => segment.mapStation mac fun station => station.store slot octets
  | .stored mac slot, bench =>
    bench.view (.octets ((bench.session.link.station? mac).bind fun station =>
      station.stored? slot))
  | .silence mac silent, bench =>
    bench.change fun segment =>
      segment.mapStation mac fun station => { station with silent := silent }
  | .failElement mac index cause, bench =>
    bench.change fun segment => segment.mapStation mac fun station =>
      { station with faults := assign index cause station.faults }
  | .stall mac index, bench =>
    bench.change fun segment =>
      segment.mapStation mac fun station => { station with stall := index }
  | .release, bench =>
    (.count bench.session.link.held.length, (bench.mapSegment Segment.release).settle)
  | .script mac outcome, bench =>
    bench.change fun segment => segment.mapStation mac fun station =>
      { station with script := station.script ++ [outcome] }
  | .tell indication, bench => bench.change fun segment => segment.tell indication
  | .failConnect error, bench =>
    bench.change fun segment => { segment with connectError := error }
  | .failConfirmed fault, bench =>
    bench.change fun segment => { segment with confirmedFault := fault }
  | .failUnconfirmed fault, bench =>
    bench.change fun segment => { segment with unconfirmedFault := fault }
  | .failReceive count error, bench =>
    bench.change fun segment => { segment with receiveFault := (count, error) }
  | .breakDown, bench => bench.change fun segment => { segment with breaking := true }
  | .takeLog, bench =>
    (.log bench.session.link.log, bench.mapSegment fun segment => { segment with log := [] })
  | .viewLink, bench =>
    let segment := bench.session.link
    bench.view (.link segment.connects segment.disconnects segment.parameters)
  | .start config, bench => bench.start config
  | .startTogether callers config, bench =>
    let (results, bench) := Bench.replicate (fun bench => bench.start config) callers bench
    (.several results, bench)
  | .shutdown, bench =>
    (.done, Bench.attend { bench with session := bench.session.shutdown })
  | .viewState, bench => bench.view (.state bench.stateView)
  | .announce, bench => bench.announce
  | .call operation, bench => (bench.beginCall operation).finish
  | .putRecord record, bench =>
    (.flag (DeviceCache.accepts record), bench.withCache (bench.session.cache.put record))
  | .getRecord device, bench =>
    bench.view (.record (bench.session.cache.get? device) (bench.session.cache.mac? device))
  | .clearCache, bench => (.done, bench.withCache .empty)
  | .viewCache, bench => bench.view (.cache bench.session.cache)
  | .repeated count step, bench =>
    let (results, bench) := Bench.replicate step.run count bench
    (results.getLastD .nothing, bench)
  | .during (.call operation) steps, bench =>
    let (results, bench) := runAll steps (bench.beginCall operation)
    let (result, bench) := bench.finish
    (.during result results, bench)
  | .during step steps, bench =>
    let (result, bench) := step.run bench
    let (results, bench) := runAll steps bench
    (.during result results, bench)

/-- Takes steps one after the other. -/
def runAll : List Step → Bench → List Result × Bench
  | [], bench => ([], bench)
  | step :: rest, bench =>
    let (result, bench) := step.run bench
    let (results, bench) := runAll rest bench
    (result :: results, bench)

end

/-- The results of the steps of a scenario, on a fresh bench. -/
def scenario (steps : List Step) : List Result := (runAll steps .fresh).1

end Fieldbus.Simulation
