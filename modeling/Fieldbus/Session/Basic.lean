import Fieldbus.Engine.Run
import Fieldbus.Session.Error

/-!
# Sessions

A session owns a link, runs an engine over it between a start and a shutdown, and keeps the device
cache across engines.  While no engine runs the session holds the link itself; an engine that
crashes takes the link with it.
-/

namespace Fieldbus

/-- What a session knows of the engine it started. -/
structure EngineRun where
  identity : LocalDevice
  timing : Timing
  /-- The engine's own part; an engine that crashed has none. -/
  worker : Option Worker
  deriving DecidableEq, Repr

/-- The stages of a session's life. -/
inductive Lifecycle where
  | notStarted
  /-- The link is being opened. -/
  | starting
  | running (run : EngineRun)
  deriving DecidableEq, Repr

/-- The name of a stage. -/
def Lifecycle.text : Lifecycle → String
  | .notStarted => "NotStarted"
  | .starting => "Starting"
  | .running _ => "Running"

/-- A session over a link with states in `σ`. -/
structure Session (σ : Type) extends Shared σ where
  /-- Whether the session holds the link itself. -/
  holdsLink : Bool
  lifecycle : Lifecycle

namespace Session

variable {σ : Type}

/-- A stopped session over a link. -/
def onLink (link : σ) : Session σ :=
  { link := link, clock := 0, cache := .empty, desk := {}, holdsLink := true,
    lifecycle := .notStarted }

/-- The engine run, if the session is running. -/
def run? (session : Session σ) : Option EngineRun :=
  match session.lifecycle with
  | .running run => some run
  | _ => none

/-- The engine's own part, if there is an engine alive. -/
def worker? (session : Session σ) : Option Worker := session.run?.bind EngineRun.worker

/-- The identity that the running engine announces. -/
def identity? (session : Session σ) : Option LocalDevice := session.run?.map EngineRun.identity

/-- The timing of the running engine. -/
def timing? (session : Session σ) : Option Timing := session.run?.map EngineRun.timing

/-- The text of a session. -/
def text (session : Session σ) : String :=
  "Session \x7b state: " ++ session.lifecycle.text ++ ", cached_devices: " ++
    Text.decimal session.cache.size ++ " \x7d"

/-- The engine run, which every operation but the start needs. -/
def engine (session : Session σ) : Except ClientError EngineRun :=
  match session.run? with
  | some run => .ok run
  | none => .error .notStarted

/-- The session whose engine's own part is given. -/
def withWorker (session : Session σ) (worker : Option Worker) : Session σ :=
  match session.lifecycle with
  | .running run => { session with lifecycle := .running { run with worker := worker } }
  | _ => session

/-- The session with a command handed to its engine, if there is one alive. -/
def submit? (session : Session σ) (command : Command) : Option (Session σ) :=
  session.worker?.map fun worker => session.withWorker (some (worker.submit command))

/-- Claims the link for an engine. -/
def claim (session : Session σ) : Session σ :=
  { session with holdsLink := false, lifecycle := .starting }

/-- Opens the claimed link and starts an engine over it; a link that does not open is given back. -/
def launch [Link σ] (session : Session σ) (parameters : LinkParameters) (identity : LocalDevice)
    (timing : Timing) : Except StartError Unit × Session σ :=
  match Link.connect parameters session.link with
  | (.error error, link) =>
    (.error (.link error),
      { session with link := link, holdsLink := true, lifecycle := .notStarted })
  | (.ok (), link) =>
    (.ok (),
      { session with
        link := link
        lifecycle := .running ⟨identity, timing, some { identity := identity, timing := timing }⟩ })

/-- Starts the engine, unless it is running already. -/
def ensureStarted [Link σ] (session : Session σ) (config : Config) :
    Except StartError Unit × Session σ :=
  if session.run?.isSome then (.ok (), session)
  else
    match config.resolve with
    | .error error => (.error (.config error), session)
    | .ok (parameters, identity) =>
      if session.holdsLink then session.claim.launch parameters identity config.timing
      else (.error .linkLost, session)

/-- Lets the engine, if there is one alive, work for one turn.  An engine that stops gives the link
back; one that crashes does not. -/
def turn [Link σ] (session : Session σ) : Session σ :=
  match session.worker? with
  | none => session
  | some worker =>
    match Engine.turn { session.toShared with toWorker := worker } with
    | .running engine =>
      { session with toShared := engine.toShared }.withWorker (some engine.toWorker)
    | .stopped shared => { shared with holdsLink := true, lifecycle := .notStarted }
    | .crashed shared => { session with toShared := shared }.withWorker none

/-- Stops the engine, which first carries out the commands handed to it before, and takes back its
link.  The link of an engine that crashed stays lost. -/
def shutdown [Link σ] (session : Session σ) : Session σ :=
  match session.submit? .shutdown with
  | some session => session.turn
  | none => { session with lifecycle := .notStarted }

/-- Announces the local device.  Tells whether there is an engine to do it. -/
def announce (session : Session σ) : Except ClientError (Bool × Session σ) := do
  let _ ← session.engine
  match session.submit? .announce with
  | some session => return (true, session)
  | none => return (false, session)

end Session

end Fieldbus
