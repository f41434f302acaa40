import Fieldbus.Proofs.Engine.Turn
import Fieldbus.Proofs.Session.Run
import Fieldbus.Session.Call

/-!
# A session and its callers

While the engine of a session works, callers begin operations and attend to them, start the session
and shut it down, in any order.  A scene is a session with all the calls that were begun, and a
history is what happens to it, one moment after the other.  The engine does one thing in a moment:
it carries out one command, listens once or gives up what is overdue; so callers may come in between
any two of these, and a turn of the engine is a row of such moments.

## Main definitions

* `Work`, `Engine.work`, `Session.work`: what an engine does in a moment.
* `Scene`, `Moment`, `Scene.proceed`: a session with its calls, and what a moment makes of them.
* `Scene.after`, `Scene.trace`: where a history leads, and the points that it goes through.

## Main results

* `Engine.turn_eq_workAll`: a turn is a row of works.
* `Scene.exists_after_turn`, `Scene.exists_after_shutdown`: scenes go through turns and shutdowns.
-/

namespace Fieldbus

/-- What an engine does in a moment. -/
inductive Work where
  /-- It carries out the oldest command; at a shutdown it stops. -/
  | obey
  | listen
  /-- It gives up the requests that have waited too long. -/
  | expire
  /-- It crashes, and leaves what outlives it as it is. -/
  | crash
  deriving DecidableEq, Repr

/-! ### The works of an engine -/

namespace Engine

variable {σ : Type} [Link σ]

/-- What an engine leaves that does one thing. -/
def work (engine : Engine σ) : Work → Turn σ
  | .obey =>
    match engine.commands with
    | [] => .running engine
    | .shutdown :: _ => .stopped engine.stop
    | command :: rest => .running (handle { engine with commands := rest } command)
  | .listen =>
    match engine.listen with
    | .ok after => .running after
    | .error shared => .crashed shared
  | .expire => .running engine.expire
  | .crash => .crashed engine.toShared

/-- What an engine leaves that does one thing after the other, until it ends. -/
def workAll (engine : Engine σ) : List Work → Turn σ
  | [] => .running engine
  | first :: rest =>
    match engine.work first with
    | .running after => after.workAll rest
    | ended => ended

theorem work_obey_of_ne {engine : Engine σ} {command : Command} {rest : List Command}
    (hqueue : engine.commands = command :: rest) (hne : command ≠ .shutdown) :
    engine.work .obey = .running (handle { engine with commands := rest } command) := by
  rw [work, hqueue]
  cases command with
  | shutdown => exact absurd rfl hne
  | _ => rfl

/-- Commands are carried out one by one, up to a shutdown. -/
theorem workAll_obey (commands : List Command) (rest : List Work) {engine : Engine σ}
    (hempty : engine.commands = []) :
    workAll { engine with commands := commands }
        (List.replicate commands.length .obey ++ rest) =
      match obeyAll commands engine with
      | (true, after) => .stopped after.stop
      | (false, after) => after.workAll rest := by
  induction commands generalizing engine with
  | nil =>
    have hsame : ({ engine with commands := [] } : Engine σ) = engine := by rw [← hempty]
    rw [hsame]
    rfl
  | cons command commands ih =>
    rw [List.length_cons, List.replicate_succ, List.cons_append, workAll]
    by_cases hcommand : command = .shutdown
    · subst hcommand
      exact congrArg Turn.stopped (engine.stop_withCommands _)
    · have hall : obeyAll (command :: commands) engine =
          obeyAll commands (engine.handle command) := by
        cases command <;> first | rfl | exact absurd rfl hcommand
      have hhandle : handle { engine with commands := commands } command =
          { engine.handle command with commands := commands } :=
        engine.handle_withCommands commands command
      rw [work_obey_of_ne rfl hcommand, hall, hhandle]
      exact ih ((engine.commands_handle command).trans hempty)

/-- **A turn is a row of works.**  The engine carries out its commands, listens once and gives up
what is overdue, unless it ends before. -/
theorem turn_eq_workAll (engine : Engine σ) :
    engine.turn =
      engine.workAll (List.replicate engine.commands.length .obey ++ [.listen, .expire]) := by
  have hobeys := workAll_obey engine.commands [.listen, .expire]
    (show ({ engine with commands := [] } : Engine σ).commands = [] from rfl)
  refine Eq.trans ?_ hobeys.symm
  rw [turn, obey]
  cases obeyAll engine.commands { engine with commands := [] } with
  | mk stopped obeyed =>
    cases stopped with
    | true => rfl
    | false =>
      simp only [workAll, work]
      cases obeyed.listen <;> rfl

end Engine

/-! ### The works of a session -/

namespace Session

variable {σ : Type}

/-- The session whose engine has left something. -/
def settle (session : Session σ) : Engine.Turn σ → Session σ
  | .running engine =>
    { session with toShared := engine.toShared }.withWorker (some engine.toWorker)
  | .stopped shared => { shared with holdsLink := true, lifecycle := .notStarted }
  | .crashed shared => { session with toShared := shared }.withWorker none

theorem alive?_settle_running {session : Session σ} {engine after : Engine σ}
    (h : session.alive? = some engine) : (session.settle (.running after)).alive? = some after := by
  obtain ⟨shared, holdsLink, lifecycle⟩ := session
  cases lifecycle with
  | running run => rfl
  | _ => cases h

theorem settle_settle_running (session : Session σ) (engine : Engine σ) (turn : Engine.Turn σ) :
    (session.settle (.running engine)).settle turn = session.settle turn := by
  obtain ⟨shared, holdsLink, lifecycle⟩ := session
  cases lifecycle <;> cases turn <;> rfl

theorem settle_running_self {session : Session σ} {engine : Engine σ}
    (h : session.alive? = some engine) : session.settle (.running engine) = session := by
  obtain ⟨worker, hworker, rfl⟩ := Option.map_eq_some_iff.mp h
  obtain ⟨run, hrun, halive⟩ := exists_running_of_worker? hworker
  rw [settle, withWorker_of_running hrun, ← halive, ← hrun]

variable [Link σ]

/-- The session after its engine, if there is one alive, has done one thing. -/
def work (session : Session σ) (work : Work) : Session σ :=
  match session.alive? with
  | none => session
  | some engine => session.settle (engine.work work)

theorem work_of_alive? {session : Session σ} {engine : Engine σ} (h : session.alive? = some engine)
    (work : Work) : session.work work = session.settle (engine.work work) := by
  rw [Session.work, h]

theorem turn_eq_settle {session : Session σ} {engine : Engine σ}
    (h : session.alive? = some engine) : session.turn = session.settle engine.turn := by
  obtain ⟨worker, hworker, rfl⟩ := Option.map_eq_some_iff.mp h
  rw [turn, hworker]
  dsimp only
  cases Engine.turn { session.toShared with toWorker := worker } <;> rfl

theorem foldl_work_of_alive?_eq_none {session : Session σ} (h : session.alive? = none)
    (works : List Work) : works.foldl work session = session := by
  induction works with
  | nil => rfl
  | cons first rest ih =>
    rw [List.foldl_cons, Session.work, h]
    exact ih

/-- The works of a session are those of its engine. -/
theorem foldl_work_of_alive? {session : Session σ} {engine : Engine σ}
    (h : session.alive? = some engine) (works : List Work) :
    works.foldl work session = session.settle (engine.workAll works) := by
  induction works generalizing session engine with
  | nil => exact (settle_running_self h).symm
  | cons first rest ih =>
    rw [List.foldl_cons, work_of_alive? h, Engine.workAll]
    cases hwork : engine.work first with
    | running after =>
      rw [ih (alive?_settle_running h), settle_settle_running]
    | stopped shared => exact foldl_work_of_alive?_eq_none rfl rest
    | crashed shared =>
      obtain ⟨worker, hworker, -⟩ := Option.map_eq_some_iff.mp h
      obtain ⟨run, hrun, -⟩ := exists_running_of_worker? hworker
      refine foldl_work_of_alive?_eq_none ?_ rest
      rw [settle, @withWorker_of_running _ { session with toShared := shared } _ hrun]
      rfl

theorem exists_works_of_turn (session : Session σ) :
    ∃ works : List Work, works.foldl work session = session.turn := by
  cases h : session.alive? with
  | none => exact ⟨[], (turn_of_alive?_eq_none h).symm⟩
  | some engine =>
    exact ⟨_, by rw [foldl_work_of_alive? h, turn_eq_settle h, engine.turn_eq_workAll]⟩

end Session

/-! ### Scenes -/

/-- The devices that a call was answered with. -/
def Call.devices? : Call → Option (List DeviceRecord)
  | .answered (.devices (.ok records)) => some records
  | _ => none

/-- A session with the calls of its callers, in the order in which they were begun. -/
structure Scene (σ : Type) where
  session : Session σ
  calls : List Call := []

/-- What happens in a scene at a time. -/
inductive Moment where
  | start (config : Config)
  /-- A caller asks the engine to stop. -/
  | shutdown
  | announce
  /-- A caller begins an operation. -/
  | begin (operation : Operation)
  /-- The caller of the call with a number attends to it. -/
  | attend (number : Nat)
  /-- Callers put records into the cache, or clear it. -/
  | refill (cache : DeviceCache)
  /-- Time passes. -/
  | pass (milliseconds : Nat)
  /-- The engine, if there is one alive, does one thing. -/
  | work (work : Work)

/-- A moment in a scene. -/
structure Point (σ : Type) where
  /-- The scene before. -/
  scene : Scene σ
  moment : Moment

namespace Scene

variable {σ : Type}

/-- A stopped session over a link, without callers. -/
def onLink (link : σ) : Scene σ := { session := .onLink link }

variable [Link σ]

/-- The scene after a moment. -/
def proceed (scene : Scene σ) : Moment → Scene σ
  | .start config => { scene with session := (scene.session.ensureStarted config).2 }
  | .shutdown =>
    { scene with
      session := (scene.session.submit? .shutdown).getD
        { scene.session with lifecycle := .notStarted } }
  | .announce =>
    { scene with session := scene.session.announce.toOption.elim scene.session Prod.snd }
  | .begin operation =>
    let (call, session) := scene.session.beginCall operation
    ⟨session, scene.calls ++ [call]⟩
  | .attend number =>
    match scene.calls[number]? with
    | none => scene
    | some call =>
      let (call, session) := scene.session.attend call
      ⟨session, scene.calls.set number call⟩
  | .refill cache => { scene with session := { scene.session with cache := cache } }
  | .pass milliseconds =>
    { scene with
      session := { scene.session with clock := scene.session.clock + milliseconds } }
  | .work work => { scene with session := scene.session.work work }

omit [Link σ] in
theorem calls_of_devices? {scene : Scene σ} {number : Nat} {records : List DeviceRecord}
    (h : scene.calls[number]?.bind Call.devices? = some records) :
    scene.calls[number]? = some (.answered (.devices (.ok records))) := by
  obtain ⟨call, hcall, hdevices⟩ := Option.bind_eq_some_iff.mp h
  rw [hcall]
  unfold Call.devices? at hdevices
  split at hdevices <;> cases hdevices
  rfl

theorem proceed_attend {scene : Scene σ} {number : Nat} {call : Call}
    (h : scene.calls[number]? = some call) :
    scene.proceed (.attend number) =
      ⟨(scene.session.attend call).2, scene.calls.set number (scene.session.attend call).1⟩ := by
  rw [proceed, h]

/-- The scene after a history. -/
def after (scene : Scene σ) (history : List Moment) : Scene σ := history.foldl proceed scene

/-- The points that a history goes through. -/
def trace (scene : Scene σ) : List Moment → List (Point σ)
  | [] => []
  | moment :: rest => ⟨scene, moment⟩ :: (scene.proceed moment).trace rest

theorem after_concat (scene : Scene σ) (history : List Moment) (moment : Moment) :
    scene.after (history ++ [moment]) = (scene.after history).proceed moment := by
  rw [after, List.foldl_append]
  rfl

theorem trace_concat (scene : Scene σ) (history : List Moment) (moment : Moment) :
    scene.trace (history ++ [moment]) = scene.trace history ++ [⟨scene.after history, moment⟩] := by
  induction history generalizing scene with
  | nil => rfl
  | cons first rest ih => exact congrArg (List.cons _) (ih (scene.proceed first))

theorem after_works (scene : Scene σ) (works : List Work) :
    scene.after (works.map .work) =
      { scene with session := works.foldl Session.work scene.session } := by
  induction works generalizing scene with
  | nil => rfl
  | cons first rest ih => exact ih (scene.proceed (.work first))

/-- A scene goes through turns. -/
theorem exists_after_turn (scene : Scene σ) :
    ∃ history, scene.after history = { scene with session := scene.session.turn } := by
  obtain ⟨works, hturn⟩ := scene.session.exists_works_of_turn
  exact ⟨works.map .work, by rw [after_works, hturn]⟩

/-- A scene goes through shutdowns. -/
theorem exists_after_shutdown (scene : Scene σ) :
    ∃ history, scene.after history = { scene with session := scene.session.shutdown } := by
  cases hsubmit : scene.session.submit? .shutdown with
  | none =>
    refine ⟨[.shutdown], ?_⟩
    rw [after, List.foldl_cons, List.foldl_nil, proceed, Session.shutdown, hsubmit]
    rfl
  | some submitted =>
    obtain ⟨history, hturn⟩ := exists_after_turn { scene with session := submitted }
    refine ⟨.shutdown :: history, ?_⟩
    have hasked : scene.proceed .shutdown = { scene with session := submitted } := by
      rw [proceed, hsubmit]
      rfl
    rw [after, List.foldl_cons, hasked, Session.shutdown, hsubmit]
    exact hturn

end Scene

end Fieldbus
