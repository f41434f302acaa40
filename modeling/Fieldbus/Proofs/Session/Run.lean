import Fieldbus.Proofs.Session.Enumeration

/-!
# The engine of a session

A session that runs has an engine, alive or crashed.  It starts one over its link if it holds the
link, hands it commands and lets it work, and it gets the link back from an engine that stops.

## Main results

* `Session.ensureStarted_cases`: what a start does.
* `Session.ensureStarted_withLink`: what a start has to do with the link.
* `Session.exists_of_submit?`: what it is to hand a command to the engine.
* `Session.turn_of_alive?`: what a turn of the engine makes of a session.
-/

namespace Fieldbus.Session

variable {σ : Type}

theorem worker?_of_notStarted {session : Session σ} (h : session.lifecycle = .notStarted) :
    session.worker? = none := by
  rw [worker?, run?, h]
  rfl

theorem worker?_of_running {session : Session σ} {run : EngineRun}
    (h : session.lifecycle = .running run) : session.worker? = run.worker := by
  rw [worker?, run?, h]
  rfl

theorem exists_running_of_worker? {session : Session σ} {worker : Worker}
    (h : session.worker? = some worker) :
    ∃ run, session.lifecycle = .running run ∧ run.worker = some worker := by
  obtain ⟨shared, holdsLink, lifecycle⟩ := session
  cases lifecycle with
  | notStarted => cases h
  | starting => cases h
  | running run => exact ⟨run, rfl, h⟩

theorem withWorker_of_running {session : Session σ} {run : EngineRun}
    (h : session.lifecycle = .running run) (worker : Option Worker) :
    session.withWorker worker =
      { session with lifecycle := .running { run with worker := worker } } := by
  rw [withWorker, h]

theorem submit?_of_running {session : Session σ} {run : EngineRun} {worker : Worker}
    (hrun : session.lifecycle = .running run) (halive : run.worker = some worker)
    (command : Command) :
    session.submit? command = some
      { session with
        lifecycle := .running { run with worker := some (worker.submit command) } } := by
  rw [submit?, worker?_of_running hrun, halive, Option.map_some, withWorker_of_running hrun]

/-- A session hands its commands to the engine that is alive. -/
theorem exists_of_submit? {session submitted : Session σ} {command : Command}
    (h : session.submit? command = some submitted) : ∃ run worker,
      session.lifecycle = .running run ∧ run.worker = some worker ∧
        submitted =
          { session with
            lifecycle := .running { run with worker := some (worker.submit command) } } := by
  obtain ⟨worker, hworker, rfl⟩ := Option.map_eq_some_iff.mp h
  obtain ⟨run, hrun, halive⟩ := exists_running_of_worker? hworker
  exact ⟨run, worker, hrun, halive, withWorker_of_running hrun _⟩

/-- The engine that was handed a command has yet to carry it out. -/
theorem exists_alive?_of_submit? {session submitted : Session σ} {command : Command}
    (h : session.submit? command = some submitted) :
    ∃ engine, submitted.alive? = some engine ∧ command ∈ engine.commands := by
  obtain ⟨run, worker, -, -, rfl⟩ := exists_of_submit? h
  exact ⟨_, rfl, List.mem_append_right _ (List.mem_singleton_self command)⟩

variable [Link σ]

theorem turn_of_alive?_eq_none {session : Session σ} (h : session.alive? = none) :
    session.turn = session := by
  rw [turn, Option.map_eq_none_iff.mp h]

/-- What a turn of the engine makes of a session. -/
theorem turn_of_alive? {session : Session σ} {engine : Engine σ}
    (h : session.alive? = some engine) : ∃ run,
      session.lifecycle = .running run ∧ run.worker = some engine.toWorker ∧
        engine.link = session.link ∧ session.turn =
          match engine.turn with
          | .running after =>
            ⟨after.toShared, session.holdsLink,
              .running { run with worker := some after.toWorker }⟩
          | .stopped shared => ⟨shared, true, .notStarted⟩
          | .crashed shared =>
            ⟨shared, session.holdsLink, .running { run with worker := none }⟩ := by
  obtain ⟨worker, hworker, rfl⟩ := Option.map_eq_some_iff.mp h
  obtain ⟨run, hrun, halive⟩ := exists_running_of_worker? hworker
  refine ⟨run, hrun, halive, rfl, ?_⟩
  rw [turn, hworker]
  dsimp only
  cases Engine.turn { session.toShared with toWorker := worker } with
  | running after =>
    exact @withWorker_of_running _ { session with toShared := after.toShared } _ hrun _
  | stopped shared => rfl
  | crashed shared =>
    exact @withWorker_of_running _ { session with toShared := shared } _ hrun _

/-- What a start does: nothing while an engine runs; otherwise it checks the settings, takes the
link and opens it, and gives up where one of these fails. -/
theorem ensureStarted_cases (session : Session σ) (config : Config) :
    (session.run?.isSome = true ∧ session.ensureStarted config = (.ok (), session)) ∨
      session.run? = none ∧
        ((∃ cause, config.resolve = .error cause ∧
            session.ensureStarted config = (.error (.config cause), session)) ∨
          ∃ parameters identity, config.resolve = .ok (parameters, identity) ∧
            ((session.holdsLink = false ∧
                session.ensureStarted config = (.error .linkLost, session)) ∨
              session.holdsLink = true ∧
                ((∃ error link, Link.connect parameters session.link = (.error error, link) ∧
                    session.ensureStarted config = (.error (.link error),
                      { session with
                        link := link, holdsLink := true, lifecycle := .notStarted })) ∨
                  ∃ link, Link.connect parameters session.link = (.ok (), link) ∧
                    session.ensureStarted config = (.ok (),
                      { session with
                        link := link
                        holdsLink := false
                        lifecycle := .running ⟨identity, config.timing,
                          some { identity := identity, timing := config.timing }⟩ })))) := by
  rw [ensureStarted]
  cases hrun : session.run? with
  | some run => exact .inl ⟨rfl, rfl⟩
  | none =>
    refine .inr ⟨rfl, ?_⟩
    rw [if_neg nofun]
    cases hresolve : config.resolve with
    | error cause => exact .inl ⟨cause, rfl, rfl⟩
    | ok resolved =>
      obtain ⟨parameters, identity⟩ := resolved
      refine .inr ⟨parameters, identity, rfl, ?_⟩
      cases hlink : session.holdsLink with
      | false => exact .inl ⟨rfl, by simp⟩
      | true =>
        refine .inr ⟨rfl, ?_⟩
        cases hconnect : Link.connect parameters session.link with
        | mk result link =>
          cases result with
          | error error =>
            exact .inl ⟨error, link, rfl, by simp [launch, hconnect, claim]⟩
          | ok =>
            exact .inr ⟨link, rfl, by simp [launch, hconnect, claim]⟩

/-- The state of a link matters to a start only in whether the link opens. -/
theorem ensureStarted_withLink (session : Session σ) (link : σ)
    (hopens : ∀ parameters,
      (Link.connect parameters link).1 = (Link.connect parameters session.link).1)
    (config : Config) :
    let other := Session.ensureStarted { session with link := link } config
    other.1 = (session.ensureStarted config).1 ∧
      other.2 = { (session.ensureStarted config).2 with link := other.2.link } := by
  intro other
  let replaced : Session σ := { session with link := link }
  have hother : other = replaced.ensureStarted config := rfl
  have hrun : replaced.run? = session.run? := rfl
  rw [hother, ensureStarted, ensureStarted, hrun]
  cases session.run? with
  | some run => exact ⟨rfl, rfl⟩
  | none =>
    rw [if_neg nofun, if_neg nofun]
    cases config.resolve with
    | error cause => exact ⟨rfl, rfl⟩
    | ok resolved =>
      obtain ⟨parameters, identity⟩ := resolved
      have hsame := hopens parameters
      have hholds : replaced.holdsLink = session.holdsLink := rfl
      dsimp only
      rw [hholds]
      cases session.holdsLink with
      | false => exact ⟨rfl, rfl⟩
      | true =>
        rw [if_pos rfl, if_pos rfl, launch, launch]
        have hclaimed : session.claim.link = session.link := rfl
        have hreplaced : replaced.claim.link = link := rfl
        rw [hclaimed, hreplaced]
        cases hfirst : Link.connect parameters link with
        | mk result opened =>
          cases hsecond : Link.connect parameters session.link with
          | mk result' opened' =>
            rw [hfirst, hsecond] at hsame
            obtain rfl : result = result' := hsame
            cases result <;> exact ⟨rfl, rfl⟩

end Fieldbus.Session
