import Fieldbus.Proofs.Engine.Spared
import Fieldbus.Proofs.Session.Calls
import Fieldbus.Proofs.Session.Windows

/-!
# The engines of a session

One engine after the other works for a session.  As long as an engine is alive, all that happens in
a scene is a row of its steps, whether a caller does it or the engine itself; so whatever holds at
every point of a run of an engine holds of every scene.  An engine ends at a shutdown or in a crash,
and a new one starts with the desk that is there.

## Main definitions

* `Session.Stays`: a session that goes on with the engine that it has, or without one.
* `Session.Moves`: a session that goes on, or whose engine starts or ends.
* `Session.Served`: a session whose engine is at a point of a run.
* `Session.Forgets`: a session that has nothing of a client any more.

## Main results

* `Scene.moves_proceed`: in a moment a session does one of these things.
* `Scene.served_after`: every engine of a scene is at a point of a run.
* `Scene.spares_after`: a client is left alone that a session has nothing of.
-/

namespace Fieldbus

namespace Session

variable {σ : Type}

theorem exists_accept_of_submit? {before after : Session σ} {desk : Desk} {command : Command}
    (h : submit? { before with desk := desk } command = some after) :
    ∃ worker, before.alive? = some ⟨before.toShared, worker⟩ ∧
      after.alive? =
        some (Engine.accept ⟨{ before.toShared with desk := desk }, worker⟩ command) := by
  obtain ⟨run, worker, hrun, halive, rfl⟩ := exists_of_submit? h
  have hrun : before.lifecycle = .running run := hrun
  refine ⟨worker, ?_, rfl⟩
  rw [alive?, worker?_of_running hrun, halive]
  rfl

theorem submit?_eq_none_iff {session : Session σ} {command : Command} :
    session.submit? command = none ↔ session.alive? = none := by
  rw [submit?, alive?, Option.map_eq_none_iff, Option.map_eq_none_iff]

variable [Link σ]

/-- A session that goes on with the engine that it has, or without one. -/
inductive Stays (before after : Session σ) : Prop
  /-- The engine that is alive goes through steps. -/
  | runs {engine next : Engine σ} (hbefore : before.alive? = some engine)
      (hreaches : engine.Reaches next) (hafter : after.alive? = some next)
  /-- No engine is alive; at most a caller stops waiting. -/
  | rests (hbefore : before.alive? = none) (hafter : after.alive? = none)
      (hknows : ∀ client, after.desk.Knows client ↔ before.desk.Knows client)
      (hspares : ∀ client, before.desk.Spares client after.desk)

/-- What happens to a session in a moment. -/
inductive Moves (before after : Session σ) : Prop
  | stays (h : Stays before after)
  /-- An engine starts with the desk that is there. -/
  | starts {shared : Shared σ} {identity : LocalDevice} {timing : Timing}
      (hbefore : before.alive? = none) (hdesk : shared.desk = before.desk)
      (hafter : after.alive? = some (Engine.launch shared identity timing))
  /-- The engine comes to a shutdown and stops. -/
  | stops {engine : Engine σ} (hbefore : before.alive? = some engine)
      (hafter : after.alive? = none) (hdesk : after.desk = engine.stop.desk)
  /-- The engine crashes, and all stays on the desk as it is. -/
  | crashes {engine : Engine σ} (hbefore : before.alive? = some engine)
      (hafter : after.alive? = none) (hdesk : after.desk = engine.desk)

namespace Stays

variable {before after : Session σ}

theorem of_desk (hbefore : before.alive? = none) (hafter : after.alive? = none)
    (htickets : after.desk.tickets = before.desk.tickets)
    (houtcomes : after.desk.outcomes = before.desk.outcomes)
    (hreports : after.desk.reports = before.desk.reports) : before.Stays after := by
  refine .rests hbefore hafter (fun client => ?_) fun client => ?_
  · cases client <;> simp [Desk.Knows, htickets, hreports]
  · cases client with
    | ticket ticket =>
      change after.desk.answers ticket = before.desk.answers ticket
      rw [Desk.answers, houtcomes, Desk.answers]
    | report report =>
      left
      rw [Desk.report, hreports, Desk.report]

theorem refl (session : Session σ) : session.Stays session := by
  cases halive : session.alive? with
  | none => exact .of_desk halive halive rfl rfl rfl
  | some engine => exact .runs halive .refl halive

/-- What happens around an engine that is alive is a step. -/
theorem of_perform {engine : Engine σ} (action : Action) (hbefore : before.alive? = some engine)
    (hafter : after.alive? = some (engine.perform action)) : before.Stays after :=
  .runs hbefore (.single ⟨_, .act engine action⟩) hafter

/-- What touches only what outlives the engine can be done with an engine and without one. -/
theorem of_shared (action : Action) {shared : Shared σ}
    (hperform : ∀ worker, Engine.perform ⟨before.toShared, worker⟩ action = ⟨shared, worker⟩)
    (hknows : ∀ client, shared.desk.Knows client ↔ before.desk.Knows client)
    (hspares : ∀ client, before.desk.Spares client shared.desk) :
    before.Stays { before with toShared := shared } := by
  cases halive : before.alive? with
  | none =>
    have hidle : before.worker? = none := Option.map_eq_none_iff.mp halive
    exact .rests halive (Option.map_eq_none_iff.mpr hidle) hknows hspares
  | some engine =>
    obtain ⟨worker, hworker, rfl⟩ := Option.map_eq_some_iff.mp halive
    exact .of_perform action halive ((Option.map_eq_some_iff.mpr ⟨worker, hworker, rfl⟩).trans
      (congrArg some (hperform worker).symm))

end Stays

/-! ### Callers -/

section Callers

variable (session : Session σ)

theorem stays_beginCall (operation : Operation) :
    session.Stays (session.beginCall operation).2 := by
  rcases hbegin : session.beginCall operation with ⟨call, after⟩
  cases submits_of_beginCall hbegin with
  | answered => exact .refl session
  | asks _ _ _ hsubmit =>
    obtain ⟨worker, halive, hafter⟩ := exists_accept_of_submit? hsubmit
    exact .of_perform (.ask _ _) halive hafter
  | walks _ _ hsubmit =>
    obtain ⟨worker, halive, hafter⟩ := exists_accept_of_submit? hsubmit
    exact .of_perform (.enumerate _ _) halive hafter
  | opens _ _ hsubmit =>
    obtain ⟨worker, halive, hafter⟩ := exists_accept_of_submit? hsubmit
    exact .of_perform (.discover _ _ _ _) halive hafter

theorem stays_fetch (discovery : Discovery) : session.Stays (session.fetch discovery) := by
  refine .of_shared (.fetch discovery.window) (fun _ => rfl) (fun client => ?_) fun client => ?_
  · cases client <;> exact Iff.rfl
  · cases client with
    | ticket ticket => rfl
    | report report => exact .inl rfl

theorem stays_conclude (call : Call) : session.Stays (session.conclude call).2 := by
  cases call with
  | enumerate walking =>
    refine .of_shared (.abandon walking.report) (fun _ => rfl)
      (session.desk.touches_mapReport walking.report _).knows_iff fun client => ?_
    cases client with
    | ticket ticket => rfl
    | report report => exact session.desk.report_mapReport walking.report _ report
  | discover discovery waits =>
    change session.Stays (session.endDiscovery discovery)
    rw [endDiscovery]
    cases hsubmit : submit? { session with
        desk := session.desk.mapWindow discovery.window Window.close }
        (.endDiscovery discovery.window) with
    | none =>
      have hidle : session.alive? = none :=
        Option.map_eq_none_iff.mpr (Option.map_eq_none_iff.mp hsubmit)
      have hworker := Option.map_eq_none_iff.mp hidle
      exact .of_desk hidle (Option.map_eq_none_iff.mpr hworker) rfl rfl rfl
    | some submitted =>
      obtain ⟨worker, halive, hafter⟩ := exists_accept_of_submit? hsubmit
      exact .of_perform (.endDiscovery _) halive hafter
  | _ => exact .refl session

theorem stays_attend (call : Call) : session.Stays (session.attend call).2 := by
  rw [attend]
  split
  · exact session.stays_conclude call
  · rcases session.collect_eq_self_or_fetch call with hsame | ⟨discovery, -, hfetched⟩
    · rw [hsame]
      exact .refl session
    · rw [hfetched]
      exact session.stays_fetch discovery

theorem stays_refill (cache : DeviceCache) : session.Stays { session with cache := cache } :=
  .of_shared (.refill cache) (fun _ => rfl) (fun _ => .rfl)
    fun client => (Desk.Alike.refl client session.desk).spares

theorem stays_pass (milliseconds : Nat) :
    session.Stays { session with clock := session.clock + milliseconds } :=
  .of_shared (.pass milliseconds) (fun _ => rfl) (fun _ => .rfl)
    fun client => (Desk.Alike.refl client session.desk).spares

theorem stays_announce :
    session.Stays (session.announce.toOption.elim session Prod.snd) := by
  cases hannounce : session.announce with
  | error error => exact .refl session
  | ok announced =>
    rcases submit?_or_eq_of_announce hannounce with hsubmit | heq
    · obtain ⟨worker, halive, hafter⟩ :=
        @exists_accept_of_submit? _ session _ session.desk _ hsubmit
      exact .of_perform .announce halive hafter
    · change session.Stays announced.2
      rw [heq]
      exact .refl session

theorem stays_shutdown :
    session.Stays ((session.submit? .shutdown).getD { session with lifecycle := .notStarted }) := by
  cases hsubmit : session.submit? .shutdown with
  | none => exact .of_desk (submit?_eq_none_iff.mp hsubmit) rfl rfl rfl rfl
  | some submitted =>
    obtain ⟨worker, halive, hafter⟩ := @exists_accept_of_submit? _ session _ session.desk _ hsubmit
    exact .of_perform .shutdown halive hafter

/-- A start does nothing to an engine that is there, and starts one otherwise if it can. -/
theorem moves_ensureStarted (config : Config) :
    session.Moves (session.ensureStarted config).2 := by
  have hnone (hrun : session.run? = none) : session.alive? = none := by
    rw [alive?, worker?, hrun]
    rfl
  rcases session.ensureStarted_cases config with ⟨-, heq⟩ | ⟨hrun, hcases⟩
  · rw [heq]
    exact .stays (.refl session)
  · rcases hcases with ⟨cause, -, heq⟩ | ⟨parameters, identity, -, hcases⟩
    · rw [heq]
      exact .stays (.refl session)
    · rcases hcases with ⟨-, heq⟩ | ⟨-, ⟨error, link, -, heq⟩ | ⟨link, -, heq⟩⟩
      · rw [heq]
        exact .stays (.refl session)
      · rw [heq]
        exact .stays (.of_desk (hnone hrun) rfl rfl rfl rfl)
      · rw [heq]
        exact @Moves.starts _ _ _ _ { session.toShared with link := link } identity config.timing
          (hnone hrun) rfl rfl

end Callers

end Session

/-! ### The engine -/

namespace Engine

variable {σ : Type} [Link σ]

/-- Whether an engine is at a point of a run that began with a sound desk. -/
def Launched (engine : Engine σ) : Prop :=
  ∃ shared identity timing, shared.desk.Sound ∧ (launch shared identity timing).Reaches engine

variable {engine after : Engine σ}

theorem Launched.exists_sound (h : engine.Launched) : ∃ start, engine.Sound start := by
  obtain ⟨shared, identity, timing, hdesk, hreaches⟩ := h
  exact ⟨shared.desk, (Sound.of_launch shared hdesk identity timing).of_reaches hreaches⟩

theorem Launched.of_reaches (h : engine.Launched) (hreaches : engine.Reaches after) :
    after.Launched := by
  obtain ⟨shared, identity, timing, hdesk, hengine⟩ := h
  exact ⟨shared, identity, timing, hdesk, hengine.trans hreaches⟩

theorem reaches_of_work_running (h : engine.Launched) {work : Work}
    (hwork : engine.work work = .running after) : engine.Reaches after := by
  cases work with
  | obey =>
    rw [Engine.work] at hwork
    split at hwork
    · exact Turn.running.inj hwork ▸ .refl
    · cases hwork
    · rename_i command rest hne hqueue
      exact Turn.running.inj hwork ▸ .single ⟨_, .obey hqueue hne⟩
  | listen =>
    rw [Engine.work] at hwork
    split at hwork
    · rename_i hlisten
      exact Turn.running.inj hwork ▸ .single ⟨_, .listen hlisten⟩
    · cases hwork
  | expire =>
    obtain ⟨start, hsound⟩ := h.exists_sound
    exact Turn.running.inj hwork ▸ reaches_giveUp (hsound.ids.sublist (List.filter_sublist.map _))
      (fun _ hentry => (List.mem_filter.mp hentry).1) fun _ hentry => (List.mem_filter.mp hentry).2
  | crash => cases hwork

/-- An engine stops at a shutdown only. -/
theorem of_work_stopped {work : Work} {left : Shared σ} (hwork : engine.work work = .stopped left) :
    work = .obey ∧ left = engine.stop ∧ ∃ behind, engine.commands = .shutdown :: behind := by
  cases work with
  | obey =>
    rw [Engine.work] at hwork
    split at hwork
    · cases hwork
    · rename_i behind hqueue
      exact ⟨rfl, (Turn.stopped.inj hwork).symm, behind, hqueue⟩
    · cases hwork
  | listen =>
    rw [Engine.work] at hwork
    split at hwork <;> cases hwork
  | expire => cases hwork
  | crash => cases hwork

theorem desk_of_work_crashed {work : Work} {left : Shared σ}
    (hwork : engine.work work = .crashed left) : left.desk = engine.desk := by
  cases work with
  | obey =>
    rw [Engine.work] at hwork
    split at hwork <;> cases hwork
  | listen =>
    rw [Engine.work] at hwork
    split at hwork
    · cases hwork
    · rename_i hlisten
      exact Turn.crashed.inj hwork ▸ (listen_error hlisten).2
  | expire => cases hwork
  | crash =>
    cases hwork
    rfl

end Engine

namespace Session

variable {σ : Type}

theorem alive?_settle_crashed (session : Session σ) (shared : Shared σ) :
    (session.settle (.crashed shared)).alive? = none := by
  obtain ⟨before, holdsLink, lifecycle⟩ := session
  cases lifecycle <;> rfl

variable [Link σ]

/-- What the engine does is a row of steps, or its end. -/
theorem moves_work {session : Session σ}
    (h : ∀ engine, session.alive? = some engine → engine.Launched) (work : Work) :
    session.Moves (session.work work) := by
  cases halive : session.alive? with
  | none =>
    rw [Session.work, halive]
    exact .stays (.refl session)
  | some engine =>
    rw [work_of_alive? halive]
    cases hwork : engine.work work with
    | running after =>
      exact .stays (.runs halive (Engine.reaches_of_work_running (h engine halive) hwork)
        (alive?_settle_running halive))
    | stopped left =>
      obtain ⟨-, rfl, -⟩ := Engine.of_work_stopped hwork
      exact .stops halive rfl rfl
    | crashed left =>
      refine .crashes halive (session.alive?_settle_crashed left) ?_
      rw [desk_settle_crashed, Engine.desk_of_work_crashed hwork]

/-! ### Whole lives -/

/-- A session whose desk is sound, and whose engine, if one is alive, is at a point of a run. -/
structure Served (session : Session σ) : Prop where
  desk : session.desk.Sound
  launched : ∀ engine, session.alive? = some engine → engine.Launched

/-- A session that knows a client whose engine, if one is alive, has nothing of the client. -/
structure Forgets (session : Session σ) (client : Client) : Prop where
  knows : session.desk.Knows client
  lacks : ∀ engine, session.alive? = some engine → engine.Lacks client

variable {before after : Session σ}

theorem Served.of_alive?
    (hafter : ∀ {engine : Engine σ}, after.alive? = some engine → engine.Launched)
    (hdesk : after.alive? = none → after.desk.Sound) : after.Served := by
  refine ⟨?_, fun engine => hafter⟩
  cases halive : after.alive? with
  | none => exact hdesk halive
  | some engine =>
    obtain ⟨start, hsound⟩ := (hafter halive).exists_sound
    exact desk_of_alive? halive ▸ hsound.desk

/-- **The engine of a session is at a point of a run**, whatever happens. -/
theorem Served.of_moves (h : before.Served) (hmoves : before.Moves after) : after.Served := by
  cases hmoves with
  | stays hstays =>
    cases hstays with
    | runs hbefore hreaches hafter =>
      refine .of_alive? (fun halive => ?_) fun halive => ?_
      · cases hafter.symm.trans halive
        exact (h.launched _ hbefore).of_reaches hreaches
      · cases hafter.symm.trans halive
    | rests hbefore hafter hknows hspares =>
      refine ⟨fun ticket hticket => ?_, fun engine halive => ?_⟩
      · have hsame : after.desk.answers ticket = before.desk.answers ticket :=
          hspares (.ticket ticket)
        have hunknown : ¬ before.desk.Knows (.ticket ticket) :=
          fun hknown => absurd ((hknows _).mpr hknown) (Nat.not_lt.mpr hticket)
        exact hsame.trans (h.desk ticket (Nat.not_lt.mp hunknown))
      · cases hafter.symm.trans halive
  | @starts shared identity timing hbefore hdesk hafter =>
    refine .of_alive? (fun halive => ?_) fun halive => ?_
    · cases hafter.symm.trans halive
      exact ⟨shared, identity, timing, hdesk ▸ h.desk, .refl⟩
    · cases hafter.symm.trans halive
  | stops hbefore hafter hdesk =>
    refine .of_alive? (fun halive => ?_) fun _ => ?_
    · cases hafter.symm.trans halive
    · obtain ⟨start, hsound⟩ := (h.launched _ hbefore).exists_sound
      exact hdesk ▸ hsound.desk_stop
  | crashes hbefore hafter hdesk =>
    refine .of_alive? (fun halive => ?_) fun _ => ?_
    · cases hafter.symm.trans halive
    · rw [hdesk, desk_of_alive? hbefore]
      exact h.desk

/-- A client of which a session has nothing is left alone, whatever happens. -/
theorem Forgets.of_moves {client : Client} (h : before.Served) (hforgets : before.Forgets client)
    (hmoves : before.Moves after) :
    after.Forgets client ∧ before.desk.Spares client after.desk := by
  obtain ⟨hknows, hlacks⟩ := hforgets
  cases hmoves with
  | stays hstays =>
    cases hstays with
    | @runs engine next hbefore hreaches hafter =>
      obtain ⟨start, hsound⟩ := (h.launched _ hbefore).exists_sound
      have hdesk := desk_of_alive? hbefore
      obtain ⟨hnext, hspares⟩ :=
        hsound.spares_of_reaches hreaches (hdesk ▸ hknows) (hlacks _ hbefore)
      have hknows := hsound.knows_of_reaches hreaches (hdesk ▸ hknows)
      rw [← hdesk, ← desk_of_alive? hafter]
      refine ⟨⟨desk_of_alive? hafter ▸ hknows, fun engine halive => ?_⟩, hspares⟩
      cases hafter.symm.trans halive
      exact hnext
    | rests hbefore hafter hknows' hspares =>
      refine ⟨⟨(hknows' client).mpr hknows, fun engine halive => ?_⟩, hspares client⟩
      cases hafter.symm.trans halive
  | @starts shared identity timing hbefore hdesk hafter =>
    have hafterDesk : after.desk = before.desk := (desk_of_alive? hafter).symm.trans hdesk
    rw [hafterDesk]
    refine ⟨⟨hafterDesk ▸ hknows, fun engine halive => ?_⟩, (Desk.Alike.refl client _).spares⟩
    cases hafter.symm.trans halive
    exact ⟨rfl, rfl⟩
  | @stops engine hbefore hafter hdesk =>
    have hbeforeDesk := desk_of_alive? hbefore
    refine ⟨⟨?_, fun engine halive => ?_⟩, ?_⟩
    · rw [hdesk, engine.knows_stop, hbeforeDesk]
      exact hknows
    · cases hafter.symm.trans halive
    · rw [hdesk, ← hbeforeDesk]
      exact (Engine.alike_stop (hlacks _ hbefore).waiting).spares
  | crashes hbefore hafter hdesk =>
    rw [hdesk, desk_of_alive? hbefore]
    refine ⟨⟨?_, fun engine halive => ?_⟩, (Desk.Alike.refl client _).spares⟩
    · rw [hdesk, desk_of_alive? hbefore]
      exact hknows
    · cases hafter.symm.trans halive

end Session

namespace Scene

variable {σ : Type} [Link σ] {scene : Scene σ}

/-- In a moment a session goes on as it is, or its engine starts or ends. -/
theorem moves_proceed (h : scene.session.Served) (moment : Moment) :
    scene.session.Moves (scene.proceed moment).session := by
  cases moment with
  | start config => exact scene.session.moves_ensureStarted config
  | shutdown => exact .stays scene.session.stays_shutdown
  | announce => exact .stays scene.session.stays_announce
  | begin operation => exact .stays (scene.session.stays_beginCall operation)
  | attend number =>
    rw [proceed]
    cases scene.calls[number]? with
    | none => exact .stays (.refl scene.session)
    | some call => exact .stays (scene.session.stays_attend call)
  | refill cache => exact .stays (scene.session.stays_refill cache)
  | pass milliseconds => exact .stays (scene.session.stays_pass milliseconds)
  | work work => exact Session.moves_work h.launched work

/-- **Every engine of a scene is at a point of a run**, whatever happens. -/
theorem served_after (h : scene.session.Served) (history : List Moment) :
    (scene.after history).session.Served := by
  induction history generalizing scene with
  | nil => exact h
  | cons moment rest ih => exact ih (h.of_moves (scene.moves_proceed h moment))

/-- **A client of which a session has nothing is left alone for ever**, by its callers and by all
engines that are still to come. -/
theorem spares_after {client : Client} (h : scene.session.Served)
    (hforgets : scene.session.Forgets client) (history : List Moment) :
    (scene.after history).session.Forgets client ∧
      scene.session.desk.Spares client (scene.after history).session.desk := by
  induction history generalizing scene with
  | nil => exact ⟨hforgets, (Desk.Alike.refl client _).spares⟩
  | cons moment rest ih =>
    have hmoves := moves_proceed h moment
    obtain ⟨hnext, hspares⟩ := hforgets.of_moves h hmoves
    obtain ⟨hafter, hspares'⟩ := ih (h.of_moves hmoves) hnext
    exact ⟨hafter, hspares.trans hspares'⟩

end Scene

end Fieldbus
