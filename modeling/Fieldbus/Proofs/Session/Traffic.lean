import Fieldbus.Proofs.Engine.Traffic
import Fieldbus.Proofs.Session.Calls
import Fieldbus.Proofs.Session.Scene
import Fieldbus.Proofs.Session.View

/-!
# What a session sends

A session sends what its engine sends, and its engine sends what its callers have handed to it.  So
the log of a tapped link grows by allowed messages for as long as the commands of the callers are
allowed, and only a start opens the link.

## Main definitions

* `LinkUse.Within`: what an engine does with its link that sends allowed messages only.
* `Session.Passes`: a session that has sent allowed messages only.
* `Session.Keeps`: the same of all that was ever sent.
* `Scene.Licenses`: messages that follow from what has happened.
* `Scene.mapLink`: a scene over the link as it is seen.

## Main results

* `Session.passes_of_hands`, `Session.passes_turn`, `Session.passes_work`: operations and works send
  what is allowed.
* `Session.ensureStarted_passes_or_opens`: what a start does with the link.
* `Scene.Licenses.keeps_after`: over any history a session sends what the history licenses.
* `Scene.mapLink_after`: a history of a scene goes over a link as over the one it is seen as.
-/

namespace Fieldbus

/-- What is done with a link that is open, where only allowed messages are sent. -/
def LinkUse.Within (allowed : Message → Prop) : LinkUse → Prop
  | .opened _ => False
  | .closed => True
  | .sent message => allowed message

namespace Tapped

variable {σ : Type} {allowed : Message → Prop}

/-- The log of a link has grown by such uses. -/
def Grows (allowed : Message → Prop) (before after : Tapped σ) : Prop :=
  ∃ more, after.log = before.log ++ more ∧ ∀ use ∈ more, use.Within allowed

namespace Grows

variable {before middle after : Tapped σ}

theorem refl (tapped : Tapped σ) : Grows allowed tapped tapped :=
  ⟨[], (List.append_nil _).symm, nofun⟩

theorem trans (h : Grows allowed before middle) (h' : Grows allowed middle after) :
    Grows allowed before after := by
  obtain ⟨first, hfirst, hallowed⟩ := h
  obtain ⟨second, hsecond, hallowed'⟩ := h'
  refine ⟨first ++ second, by rw [hsecond, hfirst, List.append_assoc], fun use huse => ?_⟩
  exact (List.mem_append.mp huse).elim (hallowed use) (hallowed' use)

variable [Link σ]

theorem of_sends (h : Link.Sends allowed before after) : Grows allowed before after := by
  obtain ⟨messages, hlog, hallowed⟩ := exists_log_of_sends h
  refine ⟨messages.map .sent, hlog, fun use huse => ?_⟩
  obtain ⟨message, hmessage, rfl⟩ := List.mem_map.mp huse
  exact hallowed message hmessage

theorem disconnect (tapped : Tapped σ) : Grows allowed tapped (Link.disconnect tapped) :=
  ⟨[.closed], rfl, fun _ huse => List.mem_singleton.mp huse ▸ trivial⟩

end Grows

end Tapped

namespace Engine

variable {σ : Type} [Link σ] {allowed : Message → Prop} {engine : Engine σ}

theorem leaves_work (h : engine.Within allowed) (work : Work) :
    engine.Leaves allowed (engine.work work) := by
  cases work with
  | obey =>
    cases hqueue : engine.commands with
    | nil =>
      rw [Engine.work, hqueue]
      exact .running (.refl h)
    | cons command rest =>
      by_cases hcommand : command = .shutdown
      · subst hcommand
        rw [Engine.work, hqueue]
        exact .stopped .refl engine.link_stop
      · rw [work_obey_of_ne hqueue hcommand]
        have hrest : engine.Sends allowed { engine with commands := rest } :=
          .of_subset h rfl rfl rfl (fun _ hmem => hqueue ▸ List.mem_cons_of_mem _ hmem)
            fun _ hmem => hmem
        exact .running (hrest.trans
          (sends_handle hrest.within (h.commands command (hqueue ▸ List.mem_cons_self))))
  | listen =>
    rw [Engine.work]
    cases hlisten : engine.listen with
    | ok after => exact .running (sends_of_listen h hlisten)
    | error shared => exact .crashed (sends_of_listen_error hlisten)
  | expire => exact .running (sends_expire h)
  | crash => exact .crashed .refl

end Engine

namespace Session

variable {σ : Type} {allowed : Message → Prop}

/-- All that the engine of a session may come to send is allowed. -/
def Within (allowed : Message → Prop) (session : Session σ) : Prop :=
  ∀ worker, session.worker? = some worker → worker.Within allowed

theorem Within.mono {wider : Message → Prop} (hle : ∀ message, allowed message → wider message)
    {session : Session σ} (h : session.Within allowed) : session.Within wider :=
  fun worker hworker => (h worker hworker).mono hle

theorem Within.of_notStarted {session : Session σ} (h : session.lifecycle = .notStarted) :
    session.Within allowed := fun worker hworker => by
  rw [worker?_of_notStarted h] at hworker
  cases hworker

theorem Within.of_running {session : Session σ} {run : EngineRun} {worker : Worker}
    (hrun : session.lifecycle = .running run) (halive : run.worker = some worker)
    (h : worker.Within allowed) : session.Within allowed := by
  intro other hother
  rw [worker?_of_running hrun, halive] at hother
  cases hother
  exact h

/-- A session whose link was used for allowed messages only, with nothing else to come.  While it
runs, it runs the engine it ran before. -/
structure Passes (allowed : Message → Prop) (before after : Session (Tapped σ)) : Prop where
  log : before.link.Grows allowed after.link
  within : after.Within allowed
  runs : after.run? = none ∨
    after.identity? = before.identity? ∧ after.timing? = before.timing?
  worker : ∀ worker, after.worker? = some worker → ∃ earlier, before.worker? = some earlier ∧
    worker.identity = earlier.identity ∧ worker.timing = earlier.timing

namespace Passes

variable {before middle after : Session (Tapped σ)}

theorem of_eq (h : before.Within allowed) (hlink : after.link = before.link)
    (hlifecycle : after.lifecycle = before.lifecycle) : Passes allowed before after := by
  have hrun : after.run? = before.run? := by rw [run?, run?, hlifecycle]
  have hworker : after.worker? = before.worker? := by rw [worker?, worker?, hrun]
  refine ⟨hlink ▸ .refl _, fun worker hafter => h worker (hworker ▸ hafter), .inr ?_,
    fun worker hafter => ⟨worker, hworker ▸ hafter, rfl, rfl⟩⟩
  simp only [identity?, timing?, hrun, and_self]

theorem refl {session : Session (Tapped σ)} (h : session.Within allowed) :
    Passes allowed session session := of_eq h rfl rfl

theorem of_notStarted (hlog : before.link.Grows allowed after.link)
    (hlifecycle : after.lifecycle = .notStarted) : Passes allowed before after := by
  refine ⟨hlog, .of_notStarted hlifecycle, .inl ?_, fun worker hworker => ?_⟩
  · rw [run?, hlifecycle]
  · rw [worker?_of_notStarted hlifecycle] at hworker
    cases hworker

/-- The engine goes on with other things to do, but for the same device. -/
theorem of_running {run : EngineRun} {worker following : Worker}
    (hlog : before.link.Grows allowed after.link) (hwithin : following.Within allowed)
    (hbefore : before.lifecycle = .running run) (halive : run.worker = some worker)
    (hafter : after.lifecycle = .running { run with worker := some following })
    (hidentity : following.identity = worker.identity)
    (htiming : following.timing = worker.timing) :
    Passes allowed before after := by
  refine ⟨hlog, .of_running hafter rfl hwithin, .inr ?_, fun other hother => ?_⟩
  · simp [identity?, timing?, run?, hbefore, hafter]
  · rw [worker?_of_running hafter] at hother
    cases hother
    exact ⟨worker, (worker?_of_running hbefore).trans halive, hidentity, htiming⟩

/-- The engine is gone, and the session does not know. -/
theorem of_crashed {run : EngineRun} (hlog : before.link.Grows allowed after.link)
    (hbefore : before.lifecycle = .running run)
    (hafter : after.lifecycle = .running { run with worker := none }) :
    Passes allowed before after := by
  have hworker : after.worker? = none := worker?_of_running hafter
  refine ⟨hlog, fun worker h => ?_, .inr ?_, fun worker h => ?_⟩
  · rw [hworker] at h
    cases h
  · simp [identity?, timing?, run?, hbefore, hafter]
  · rw [hworker] at h
    cases h

theorem trans (h : Passes allowed before middle) (h' : Passes allowed middle after) :
    Passes allowed before after := by
  refine ⟨h.log.trans h'.log, h'.within, ?_, fun worker hworker => ?_⟩
  · rcases h'.runs with hnone | ⟨hidentity, htiming⟩
    · exact .inl hnone
    · rcases h.runs with hnone | ⟨hidentity', htiming'⟩
      · left
        rw [identity?, identity?, hnone] at hidentity
        exact Option.map_eq_none_iff.mp hidentity
      · exact .inr ⟨hidentity.trans hidentity', htiming.trans htiming'⟩
  · obtain ⟨between, hbetween, hidentity, htiming⟩ := h'.worker worker hworker
    obtain ⟨earlier, hearlier, hidentity', htiming'⟩ := h.worker between hbetween
    exact ⟨earlier, hearlier, hidentity.trans hidentity', htiming.trans htiming'⟩

end Passes

variable {session : Session (Tapped σ)}

/-- What is handed to the engine is what it will send. -/
theorem passes_of_hands {after : Session (Tapped σ)} {asked : Command → Prop}
    (h : session.Within allowed) (hasked : ∀ command, asked command → command.Within allowed)
    (hhands : session.Hands asked after) : session.Passes allowed after := by
  obtain ⟨desk, rfl | ⟨command, hcommand, hsubmit⟩⟩ := hhands
  · exact .of_eq h rfl rfl
  · obtain ⟨run, worker, hrun, halive, rfl⟩ := exists_of_submit? hsubmit
    have hworker := h worker ((worker?_of_running hrun).trans halive)
    exact .of_running (.refl _) (hworker.submit (hasked command hcommand)) hrun halive rfl rfl rfl

variable [Link σ]

theorem passes_settle {engine : Engine (Tapped σ)} (halive : session.alive? = some engine)
    {left : Engine.Turn (Tapped σ)} (h : engine.Leaves allowed left) :
    session.Passes allowed (session.settle left) := by
  obtain ⟨worker, hworker, rfl⟩ := Option.map_eq_some_iff.mp halive
  obtain ⟨run, hrun, hruns⟩ := exists_running_of_worker? hworker
  cases h with
  | @running after hsends =>
    rw [settle, @withWorker_of_running _ { session with toShared := after.toShared } _ hrun]
    exact .of_running (.of_sends hsends.link) hsends.within hrun hruns rfl hsends.identity
      hsends.timing
  | @stopped last shared hsends hlink =>
    refine .of_notStarted ((Tapped.Grows.of_sends hsends).trans ?_) rfl
    change last.Grows allowed shared.link
    rw [hlink]
    exact .disconnect last
  | @crashed shared hsends =>
    rw [settle, @withWorker_of_running _ { session with toShared := shared } _ hrun]
    exact .of_crashed (.of_sends hsends) hrun rfl

omit [Link σ] in
theorem within_of_alive? (h : session.Within allowed) {engine : Engine (Tapped σ)}
    (halive : session.alive? = some engine) : engine.Within allowed := by
  obtain ⟨worker, hworker, rfl⟩ := Option.map_eq_some_iff.mp halive
  exact h worker hworker

/-- A session sends in a turn what is allowed. -/
theorem passes_turn (h : session.Within allowed) : session.Passes allowed session.turn := by
  cases halive : session.alive? with
  | none =>
    rw [turn_of_alive?_eq_none halive]
    exact .refl h
  | some engine =>
    rw [turn_eq_settle halive]
    exact passes_settle halive (Engine.leaves_turn (within_of_alive? h halive))

omit [Link σ] in
/-- To ask an engine to stop, or to forget one that is gone, sends nothing. -/
theorem passes_stop (h : session.Within allowed) :
    session.Passes allowed
      ((session.submit? .shutdown).getD { session with lifecycle := .notStarted }) := by
  cases hsubmit : session.submit? .shutdown with
  | none => exact .of_notStarted (.refl _) rfl
  | some submitted =>
    have hhands : session.Hands (· = .shutdown) submitted := .of_submit? rfl hsubmit
    exact passes_of_hands h (by rintro command rfl; trivial) hhands

theorem passes_shutdown (h : session.Within allowed) : session.Passes allowed session.shutdown := by
  have hstopped := passes_stop h
  rw [shutdown]
  cases hsubmit : session.submit? .shutdown with
  | none =>
    rw [hsubmit] at hstopped
    exact hstopped
  | some submitted =>
    rw [hsubmit] at hstopped
    exact hstopped.trans (passes_turn hstopped.within)

/-- A session whose engine does one thing sends what is allowed. -/
theorem passes_work (h : session.Within allowed) (work : Work) :
    session.Passes allowed (session.work work) := by
  cases halive : session.alive? with
  | none =>
    rw [Session.work, halive]
    exact .refl h
  | some engine =>
    rw [work_of_alive? halive]
    exact passes_settle halive (Engine.leaves_work (within_of_alive? h halive) work)

/-- What a start does with the link: nothing, or it opens it with the parameters of its settings,
and then has an engine that announces the device of its settings and keeps their timing. -/
theorem ensureStarted_passes_or_opens (session : Session (Tapped σ)) (config : Config) :
    ((session.run?.isSome = true ∨ ∃ error, (session.ensureStarted config).1 = .error error) ∧
      (session.ensureStarted config).2.link.log = session.link.log ∧
      (session.ensureStarted config).2.run? = session.run?) ∨
    ∃ parameters identity, config.resolve = .ok (parameters, identity) ∧ session.run? = none ∧
      (session.ensureStarted config).1 = .ok () ∧
      (session.ensureStarted config).2.link.log = session.link.log ++ [.opened parameters] ∧
      (session.ensureStarted config).2.lifecycle = .running ⟨identity, config.timing,
        some { identity := identity, timing := config.timing }⟩ := by
  rcases session.ensureStarted_cases config with ⟨hruns, hstart⟩ | ⟨hrun, ⟨cause, -, hstart⟩ |
    ⟨parameters, identity, hresolve, ⟨-, hstart⟩ | ⟨-, ⟨error, link, hconnect, hstart⟩ |
      ⟨link, hconnect, hstart⟩⟩⟩⟩
  all_goals rw [hstart]
  · exact .inl ⟨.inl hruns, rfl, rfl⟩
  · exact .inl ⟨.inr ⟨_, rfl⟩, rfl, rfl⟩
  · exact .inl ⟨.inr ⟨_, rfl⟩, rfl, rfl⟩
  · exact .inl ⟨.inr ⟨_, rfl⟩, Tapped.log_of_connect_error hconnect, hrun.symm⟩
  · exact .inr ⟨parameters, identity, hresolve, hrun, rfl, Tapped.log_of_connect_ok hconnect, rfl⟩

end Session

/-! ### Whatever happens -/

namespace Session

variable {σ : Type} {allowed : Message → Prop}

/-- A session over a tapped link that was handed allowed messages only, with no others to come. -/
structure Keeps (allowed : Message → Prop) (session : Session (Tapped σ)) : Prop where
  within : session.Within allowed
  sent : ∀ message, .sent message ∈ session.link.log → allowed message

theorem Keeps.mono {wider : Message → Prop} (hle : ∀ message, allowed message → wider message)
    {session : Session (Tapped σ)} (h : session.Keeps allowed) : session.Keeps wider :=
  ⟨h.within.mono hle, fun message hsent => hle message (h.sent message hsent)⟩

theorem Keeps.of_passes {before after : Session (Tapped σ)} (h : before.Keeps allowed)
    (hpasses : before.Passes allowed after) : after.Keeps allowed := by
  refine ⟨hpasses.within, fun message hsent => ?_⟩
  obtain ⟨more, hlog, hmore⟩ := hpasses.log
  rw [hlog] at hsent
  exact (List.mem_append.mp hsent).elim (h.sent message) (hmore _)

end Session

namespace Scene

/-- Messages that a history licenses: what is licensed stays so, the announcement of the settings
that a session starts with is, and so is all that follows from the operations that have begun. -/
structure Licenses (allowed : List Moment → Message → Prop) : Prop where
  concat {history : List Moment} {message : Message} (h : allowed history message)
    (moment : Moment) : allowed (history ++ [moment]) message
  announces {history : List Moment} {config : Config} {parameters : LinkParameters}
    {identity : LocalDevice} (hresolve : config.resolve = .ok (parameters, identity)) :
    allowed history (.unconfirmed .broadcast (.iAm identity.announcement))
  demands {history : List Moment} {operation : Operation} {command : Command}
    (hbegin : .begin operation ∈ history) (hdemands : operation.Demands command) :
    command.Within (allowed history)

namespace Licenses

variable {σ : Type} [Link σ] {allowed : List Moment → Message → Prop}

/-- A moment hands over messages that are licensed. -/
theorem keeps_proceed (hallowed : Licenses allowed) {scene : Scene (Tapped σ)}
    {history : List Moment} {moment : Moment} (h : scene.session.Keeps (allowed history)) :
    (scene.proceed moment).session.Keeps (allowed (history ++ [moment])) := by
  replace h := h.mono fun message hlicensed => hallowed.concat hlicensed moment
  cases moment with
  | start config =>
    rcases scene.session.ensureStarted_passes_or_opens config with ⟨-, hlog, hrun⟩ |
      ⟨parameters, identity, hresolve, -, -, hlog, hlifecycle⟩
    · refine ⟨fun worker hworker => h.within worker ?_, fun message hsent => h.sent message ?_⟩
      · rwa [Session.worker?, ← hrun]
      · rwa [← hlog]
    · refine ⟨.of_running hlifecycle rfl (.of_idle (hallowed.announces hresolve)),
        fun message hsent => ?_⟩
      rw [proceed, hlog] at hsent
      exact h.sent message (by simpa using hsent)
  | shutdown => exact h.of_passes (Session.passes_stop h.within)
  | announce =>
    exact h.of_passes (Session.passes_of_hands h.within (by rintro command rfl; trivial)
      scene.session.hands_announce)
  | begin operation =>
    exact h.of_passes (Session.passes_of_hands h.within
      (fun command hdemands => hallowed.demands (by simp) hdemands)
      (scene.session.hands_beginCall operation))
  | attend number =>
    rw [proceed]
    split
    · exact h
    · rename_i call hcall
      exact h.of_passes (Session.passes_of_hands h.within (by rintro command ⟨window, rfl⟩; trivial)
        (scene.session.hands_attend call))
  | refill cache => exact ⟨h.within, h.sent⟩
  | pass milliseconds => exact ⟨h.within, h.sent⟩
  | work work => exact h.of_passes (Session.passes_work h.within work)

/-- **A session sends what its history licenses, and nothing else.** -/
theorem keeps_after (hallowed : Licenses allowed) (link : σ) (history : List Moment) :
    ((Scene.onLink (⟨link, []⟩ : Tapped σ)).after history).session.Keeps (allowed history) := by
  induction history using List.reverseRecOn with
  | nil => exact ⟨.of_notStarted rfl, nofun⟩
  | append_singleton earlier moment ih =>
    rw [after_concat]
    exact hallowed.keeps_proceed ih

end Licenses

end Scene

/-! ### Scenes over links seen as other links -/

variable {τ σ : Type} {view : τ → σ}

/-- A scene over the link as it is seen. -/
def Scene.mapLink (view : τ → σ) (scene : Scene τ) : Scene σ :=
  { scene with session := scene.session.mapLink view }

variable [Link τ] [Link σ]

theorem Engine.mapLink_work (h : Link.IsView view) (engine : Engine τ) (work : Work) :
    (engine.mapLink view).work work = (engine.work work).mapLink view := by
  cases work with
  | obey =>
    have hcommands : (engine.mapLink view).commands = engine.commands := rfl
    rw [Engine.work, Engine.work, hcommands]
    cases engine.commands with
    | nil => rfl
    | cons command rest =>
      cases command with
      | shutdown => exact congrArg Turn.stopped (mapLink_stop h engine)
      | _ => exact congrArg Turn.running (mapLink_handle h { engine with commands := rest } _)
  | listen =>
    rw [Engine.work, Engine.work, mapLink_listen h]
    cases engine.listen <;> rfl
  | expire => exact congrArg Turn.running (mapLink_expire h engine)
  | crash => rfl

namespace Session

omit [Link τ] [Link σ] in
theorem mapLink_settle (session : Session τ) (left : Engine.Turn τ) :
    (session.mapLink view).settle (left.mapLink view) = (session.settle left).mapLink view := by
  obtain ⟨shared, holdsLink, lifecycle⟩ := session
  cases left <;> cases lifecycle <;> rfl

theorem mapLink_work (h : Link.IsView view) (session : Session τ) (work : Work) :
    (session.mapLink view).work work = (session.work work).mapLink view := by
  have halive : (session.mapLink view).alive? = session.alive?.map (Engine.mapLink view) := by
    rw [alive?, alive?, mapLink_worker?, Option.map_map]
    rfl
  rw [Session.work, Session.work, halive]
  cases session.alive? with
  | none => rfl
  | some engine =>
    simp only [Option.map_some, Engine.mapLink_work h, mapLink_settle]

end Session

namespace Scene

theorem mapLink_proceed (h : Link.IsView view) (scene : Scene τ) (moment : Moment) :
    (scene.mapLink view).proceed moment = (scene.proceed moment).mapLink view := by
  have hsession : (scene.mapLink view).session = scene.session.mapLink view := rfl
  have hcalls : (scene.mapLink view).calls = scene.calls := rfl
  cases moment with
  | start config =>
    simp only [proceed, hsession, Session.mapLink_ensureStarted h]
    rfl
  | shutdown =>
    simp only [proceed, hsession, Session.mapLink_submit?]
    cases scene.session.submit? .shutdown <;> rfl
  | announce =>
    simp only [proceed, hsession, Session.mapLink_announce]
    cases scene.session.announce <;> rfl
  | begin operation =>
    simp only [proceed, hsession, hcalls, Session.mapLink_beginCall]
    rfl
  | attend number =>
    simp only [proceed, hsession, hcalls]
    cases scene.calls[number]? with
    | none => rfl
    | some call =>
      simp only [Session.mapLink_attend]
      rfl
  | refill cache => rfl
  | pass milliseconds => rfl
  | work work =>
    simp only [proceed, hsession, Session.mapLink_work h]
    rfl

/-- What a link carries besides makes no difference to a scene. -/
theorem mapLink_after (h : Link.IsView view) (scene : Scene τ) (history : List Moment) :
    (scene.mapLink view).after history = (scene.after history).mapLink view := by
  induction history generalizing scene with
  | nil => rfl
  | cons moment rest ih =>
    rw [after, List.foldl_cons, mapLink_proceed h]
    exact ih (scene.proceed moment)

end Scene

end Fieldbus
