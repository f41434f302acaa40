import Fieldbus.Proofs.Link.Connections
import Fieldbus.Proofs.Session.Happening
import Fieldbus.Proofs.Session.Traffic
import Fieldbus.Simulation.Segment

/-!
# One configuration for each run of the engine

The settings of a start come to several places: the link is opened with some of them, the engine
announces others, and the session tells which device and which timing it has.  A session can be
started again and again with other settings, which count only if no engine runs and the start
succeeds; and then they count in all places together, until the session is shut down.

## Main definitions

* `Message.Announces`: messages that announce one device only.
* `Session.RunsAs`: a session whose link, engine and records all come from one start.

## Main results

* `Session.RunsAs.happen`: nothing but a shutdown ends that.
* `Session.one_configuration`: at any point of its life a session that runs does so with the
  settings of the start that started it.
-/

namespace Fieldbus

/-- A message that announces no other device than one, if there is one. -/
def Message.Announces (identity? : Option LocalDevice) (message : Message) : Prop :=
  ∀ destination announcement, message = .unconfirmed destination (.iAm announcement) →
    ∃ identity, identity? = some identity ∧ announcement = identity.announcement

section Announces

variable (identity? : Option LocalDevice)

theorem Responder.within_announces (responder : Responder) :
    responder.Within (Message.Announces identity?) := by
  cases responder with
  | ticket ticket => trivial
  | walk course =>
    intro id index destination announcement heq
    cases heq

/-- Callers do not choose what is announced. -/
theorem Command.within_announces (command : Command) :
    command.Within (Message.Announces identity?) := by
  cases command with
  | discover window destination low high =>
    intro other announcement heq
    cases heq
  | request destination asked responder =>
    refine ⟨fun id other announcement heq => ?_, responder.within_announces identity?⟩
    cases heq
  | _ => trivial

theorem Worker.within_announces (worker : Worker) :
    worker.Within (Message.Announces (some worker.identity)) := by
  refine ⟨fun destination announcement heq => ⟨_, rfl, ?_⟩,
    fun command _ => command.within_announces _,
    fun entry _ => entry.responder.within_announces _⟩
  cases heq
  rfl

end Announces

namespace Session

variable {σ : Type}

/-- The engine of a session announces the device that the session has in its records. -/
theorem within_announces {session : Session σ} (h : ∀ worker, session.worker? = some worker →
    session.identity? = some worker.identity) :
    session.Within (Message.Announces session.identity?) := fun worker hworker =>
  h worker hworker ▸ worker.within_announces

/-- A session that has opened its link after some log, and has the device and the timing of the
start that opened it in all places: in its records, its engine and what was announced since. -/
structure RunsAs (session : Session (Tapped σ)) (parameters : LinkParameters)
    (device : LocalDevice) (settled : Timing) (earlier : List LinkUse) : Prop where
  identity : session.identity? = some device
  timing : session.timing? = some settled
  worker : ∀ worker, session.worker? = some worker →
    worker.identity = device ∧ worker.timing = settled
  log : ∃ since, session.link.log = earlier ++ .opened parameters :: since ∧
    (∀ reopened, .opened reopened ∉ since) ∧
    ∀ destination announcement, .sent (.unconfirmed destination (.iAm announcement)) ∈ since →
      announcement = device.announcement

namespace RunsAs

variable {session after : Session (Tapped σ)} {parameters : LinkParameters} {device : LocalDevice}
  {settled : Timing} {earlier : List LinkUse}

theorem identity?_worker (h : session.RunsAs parameters device settled earlier) {worker : Worker}
    (hworker : session.worker? = some worker) : session.identity? = some worker.identity := by
  rw [h.identity, (h.worker worker hworker).1]

theorem isSome_run? (h : session.RunsAs parameters device settled earlier) :
    session.run?.isSome = true := by
  obtain ⟨run, hrun, -⟩ := Option.map_eq_some_iff.mp h.identity
  rw [hrun]
  rfl

theorem of_passes (h : session.RunsAs parameters device settled earlier)
    (hpasses : session.Passes (Message.Announces session.identity?) after) :
    after.run? = none ∨ after.RunsAs parameters device settled earlier := by
  refine hpasses.runs.imp_right fun ⟨hidentity, htiming⟩ => ?_
  refine ⟨hidentity.trans h.identity, htiming.trans h.timing, fun worker hworker => ?_, ?_⟩
  · obtain ⟨before, hbefore, hsame, hsame'⟩ := hpasses.worker worker hworker
    obtain ⟨hfirst, hfirst'⟩ := h.worker before hbefore
    exact ⟨hsame.trans hfirst, hsame'.trans hfirst'⟩
  · obtain ⟨since, hlog, hopened, hannounced⟩ := h.log
    obtain ⟨more, hmore, hwithin⟩ := hpasses.log
    refine ⟨since ++ more, by rw [hmore, hlog, List.append_assoc, List.cons_append], ?_, ?_⟩
    · intro reopened hmem
      rcases List.mem_append.mp hmem with hmem | hmem
      · exact hopened reopened hmem
      · exact hwithin _ hmem
    · intro destination announcement hmem
      rcases List.mem_append.mp hmem with hmem | hmem
      · exact hannounced destination announcement hmem
      · obtain ⟨announced, hannounced, rfl⟩ := hwithin _ hmem destination announcement rfl
        rw [h.identity] at hannounced
        cases hannounced
        rfl

end RunsAs

variable [Link σ] {session : Session (Tapped σ)}

/-! ### What happens -/

/-- Whatever happens but a start, the session sends messages of the kind that its callers hand to
it. -/
theorem passes_happen {allowed : Message → Prop} (h : session.Within allowed)
    (hcommands : ∀ command : Command, command.Within allowed) {happening : Happening}
    (hstart : ∀ config, happening ≠ .start config) :
    session.Passes allowed (session.happen happening) := by
  cases happening with
  | start config => exact absurd rfl (hstart config)
  | shutdown => exact passes_shutdown h
  | turn => exact passes_turn h
  | crash cache desk =>
    rw [happen]
    cases hworker : session.worker? with
    | none => exact .refl h
    | some worker =>
      obtain ⟨run, hrun, -⟩ := exists_running_of_worker? hworker
      dsimp only
      rw [@withWorker_of_running _ { session with cache := cache, desk := desk } _ hrun]
      exact .of_crashed (.refl _) hrun rfl
  | announce => exact passes_of_hands h (fun command _ => hcommands command) session.hands_announce
  | begin operation =>
    exact passes_of_hands h (fun command _ => hcommands command) (session.hands_beginCall operation)
  | attend call =>
    exact passes_of_hands h (fun command _ => hcommands command) (session.hands_attend call)
  | conclude call =>
    exact passes_of_hands h (fun command _ => hcommands command) (session.hands_conclude call)
  | refill cache => exact .of_eq h rfl rfl
  | pass milliseconds => exact .of_eq h rfl rfl

theorem ensureStarted_of_run? {σ : Type} [Link σ] {session : Session σ}
    (h : session.run?.isSome = true) (config : Config) :
    session.ensureStarted config = (.ok (), session) := by
  rw [ensureStarted, if_pos h]

/-- Nothing but a shutdown ends a run of the engine, and no settings of later starts count. -/
theorem RunsAs.happen {parameters : LinkParameters} {device : LocalDevice} {settled : Timing}
    {earlier : List LinkUse} (h : session.RunsAs parameters device settled earlier)
    (happening : Happening) :
    (session.happen happening).run? = none ∨
      (session.happen happening).RunsAs parameters device settled earlier := by
  by_cases hstart : ∀ config, happening ≠ .start config
  · exact h.of_passes (passes_happen (within_announces fun _ => h.identity?_worker)
      (Command.within_announces _) hstart)
  · push Not at hstart
    obtain ⟨config, rfl⟩ := hstart
    right
    rw [Session.happen, ensureStarted_of_run? h.isSome_run?]
    exact h

/-- A start that succeeds puts its settings in all places. -/
theorem exists_runsAs_of_ensureStarted (hrun : session.run? = none) {config : Config}
    {started : Session (Tapped σ)} (hstart : session.ensureStarted config = (.ok (), started)) :
    ∃ parameters identity, config.resolve = .ok (parameters, identity) ∧
      started.RunsAs parameters identity config.timing session.link.log := by
  have hcases := session.ensureStarted_passes_or_opens config
  rw [hstart] at hcases
  rcases hcases with ⟨hruns | ⟨error, herror⟩, -⟩ |
    ⟨parameters, identity, hresolve, -, -, hlog, hlifecycle⟩
  · rw [hrun] at hruns
    cases hruns
  · cases herror
  · have hlifecycle : started.lifecycle = _ := hlifecycle
    refine ⟨parameters, identity, hresolve, ?_, ?_, fun worker hworker => ?_, [], hlog, nofun,
      nofun⟩
    · rw [identity?, run?, hlifecycle]
      rfl
    · rw [timing?, run?, hlifecycle]
      rfl
    · rw [worker?_of_running hlifecycle] at hworker
      cases hworker
      exact ⟨rfl, rfl⟩

/-- A session that begins to run does so by a start that succeeds. -/
theorem exists_start_of_run? (hrun : session.run? = none) {happening : Happening}
    (hruns : (session.happen happening).run?.isSome = true) : ∃ config started,
      happening = .start config ∧ session.ensureStarted config = (.ok (), started) := by
  by_cases hstart : ∀ config, happening ≠ .start config
  · have hpasses : session.Passes (fun _ => True) (session.happen happening) :=
      passes_happen (fun worker _ => .of_all (fun _ => trivial) worker) (.of_all fun _ => trivial)
        hstart
    rcases hpasses.runs with hnone | ⟨hidentity, -⟩
    · rw [hnone] at hruns
      cases hruns
    · rw [identity?, identity?, hrun, Option.map_none, Option.map_eq_none_iff] at hidentity
      rw [hidentity] at hruns
      cases hruns
  · push Not at hstart
    obtain ⟨config, rfl⟩ := hstart
    refine ⟨config, (session.ensureStarted config).2, rfl, ?_⟩
    rcases session.ensureStarted_passes_or_opens config with ⟨-, -, hsame⟩ | ⟨_, _, -, -, hok, -⟩
    · rw [happen, hsame, hrun] at hruns
      cases hruns
    · exact Prod.ext hok rfl

theorem run?_shutdown {σ : Type} [Link σ] (session : Session σ) : session.shutdown.run? = none := by
  rw [shutdown]
  cases hsubmit : session.submit? .shutdown with
  | none => rfl
  | some submitted =>
    obtain ⟨engine, halive, hstops⟩ := exists_alive?_of_submit? hsubmit
    obtain ⟨shared, hturn⟩ := Engine.exists_turn_eq_stopped hstops
    dsimp only
    rw [turn_eq_settle halive, hturn]
    rfl

/-- What a session announces in whatever happens is the device that it had before. -/
theorem exists_announced_happen (hrecords : ∀ worker, session.worker? = some worker →
      session.identity? = some worker.identity) (happening : Happening) :
    ∃ more, (session.happen happening).link.log = session.link.log ++ more ∧
      ∀ destination announcement, .sent (.unconfirmed destination (.iAm announcement)) ∈ more →
        ∃ identity, session.identity? = some identity ∧
          announcement = identity.announcement := by
  by_cases hstart : ∀ config, happening ≠ .start config
  · obtain ⟨more, hmore, hwithin⟩ := (passes_happen (within_announces hrecords)
      (Command.within_announces _) hstart).log
    exact ⟨more, hmore, fun destination announcement hmem =>
      hwithin _ hmem destination announcement rfl⟩
  · push Not at hstart
    obtain ⟨config, rfl⟩ := hstart
    rcases session.ensureStarted_passes_or_opens config with ⟨-, hlog, -⟩ |
      ⟨parameters, identity, -, -, -, hlog, -⟩
    · exact ⟨[], hlog.trans (List.append_nil _).symm, nofun⟩
    · exact ⟨[.opened parameters], hlog, fun _ _ hmem => by simp at hmem⟩

/-! ### Whatever happens -/

/-- A session that runs was started once, and has run with the settings of that start ever since. -/
theorem exists_start_of_after (link : σ) (history : List Happening)
    (hruns : ((onLink (⟨link, []⟩ : Tapped σ)).after history).run?.isSome = true) :
    let first := onLink (⟨link, []⟩ : Tapped σ)
    ∃ earlier config later parameters identity, history = earlier ++ .start config :: later ∧
      config.resolve = .ok (parameters, identity) ∧ (first.after earlier).run? = none ∧
      ((first.after earlier).ensureStarted config).1 = .ok () ∧
      ∀ part, part <+: later → (first.after (earlier ++ .start config :: part)).RunsAs parameters
        identity config.timing (first.after earlier).link.log := by
  intro first
  induction history using List.reverseRecOn with
  | nil => cases hruns
  | append_singleton history happening ih =>
    rw [after_concat] at hruns
    cases hrun : (first.after history).run? with
    | none =>
      obtain ⟨config, started, rfl, hstart⟩ := exists_start_of_run? hrun hruns
      obtain ⟨parameters, identity, hresolve, hstarted⟩ :=
        exists_runsAs_of_ensureStarted hrun hstart
      refine ⟨history, config, [], parameters, identity, rfl, hresolve, hrun,
        congrArg Prod.fst hstart, fun part hpart => ?_⟩
      obtain rfl := List.prefix_nil.mp hpart
      rw [after_concat, happen, hstart]
      exact hstarted
    | some run =>
      obtain ⟨earlier, config, later, parameters, identity, rfl, hresolve, hidle, hstart, hsince⟩ :=
        ih (by rw [hrun]; rfl)
      refine ⟨earlier, config, later ++ [happening], parameters, identity, by simp, hresolve, hidle,
        hstart, fun part hpart => ?_⟩
      rcases List.prefix_concat_iff.mp hpart with rfl | hpart
      · have hlast := hsince later (List.prefix_refl later)
        have hnow := (hlast.happen happening).resolve_left fun hnone => by
          rw [hnone] at hruns
          cases hruns
        rwa [← after_concat, List.append_assoc, List.cons_append] at hnow
      · exact hsince part hpart

/-- **One configuration for each run.**  Over any life of a session, over any link: while the session
runs, it runs since one start that succeeded when no engine ran, and ever since the device and the
timing of the session, the parameters with which its link was last opened and all announcements sent
over it are those of the settings of that start.  Whatever is announced, also while the engine is
shut down, is the device that the session had.  Settings that come while an engine runs, whether
valid or not, are accepted and change nothing.  After a shutdown no engine runs, and the next start
that succeeds puts its settings in all places.  To listen in on the link makes no difference. -/
theorem one_configuration (link : σ) (history : List Happening) :
    let first := onLink (⟨link, []⟩ : Tapped σ)
    let session := first.after history
    session.mapLink Tapped.link = (onLink link).after history ∧
    (session.run?.isSome = true →
      ∃ earlier config later parameters identity, history = earlier ++ .start config :: later ∧
        config.resolve = .ok (parameters, identity) ∧ (first.after earlier).run? = none ∧
        ((first.after earlier).ensureStarted config).1 = .ok () ∧
        ∀ part, part <+: later → (first.after (earlier ++ .start config :: part)).RunsAs parameters
          identity config.timing (first.after earlier).link.log) ∧
    (∀ happening, ∃ more, (session.happen happening).link.log = session.link.log ++ more ∧
      ∀ destination announcement, .sent (.unconfirmed destination (.iAm announcement)) ∈ more →
        ∃ identity, session.identity? = some identity ∧ announcement = identity.announcement) ∧
    (session.run?.isSome = true →
      ∀ config, session.ensureStarted config = (.ok (), session)) ∧
    session.shutdown.run? = none ∧
    ∀ config started, session.run? = none → session.ensureStarted config = (.ok (), started) →
      ∃ parameters identity, config.resolve = .ok (parameters, identity) ∧
        started.RunsAs parameters identity config.timing session.link.log := by
  intro first session
  have hrecords : ∀ worker, session.worker? = some worker →
      session.identity? = some worker.identity := by
    intro worker hworker
    obtain ⟨run, hrun, -⟩ := exists_running_of_worker? hworker
    have hruns : session.run?.isSome = true := by
      rw [run?, hrun]
      rfl
    obtain ⟨earlier, config, later, parameters, identity, rfl, -, -, -, hsince⟩ :=
      exists_start_of_after link history hruns
    exact (hsince later (List.prefix_refl later)).identity?_worker hworker
  exact ⟨(mapLink_after Tapped.isView_link _ history).symm, exists_start_of_after link history,
    exists_announced_happen hrecords, ensureStarted_of_run?, session.run?_shutdown,
    fun config started hrun hstart => exists_runsAs_of_ensureStarted hrun hstart⟩

/-- A session that is started with settings of one device, offered those of another in vain, shut
down and started with these. -/
theorem one_configuration_across_restart :
    let config : Config := .forStation 1 "/dev/ttyS1"
    let other : Config :=
      { Config.forStation 2 "/dev/ttyS2" with
        device := { instanceNumber := 600 }
        timing := { apduTimeout := 500 } }
    let stopped : List Happening := [.start config, .start other, .announce, .turn, .shutdown]
    let first := onLink (⟨{}, []⟩ : Tapped Simulation.Segment)
    let last := first.after (stopped ++ [.start other, .announce, .turn])
    last.link.log =
        [.opened ⟨1, "/dev/ttyS1", 38400, 127, 1⟩,
          .sent (.unconfirmed .broadcast (.iAm ⟨⟨.device, 599⟩, 1024, .none, 15⟩)), .closed,
          .opened ⟨2, "/dev/ttyS2", 38400, 127, 1⟩,
          .sent (.unconfirmed .broadcast (.iAm ⟨⟨.device, 600⟩, 1024, .none, 15⟩))] ∧
      (∃ parameters identity settled earlier,
        last.RunsAs parameters identity settled earlier ∧ settled.apduTimeout = 500) ∧
      last.ensureStarted config = (.ok (), last) ∧
      (first.after stopped).run? = none ∧ ∃ parameters identity started,
        (first.after stopped).ensureStarted other = (.ok (), started) ∧
          started.RunsAs parameters identity other.timing (first.after stopped).link.log := by
  intro config other stopped first last
  have hruns : last.run?.isSome = true := by decide +kernel
  have hidle : (first.after stopped).run? = none := by decide +kernel
  have htiming : last.timing?.map Timing.apduTimeout = some 500 := by decide +kernel
  have hok : ((first.after stopped).ensureStarted other).1.toBool = true := by decide +kernel
  obtain ⟨-, hsince, -, hagain, -, -⟩ :=
    one_configuration ({} : Simulation.Segment) (stopped ++ [.start other, .announce, .turn])
  obtain ⟨-, -, -, -, -, hnext⟩ := one_configuration ({} : Simulation.Segment) stopped
  obtain ⟨earlier, begun, later, parameters, identity, hhistory, -, -, -, hparts⟩ := hsince hruns
  have hlast := hparts later (List.prefix_refl later)
  rw [← hhistory] at hlast
  have hstart : (first.after stopped).ensureStarted other =
      (.ok (), ((first.after stopped).ensureStarted other).2) := by
    refine Prod.ext ?_ rfl
    cases hresult : ((first.after stopped).ensureStarted other).1 with
    | ok => rfl
    | error error =>
      rw [hresult] at hok
      cases hok
  obtain ⟨_, _, -, hstarted⟩ := hnext other _ hidle hstart
  refine ⟨by decide +kernel, ⟨_, _, _, _, hlast, ?_⟩, hagain hruns config, hidle, _, _, _, hstart,
    hstarted⟩
  rw [hlast.timing] at htiming
  exact Option.some.inj htiming

end Session

end Fieldbus
