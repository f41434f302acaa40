import Fieldbus.Proofs.Engine.Hearing
import Fieldbus.Proofs.Session.Calls
import Fieldbus.Proofs.Session.Scene

/-!
# The discovery windows of a session

An operation of a session touches one discovery window at most: a discovery opens a window of its
own, and its caller fetches what waits there and closes it in the end.  All other windows, and what
the engine knows of them, stay as they are.  The engine for its part touches the windows when it
carries out a command about one, when it hears of a device, and when it ends.

## Main definitions

* `Session.ear`: what the engine of a session knows of a window.
* `Session.SparesBut`: what leaves all windows alone, but for one at most.
* `Session.Attends`: what the caller of a discovery does that attends to it.
* `Engine.Affects`: what a work of the engine has to do with windows.

## Main results

* `Session.sparesBut_beginCall`, `Session.sparesBut_attend`: a call touches its own window only.
* `Session.beginCall_discover_cases`: how a discovery begins.
* `Session.attends_attend`: its caller does nothing else than `Session.Attends` says.
* `Engine.affects_work`: the engine touches windows in these ways only.
-/

namespace Fieldbus

namespace Session

variable {σ : Type}

/-- What the engine of a session knows of a window; without an engine nothing is known. -/
def ear (session : Session σ) (window : WindowId) : Ear :=
  (session.worker?.map fun worker => worker.ear window).getD .deaf

theorem ear_of_running {session : Session σ} {run : EngineRun} {worker : Worker}
    (hrun : session.lifecycle = .running run) (halive : run.worker = some worker)
    (window : WindowId) : session.ear window = worker.ear window := by
  rw [ear, worker?_of_running hrun, halive]
  rfl

theorem ear_of_alive? {session : Session σ} {engine : Engine σ}
    (h : session.alive? = some engine) (window : WindowId) :
    session.ear window = engine.ear window := by
  obtain ⟨worker, hworker, rfl⟩ := Option.map_eq_some_iff.mp h
  rw [ear, hworker]
  rfl

theorem desk_of_alive? {session : Session σ} {engine : Engine σ}
    (h : session.alive? = some engine) : engine.desk = session.desk := by
  obtain ⟨worker, -, rfl⟩ := Option.map_eq_some_iff.mp h
  rfl

/-- What leaves all windows alone, and what is known of them, but for one window at most. -/
structure SparesBut (own : Option WindowId) (before after : Session σ) : Prop where
  length : before.desk.windows.length ≤ after.desk.windows.length
  window : ∀ window, own ≠ some window → after.desk.window? window = before.desk.window? window
  ear : ∀ window, own ≠ some window → after.ear window = before.ear window

namespace SparesBut

variable {own : Option WindowId} {before middle after session : Session σ}

theorem refl (own : Option WindowId) (session : Session σ) : SparesBut own session session :=
  ⟨le_rfl, fun _ _ => rfl, fun _ _ => rfl⟩

theorem trans (h : SparesBut own before middle) (h' : SparesBut own middle after) :
    SparesBut own before after :=
  ⟨h.length.trans h'.length, fun window hne => (h'.window window hne).trans (h.window window hne),
    fun window hne => (h'.ear window hne).trans (h.ear window hne)⟩

theorem of_eq (hworker : after.worker? = before.worker?)
    (hwindows : after.desk.windows = before.desk.windows) : SparesBut own before after :=
  ⟨hwindows ▸ le_rfl, fun window _ => congrArg (·[window]?) hwindows, fun window _ => by
    rw [Session.ear, hworker, Session.ear]⟩

theorem withDesk (session : Session σ) (desk : Desk) (h : desk.windows = session.desk.windows) :
    SparesBut own session { session with desk := desk } := of_eq rfl h

theorem of_submit? {command : Command} (h : before.submit? command = some after)
    (hown : ∀ window, command.window? = some window → own = some window) :
    SparesBut own before after := by
  obtain ⟨run, worker, hrun, halive, rfl⟩ := exists_of_submit? h
  refine ⟨le_rfl, fun _ _ => rfl, fun window hne => ?_⟩
  rw [ear_of_running rfl rfl, ear_of_running hrun halive]
  exact worker.ear_submit_of_ne fun heq => hne (hown window heq)

theorem of_mapWindow (session : Session σ) (window : WindowId) (change : Window → Window) :
    SparesBut (some window) session
      { session with desk := session.desk.mapWindow window change } :=
  ⟨(session.desk.length_windows_mapWindow window change).ge,
    fun _ hne => session.desk.window?_mapWindow_of_ne (fun heq => hne (congrArg some heq.symm)) _,
    fun _ _ => rfl⟩

theorem of_openWindow (session : Session σ) (capacity : Nat) :
    SparesBut (some session.desk.windows.length) session
      { session with desk := (session.desk.openWindow capacity).2 } := by
  refine ⟨?_, fun window hne => ?_, fun _ _ => rfl⟩
  · change _ ≤ (session.desk.windows ++ [_]).length
    rw [List.length_append]
    exact Nat.le_add_right _ _
  · change (session.desk.windows ++ [_])[window]? = session.desk.windows[window]?
    rcases Nat.lt_or_ge window session.desk.windows.length with hlt | hge
    · exact List.getElem?_append_left hlt
    · have hlt : session.desk.windows.length < window :=
        Nat.lt_of_le_of_ne hge fun heq => hne (congrArg some heq)
      rw [List.getElem?_eq_none hge, List.getElem?_eq_none]
      rw [List.length_append]
      exact hlt

end SparesBut

variable {session begun : Session σ}

/-! ### Beginning an operation -/

/-- How a discovery begins. -/
theorem beginCall_discover_cases (session : Session σ) (timeout : Nat) (station : Option Mac)
    (low high : Option UInt32) :
    (session.run? = none ∧ session.beginCall (.discover timeout station low high) =
        (.answered (.devices (.error .notStarted)), session)) ∨
      (session.run?.isSome = true ∧ session.worker? = none ∧
        session.beginCall (.discover timeout station low high) =
          (.answered (.devices (.ok [])), session)) ∨
      ∃ run worker capacity lowest highest, session.lifecycle = .running run ∧
        run.worker = some worker ∧
        session.beginCall (.discover timeout station low high) =
          (.discover ⟨session.desk.windows.length, session.clock + timeout⟩ false,
            { session with
              desk := (session.desk.openWindow capacity).2
              lifecycle := .running
                { run with
                  worker := some (worker.submit (.discover session.desk.windows.length
                    (whoIsDestination station) lowest highest)) } }) ∧
        (lowest, highest) = instanceRange low high := by
  cases hlifecycle : session.lifecycle with
  | running run =>
    have hrun : session.run? = some run := by rw [run?, hlifecycle]
    have hengine : session.engine = .ok run := by rw [engine, hrun]
    let capacity := run.timing.queueCapacity.toNat
    let opened : Session σ := { session with desk := (session.desk.openWindow capacity).2 }
    let range := instanceRange low high
    have hbegin : session.beginDiscovery timeout station low high =
        .ok ((opened.submit? (.discover session.desk.windows.length (whoIsDestination station)
          range.1 range.2)).map fun after =>
            (⟨session.desk.windows.length, after.clock + timeout⟩, after)) := by
      rw [beginDiscovery, hengine]
      rfl
    cases hworker : run.worker with
    | none =>
      have hdead : opened.worker? = none := (worker?_of_running hlifecycle).trans hworker
      refine .inr (.inl ⟨by rw [hrun]; rfl, hdead, ?_⟩)
      rw [beginCall, hbegin, submit?, hdead]
      rfl
    | some worker =>
      refine .inr (.inr ⟨run, worker, capacity, range.1, range.2, rfl, hworker, ?_, rfl⟩)
      rw [beginCall, hbegin, @submit?_of_running _ opened _ _ hlifecycle hworker]
      rfl
  | _ =>
    have hrun : session.run? = none := by rw [run?, hlifecycle]
    have hbegin : session.beginDiscovery timeout station low high = .error .notStarted := by
      rw [beginDiscovery, engine, hrun]
      rfl
    exact .inl ⟨hrun, by rw [beginCall, hbegin]⟩

/-- An operation that begins touches its own window only. -/
theorem sparesBut_beginCall (session : Session σ) (operation : Operation) :
    SparesBut (session.beginCall operation).1.window? session (session.beginCall operation).2 := by
  rcases hbegin : session.beginCall operation with ⟨call, after⟩
  cases begins_of_beginCall hbegin with
  | answered => exact .refl _ session
  | requests _ _ hhands =>
    obtain ⟨desk, mac, request, responder, hwindows, hsubmit⟩ := hhands
    exact (SparesBut.withDesk session desk hwindows).trans
      (.of_submit? hsubmit fun _ heq => by cases heq)
  | opens hsubmit =>
    exact (SparesBut.of_openWindow session _).trans (.of_submit? hsubmit fun _ heq => heq)

theorem window?_beginCall {operation : Operation} {window : WindowId}
    (h : (session.beginCall operation).1.window? = some window) :
    window = session.desk.windows.length ∧
      window < (session.beginCall operation).2.desk.windows.length := by
  rcases hbegin : session.beginCall operation with ⟨call, after⟩
  rw [hbegin] at h
  cases begins_of_beginCall hbegin with
  | answered => cases h
  | requests _ hwindow => exact absurd (hwindow.symm.trans h) nofun
  | opens hsubmit =>
    cases h
    obtain ⟨run, worker, -, -, rfl⟩ := exists_of_submit? hsubmit
    refine ⟨rfl, ?_⟩
    change _ < (session.desk.windows ++ [_]).length
    rw [List.length_append]
    exact Nat.lt_succ_self _

/-! ### Attending to a discovery -/

/-- What the caller of a discovery does, as its call and the session that is left.  Before it waits
for a record it looks at the clock; while it waits it takes the oldest record that is there. -/
inductive Attends (session : Session σ) (discovery : Discovery) : Bool → Call → Session σ → Prop
  /-- It finds that there is time left. -/
  | looks (htime : session.clock < discovery.deadline) :
      Attends session discovery false (.discover discovery true) session
  /-- It finds its time up, and leaves what is there. -/
  | leaves (htime : discovery.deadline ≤ session.clock) :
      Attends session discovery false (.answered (.devices (.ok (session.found discovery))))
        (session.endDiscovery discovery)
  | takes {record : DeviceRecord} (holdest : session.oldest? discovery = some record) :
      Attends session discovery true (.discover discovery false) (session.fetch discovery)
  | waits (hempty : session.oldest? discovery = none)
      (htime : session.clock < discovery.deadline) (hhears : session.mayHear discovery = true) :
      Attends session discovery true (.discover discovery true) session
  /-- Nothing is there, and its time is up or nothing comes any more. -/
  | stops (hempty : session.oldest? discovery = none)
      (hover : discovery.deadline ≤ session.clock ∨ session.mayHear discovery = false) :
      Attends session discovery true (.answered (.devices (.ok (session.found discovery))))
        (session.endDiscovery discovery)

theorem fetch_of_oldest?_eq_none {discovery : Discovery} (h : session.oldest? discovery = none) :
    session.fetch discovery = session := by
  have hsame : session.desk.windows.modify discovery.window Window.fetch =
      session.desk.windows := by
    refine List.ext_getElem? fun id => ?_
    by_cases hid : discovery.window = id
    · subst hid
      rw [List.getElem?_modify_eq]
      cases hwindow : session.desk.windows[discovery.window]? with
      | none => rfl
      | some window =>
        have hwaiting : window.waiting = [] := by
          simpa [oldest?, Desk.window?, hwindow] using h
        simp [Window.fetch, hwaiting]
    · exact List.getElem?_modify_ne _ _ hid
  rw [fetch, Desk.mapWindow, hsame]

/-- The caller of a discovery attends to it in these ways only. -/
theorem attends_attend (session : Session σ) (discovery : Discovery) (waits : Bool) :
    session.Attends discovery waits (session.attend (.discover discovery waits)).1
      (session.attend (.discover discovery waits)).2 := by
  cases waits with
  | false =>
    rcases Nat.lt_or_ge session.clock discovery.deadline with hleft | hover
    · have hdue : session.isDue (.discover discovery false) = false :=
        decide_eq_false (Nat.not_le.mpr hleft)
      rw [attend, hdue]
      exact .looks hleft
    · have hdue : session.isDue (.discover discovery false) = true := decide_eq_true hover
      rw [attend, hdue]
      exact .leaves hover
  | true =>
    cases holdest : session.oldest? discovery with
    | some record =>
      have hdue : session.isDue (.discover discovery true) = false := by simp [isDue, holdest]
      rw [attend, hdue, if_neg Bool.false_ne_true, collect, holdest]
      exact .takes holdest
    | none =>
      by_cases hover : discovery.deadline ≤ session.clock ∨ session.mayHear discovery = false
      · have hdue : session.isDue (.discover discovery true) = true := by
          simpa [isDue, holdest] using hover
        rw [attend, hdue]
        exact .stops holdest hover
      · obtain ⟨hleft, hhears⟩ := not_or.mp hover
        have hdue : session.isDue (.discover discovery true) = false := by
          simpa [isDue, holdest] using ⟨Nat.not_le.mp hleft, Bool.not_eq_false _ ▸ hhears⟩
        rw [attend, hdue, if_neg Bool.false_ne_true, collect, holdest,
          fetch_of_oldest?_eq_none holdest]
        exact .waits holdest (Nat.not_le.mp hleft) (Bool.not_eq_false _ ▸ hhears)

theorem sparesBut_endDiscovery (session : Session σ) (discovery : Discovery) :
    SparesBut (some discovery.window) session (session.endDiscovery discovery) := by
  have hclosed := SparesBut.of_mapWindow session discovery.window Window.close
  rw [endDiscovery]
  cases hsubmit : submit? { session with
      desk := session.desk.mapWindow discovery.window Window.close }
      (.endDiscovery discovery.window) with
  | none => exact hclosed
  | some submitted => exact hclosed.trans (.of_submit? hsubmit fun window heq => heq)

/-- A caller that attends to a call touches the window of the call only. -/
theorem sparesBut_attend (session : Session σ) (call : Call) :
    SparesBut call.window? session (session.attend call).2 := by
  rw [attend]
  split
  · cases call with
    | discover discovery waits => exact sparesBut_endDiscovery session discovery
    | enumerate walking => exact .withDesk session _ rfl
    | _ => exact .refl _ session
  · rcases session.collect_eq_self_or_fetch call with hsame | ⟨discovery, hwindow, hfetched⟩
    · rw [hsame]
      exact .refl _ session
    · rw [hfetched, hwindow]
      exact .of_mapWindow session _ Window.fetch

theorem window?_attend {call : Call} {window : WindowId}
    (h : (session.attend call).1.window? = some window) : call.window? = some window := by
  rw [attend] at h
  split at h
  · cases h
  · rwa [window?_collect] at h

theorem mayHear_of_deaf {session : Session σ} {discovery : Discovery}
    (h : session.ear discovery.window = .deaf) : session.mayHear discovery = false := by
  rw [mayHear]
  cases hworker : session.worker? with
  | none => rfl
  | some worker =>
    rw [ear, hworker] at h
    obtain ⟨hcommands, hcount⟩ := Ear.mk.inj h
    rw [Option.any_some, Worker.holdsWindow, Bool.or_eq_false_iff]
    refine ⟨by simpa using List.count_eq_zero.mp hcount, ?_⟩
    rw [List.any_eq_false]
    intro command hmem
    have hother := List.filter_eq_nil_iff.mp hcommands command hmem
    cases command with
    | discover id destination low high => simpa [Command.window?] using hother
    | _ => simp

/-! ### The life of the engine -/

theorem sparesBut_shutdown (session : Session σ) :
    SparesBut none session ((session.submit? .shutdown).getD
      { session with lifecycle := .notStarted }) := by
  cases hsubmit : session.submit? .shutdown with
  | none =>
    have hworker : session.worker? = none := Option.map_eq_none_iff.mp hsubmit
    exact .of_eq (hworker.symm ▸ worker?_of_notStarted rfl) rfl
  | some submitted => exact .of_submit? hsubmit fun _ heq => by cases heq

theorem sparesBut_announce (session : Session σ) :
    SparesBut none session (session.announce.toOption.elim session Prod.snd) := by
  cases hannounce : session.announce with
  | error error => exact .refl _ session
  | ok announced =>
    rcases submit?_or_eq_of_announce hannounce with hsubmit | heq
    · exact .of_submit? hsubmit fun _ heq => by cases heq
    · change SparesBut none session announced.2
      rw [heq]
      exact .refl _ session

/-- An engine that starts knows of no window, like no engine. -/
theorem sparesBut_ensureStarted [Link σ] (session : Session σ) (config : Config) :
    SparesBut none session (session.ensureStarted config).2 := by
  rcases session.ensureStarted_cases config with ⟨-, hstart⟩ | ⟨hrun, ⟨cause, -, hstart⟩ |
    ⟨parameters, identity, -, ⟨-, hstart⟩ | ⟨-, ⟨error, link, -, hstart⟩ |
      ⟨link, -, hstart⟩⟩⟩⟩
  all_goals rw [hstart]
  · exact .refl _ session
  · exact .refl _ session
  · exact .refl _ session
  · exact .of_eq (by rw [worker?_of_notStarted rfl, worker?, hrun, Option.bind_none]) rfl
  · refine ⟨le_rfl, fun _ _ => rfl, fun window _ => ?_⟩
    have hidle : session.ear window = .deaf := by
      rw [ear, worker?, hrun]
      rfl
    rw [hidle]
    rfl

/-! ### What the engine leaves -/

theorem desk_settle_running (session : Session σ) (engine : Engine σ) :
    (session.settle (.running engine)).desk = engine.desk := by
  obtain ⟨shared, holdsLink, lifecycle⟩ := session
  cases lifecycle <;> rfl

theorem desk_settle_stopped (session : Session σ) (shared : Shared σ) :
    (session.settle (.stopped shared)).desk = shared.desk := rfl

theorem desk_settle_crashed (session : Session σ) (shared : Shared σ) :
    (session.settle (.crashed shared)).desk = shared.desk := by
  obtain ⟨before, holdsLink, lifecycle⟩ := session
  cases lifecycle <;> rfl

theorem ear_settle_running {engine after : Engine σ} (h : session.alive? = some engine)
    (window : WindowId) : (session.settle (.running after)).ear window = after.ear window :=
  ear_of_alive? (alive?_settle_running h) window

theorem ear_settle_stopped (session : Session σ) (shared : Shared σ) (window : WindowId) :
    (session.settle (.stopped shared)).ear window = .deaf := rfl

theorem ear_settle_crashed (session : Session σ) (shared : Shared σ) (window : WindowId) :
    (session.settle (.crashed shared)).ear window = .deaf := by
  obtain ⟨before, holdsLink, lifecycle⟩ := session
  cases lifecycle <;> rfl

end Session

namespace Engine

variable {σ : Type} [Link σ]

/-- What a work of an engine has to do with windows. -/
inductive Affects (engine : Engine σ) : Work → Turn σ → Prop
  /-- Nothing. -/
  | keeps {work : Work} {after : Engine σ} (hkeeps : engine.KeepsWindows after)
      (hobey : work = .obey → engine.commands = [])
      (hlisten : work = .listen → engine.announced? = none) : Affects engine work (.running after)
  | obeys {command : Command} {rest : List Command} (hqueue : engine.commands = command :: rest) :
      Affects engine .obey (.running (handle { engine with commands := rest } command))
  | hears {record : DeviceRecord} {after : Engine σ} (hannounced : engine.announced? = some record)
      (hlisten : engine.listen = .ok after) : Affects engine .listen (.running after)
  | stops {rest : List Command} {shared : Shared σ} (hqueue : engine.commands = .shutdown :: rest)
      (hwindows : shared.desk.windows = engine.desk.windows) :
      Affects engine .obey (.stopped shared)
  | crashes {work : Work} {shared : Shared σ} (hne : work ≠ .obey)
      (hlisten : work = .listen → engine.announced? = none)
      (hwindows : shared.desk.windows = engine.desk.windows) :
      Affects engine work (.crashed shared)

/-- An engine has to do with windows in these ways only. -/
theorem affects_work (engine : Engine σ) (work : Work) :
    engine.Affects work (engine.work work) := by
  cases work with
  | obey =>
    cases hqueue : engine.commands with
    | nil =>
      rw [Engine.work, hqueue]
      exact .keeps (.refl engine) (fun _ => hqueue) (by rintro ⟨⟩)
    | cons command rest =>
      by_cases hcommand : command = .shutdown
      · subst hcommand
        rw [Engine.work, hqueue]
        exact .stops hqueue engine.windows_stop
      · rw [work_obey_of_ne hqueue hcommand]
        exact .obeys hqueue
  | listen =>
    rw [Engine.work]
    cases hlisten : engine.listen with
    | error shared =>
      obtain ⟨hsilent, hdesk⟩ := listen_error hlisten
      exact .crashes (by rintro ⟨⟩) (fun _ => hsilent) (by rw [hdesk])
    | ok after =>
      cases hannounced : engine.announced? with
      | none =>
        exact .keeps (.of_listen hlisten hannounced) (by rintro ⟨⟩) fun _ => hannounced
      | some record => exact .hears hannounced hlisten
  | expire => exact .keeps (.of_expire engine) (by rintro ⟨⟩) (by rintro ⟨⟩)
  | crash => exact .crashes (by rintro ⟨⟩) (by rintro ⟨⟩) rfl

end Engine

end Fieldbus
