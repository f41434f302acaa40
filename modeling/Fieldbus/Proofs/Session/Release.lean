import Fieldbus.Proofs.Session.Engines
import Fieldbus.Proofs.Session.Reading
import Fieldbus.Simulation.Segment

/-!
# Who is released when an engine ends

When an engine ends, the holder of a ticket has nothing to wait for, wherever its request is: there
is nobody left to leave an outcome.  The caller of a walk has only the report to look at.  A walk
that was begun before the shutdown is finished, with the cause that the engine has stopped.  But a
walk that waits behind the shutdown is forgotten, and so is every walk of an engine that crashes:
the caller waits until its time is up.

## Main definitions

* `Scene.Releases`, `Scene.Strands`: whether the caller of a walk is released.
* `Scene.Grants`: what the holder of a ticket gets.

## Main results

* `Scene.released_unless_behind`: who is released when an engine ends.
-/

namespace Fieldbus.Scene

variable {σ : Type} [Link σ]

/-- Whatever happens, a walk is over, and its caller gets what is in a report. -/
def Releases (scene : Scene σ) (report : WalkId) (released : WalkReport) : Prop :=
  ∀ history, let later := (scene.after history).session
    (later.desk.report report).finished = true ∧
      ∀ walking : Walking, walking.report = report → later.isOver walking = true ∧
        (later.endEnumeration walking).1 =
          ⟨released.objects, released.error.map .enumerationAborted⟩

/-- Whatever happens, a walk is not over, and its caller waits until its time is up and gets the
objects that were found. -/
def Strands (scene : Scene σ) (report : WalkId) (objects : List ObjectReference) : Prop :=
  ∀ history, let later := (scene.after history).session
    (later.desk.report report).finished = false ∧
      ∀ walking : Walking, walking.report = report →
        (later.isOver walking = true ↔ walking.deadline ≤ later.clock) ∧
        (later.endEnumeration walking).1 =
          ⟨objects, some (.enumerationTimeout (1000000 * walking.timeout))⟩

/-- Whatever happens, the holder of a ticket has an outcome, and does not wait. -/
def Grants (scene : Scene σ) (ticket : Ticket) (outcome : Outcome) : Prop :=
  ∀ history (transaction : Transaction), transaction.ticket = ticket →
    (scene.after history).session.outcome? transaction = some outcome

/-- A scene whose engine has ended and has left a desk. -/
structure Left (scene : Scene σ) (desk : Desk) : Prop where
  served : scene.session.Served
  idle : scene.session.alive? = none
  desk : scene.session.desk = desk

variable {scene : Scene σ} {engine : Engine σ}

/-! ### After the end of an engine -/

namespace Left

variable {desk : Desk} {report : WalkId} {ticket : Ticket}

theorem spares (h : scene.Left desk) {client : Client} (hknows : desk.Knows client)
    (history : List Moment) :
    (scene.after history).session.Forgets client ∧
      desk.Spares client (scene.after history).session.desk := by
  obtain ⟨hserved, hidle, rfl⟩ := h
  exact spares_after hserved ⟨hknows, fun engine halive => by cases hidle.symm.trans halive⟩ history

/-- A walk that is over stays over. -/
theorem releases (h : scene.Left desk) (hknows : desk.Knows (.report report))
    (hfinished : (desk.report report).finished = true) :
    scene.Releases report (desk.report report) := by
  intro history later
  have hsame : later.desk.report report = desk.report report := by
    rcases (h.spares hknows history).2 with hsame | habandoned
    · exact hsame
    · rw [WalkReport.abandon_of_finished hfinished] at habandoned
      exact habandoned
  rw [hsame]
  refine ⟨hfinished, ?_⟩
  rintro walking rfl
  rw [Session.isOver, hsame, hfinished]
  refine ⟨rfl, ?_⟩
  simp only [Session.endEnumeration, Enumeration.ofReport, hsame, hfinished, if_true]

/-- A walk that is not over is never over, since nobody goes on with it. -/
theorem strands (h : scene.Left desk) (hknows : desk.Knows (.report report))
    (hunfinished : (desk.report report).finished = false) :
    scene.Strands report (desk.report report).objects := by
  intro history later
  obtain ⟨hfinished, hobjects⟩ : (later.desk.report report).finished = false ∧
      (later.desk.report report).objects = (desk.report report).objects := by
    rcases (h.spares hknows history).2 with hsame | habandoned
    · rw [hsame]
      exact ⟨hunfinished, rfl⟩
    · rw [habandoned]
      exact ⟨hunfinished, rfl⟩
  refine ⟨hfinished, ?_⟩
  rintro walking rfl
  rw [Session.isOver, hfinished, Bool.false_or, decide_eq_true_iff]
  refine ⟨Iff.rfl, ?_⟩
  simp only [Session.endEnumeration, Enumeration.ofReport, hfinished, hobjects]
  rfl

/-- The holder of a ticket gets what lies on the desk, or is told that the engine is gone. -/
theorem grants (h : scene.Left desk) (hknows : desk.Knows (.ticket ticket)) :
    scene.Grants ticket ((desk.answers ticket).head?.getD (.failure .stopped)) := by
  rintro history transaction rfl
  obtain ⟨hlater, hsame⟩ := h.spares hknows history
  have hsame : (scene.after history).session.desk.answers transaction.ticket =
      desk.answers transaction.ticket := hsame
  have hholds : ((scene.after history).session.worker?.any
      fun worker => worker.holdsTicket transaction.ticket) = false := by
    cases hworker : (scene.after history).session.worker? with
    | none => rfl
    | some worker =>
      exact (hlater.lacks _ (Option.map_eq_some_iff.mpr ⟨worker, hworker, rfl⟩)).holdsTicket
  rw [Session.outcome?, Desk.outcome?_eq_head?_answers, hsame]
  cases (desk.answers transaction.ticket).head? with
  | some outcome => rfl
  | none => simp [hholds]

end Left

/-! ### The end of an engine -/

section Ends

variable (hserved : scene.session.Served) (hengine : scene.session.alive? = some engine)

include hserved hengine

theorem left_of_shutdown {behind : List Command}
    (hcommands : engine.commands = .shutdown :: behind) :
    (scene.proceed (.work .obey)).Left engine.stop.desk := by
  have hstopped : (scene.proceed (.work .obey)).session =
      scene.session.settle (.stopped engine.stop) := by
    change scene.session.work .obey = _
    rw [Session.work_of_alive? hengine, Engine.work, hcommands]
  exact ⟨hserved.of_moves (moves_proceed hserved _), by rw [hstopped]; rfl, by rw [hstopped]; rfl⟩

theorem left_of_crash {work : Work} {left : Shared σ} (hwork : engine.work work = .crashed left) :
    (scene.proceed (.work work)).Left engine.desk := by
  have hcrashed : (scene.proceed (.work work)).session =
      scene.session.settle (.crashed left) := by
    change scene.session.work work = _
    rw [Session.work_of_alive? hengine, hwork]
  refine ⟨hserved.of_moves (moves_proceed hserved _), ?_, ?_⟩
  · rw [hcrashed, Session.alive?_settle_crashed]
  · rw [hcrashed, Session.desk_settle_crashed, Engine.desk_of_work_crashed hwork]

end Ends

/-- An engine carries out the commands ahead of a shutdown and comes to it. -/
theorem exists_at_shutdown (hengine : scene.session.alive? = some engine)
    {ahead behind : List Command} (hcommands : engine.commands = ahead ++ .shutdown :: behind)
    (hahead : .shutdown ∉ ahead) : ∃ last, engine.Reaches last ∧
      last.commands = .shutdown :: behind ∧
      (scene.after (List.replicate ahead.length (.work .obey))).session.alive? = some last := by
  induction ahead generalizing scene engine with
  | nil => exact ⟨engine, .refl, hcommands, hengine⟩
  | cons command rest ih =>
    obtain ⟨hcommand, hrest⟩ := not_or.mp (mt List.mem_cons.mpr hahead)
    let next := Engine.handle { engine with commands := rest ++ .shutdown :: behind } command
    have hwork : engine.work .obey = .running next :=
      Engine.work_obey_of_ne hcommands (Ne.symm hcommand)
    have hnext : (scene.proceed (.work .obey)).session.alive? = some next := by
      change (scene.session.work .obey).alive? = some next
      rw [Session.work_of_alive? hengine, hwork]
      exact Session.alive?_settle_running hengine
    obtain ⟨last, hlast, hat, halive⟩ := ih hnext (Engine.commands_handle _ _) hrest
    exact ⟨last, .head ⟨_, .obey hcommands (Ne.symm hcommand)⟩ hlast, hat, halive⟩

omit [Link σ] in
/-- The commands of a client behind a shutdown are all that an engine has queued for it. -/
theorem queued_eq_nil_iff_of_shutdown {behind : List Command} {client : Client}
    (hcommands : engine.commands = .shutdown :: behind) :
    engine.queued client = [] ↔ ∀ command ∈ behind, command.client? ≠ some client := by
  rw [Worker.queued, hcommands, List.filter_cons_of_neg (by simp [Command.client?]),
    List.filter_eq_nil_iff]
  simp

/-- **Who is released when an engine ends.**  At any point of a run of an engine, whatever its link,
its callers and the stations do, the engine of a session comes to a shutdown and stops, or crashes;
after that anything may happen, and other engines may run.

When the engine stops, each walk of the run whose command does not wait behind the shutdown is over:
it stays as it is if it was over before, and else it is failed with the cause that the engine has
stopped, and its caller gets the objects found so far.  A walk whose command waits behind the
shutdown is stranded, with nothing found.  When the engine crashes, all walks that are not over are
stranded.  But every holder of a ticket has its outcome or is told that the engine has stopped,
wherever its request was. -/
theorem released_unless_behind {shared : Shared σ} (hdesk : shared.desk.Sound)
    {identity : LocalDevice} {timing : Timing}
    (hreaches : (Engine.launch shared identity timing).Reaches engine)
    (hengine : scene.session.alive? = some engine) :
    (∀ ahead behind, engine.commands = ahead ++ .shutdown :: behind → .shutdown ∉ ahead →
      ∃ last, (scene.after (List.replicate ahead.length (.work .obey))).session.alive? = some last ∧
        engine.Reaches last ∧ last.commands = .shutdown :: behind ∧
        let stopped := scene.after (List.replicate (ahead.length + 1) (.work .obey))
        stopped.session.lifecycle = .notStarted ∧
        (∀ report, shared.desk.reports.length ≤ report → report < last.desk.reports.length →
          let found := last.desk.report report
          ((∀ command ∈ behind, command.client? ≠ some (.report report)) →
            stopped.Releases report
              (if found.finished then found else found.abort (.failure .stopped))) ∧
          ((∃ command ∈ behind, command.client? = some (.report report)) →
            stopped.Strands report [])) ∧
        ∀ ticket, ticket < last.desk.tickets →
          stopped.Grants ticket ((last.desk.answers ticket).head?.getD (.failure .stopped))) ∧
    ∀ work left, engine.work work = .crashed left →
      let crashed := scene.proceed (.work work)
      (∀ report, report < engine.desk.reports.length →
        let found := engine.desk.report report
        (found.finished = true → crashed.Releases report found) ∧
        (found.finished = false → crashed.Strands report found.objects)) ∧
      ∀ ticket, ticket < engine.desk.tickets →
        crashed.Grants ticket ((engine.desk.answers ticket).head?.getD (.failure .stopped)) := by
  have hlaunch := Engine.Sound.of_launch shared hdesk identity timing
  have hserved : scene.session.Served := by
    have hsound := hlaunch.of_reaches hreaches
    refine ⟨Session.desk_of_alive? hengine ▸ hsound.desk, fun other hother => ?_⟩
    cases hengine.symm.trans hother
    exact ⟨shared, identity, timing, hdesk, hreaches⟩
  constructor
  · intro ahead behind hcommands hahead
    obtain ⟨last, hlast, hat, halive⟩ := exists_at_shutdown hengine hcommands hahead
    have hlaunched := hreaches.trans hlast
    have hsound := hlaunch.of_reaches hlaunched
    refine ⟨last, halive, hlast, hat, ?_⟩
    intro stopped
    have hstopped : stopped =
        (scene.after (List.replicate ahead.length (.work .obey))).proceed (.work .obey) := by
      rw [← after_concat, ← List.replicate_succ']
    have hleft : stopped.Left last.stop.desk :=
      hstopped ▸ left_of_shutdown (served_after hserved _) halive hat
    refine ⟨?_, fun report hnew hreport => ?_, fun ticket hticket => ?_⟩
    · rw [hstopped]
      change (Session.work _ .obey).lifecycle = _
      rw [Session.work_of_alive? halive, Engine.work, hat]
      rfl
    · have hnew : ¬ shared.desk.Knows (.report report) := Nat.not_lt.mpr hnew
      have hknows : last.desk.Knows (.report report) := hreport
      have hknows' := (last.knows_stop _).mpr hknows
      have hbehind := @queued_eq_nil_iff_of_shutdown _ _ _ (.report report) hat
      constructor
      · intro hothers
        have hhandled := hbehind.mpr hothers
        rw [← hsound.report_stop hknows hnew hhandled]
        exact hleft.releases hknows' (Bool.toNat_eq_one.mp (hsound.ends_stop hknows hnew hhandled))
      · rintro ⟨command, hmem, hcommand⟩
        have hqueued : last.queued (.report report) ≠ [] := fun hempty =>
          hbehind.mp hempty command hmem hcommand
        obtain ⟨hunfinished, hobjects⟩ := hlaunch.report_stop_of_queued hlaunched hnew hqueued
        exact hobjects ▸ hleft.strands hknows' hunfinished
    · rw [← hsound.answers_stop ticket]
      exact hleft.grants ((last.knows_stop (.ticket ticket)).mpr hticket)
  · intro work left hwork crashed
    have hleft : crashed.Left engine.desk := left_of_crash hserved hengine hwork
    exact ⟨fun report hreport => ⟨hleft.releases hreport, hleft.strands hreport⟩,
      fun ticket hticket => hleft.grants hticket⟩

/-- Two enumerations with a shutdown in between, and a read behind it. -/
theorem released_unless_behind_two_walks :
    let shared : Shared Simulation.Segment := ⟨{}, 0, .empty, {}⟩
    let name : ConfirmedRequest := .read ⟨⟨.device, 8⟩, ⟨77⟩, none⟩
    let engine := ((((Engine.launch shared Session.guest {}).perform (.enumerate 5 8)).perform
      .shutdown).perform (.enumerate 5 9)).perform (.ask 5 name)
    let scene : Scene Simulation.Segment :=
      { session :=
          ⟨engine.toShared, false, .running ⟨Session.guest, {}, some engine.toWorker⟩⟩ }
    let stopped := scene.after [.work .obey, .work .obey]
    shared.desk.Sound ∧ (Engine.launch shared Session.guest {}).Reaches engine ∧
      stopped.Releases 0 { error := some (.failure .stopped), finished := true } ∧
      stopped.Strands 1 [] ∧ stopped.Grants 0 (.failure .stopped) := by
  intro shared name engine scene stopped
  have hdesk : shared.desk.Sound := Desk.sound_empty
  have hreaches : (Engine.launch shared Session.guest {}).Reaches engine :=
    (((Relation.ReflTransGen.refl.tail ⟨_, .act _ _⟩).tail ⟨_, .act _ _⟩).tail ⟨_, .act _ _⟩).tail
      ⟨_, .act _ _⟩
  let first : Walk := .onDevice 5 8 0
  let second : Walk := .onDevice 5 9 1
  obtain ⟨last, halive, -, -, -, hwalks, htickets⟩ :=
    (@released_unless_behind _ _ scene _ _ hdesk _ _ hreaches rfl).1
      [.request 5 first.firstRead (.walk first)]
      [.request 5 second.firstRead (.walk second), .request 5 name (.ticket 0)] rfl (by decide)
  cases halive
  exact ⟨hdesk, hreaches, (hwalks 0 (by decide) (by decide)).1 (by decide),
    (hwalks 1 (by decide) (by decide)).2 ⟨_, List.mem_cons_self, rfl⟩, htickets 0 (by decide)⟩

/-- A walk that waits behind a shutdown, or in an engine that crashes, makes its caller wait until
its time is up, where a reader is told at once that the engine has stopped. -/
theorem walk_behind_shutdown_waits :
    let path : PropertyPath := ⟨"device", 8, "objectName", none⟩
    let begins : List Moment :=
      [.begin (.enumerate (.station 5) 8 100), .begin (.read (.station 5) path)]
    let started := (onLink ({} : Simulation.Segment)).proceed (.start (.forStation 1 "/dev/ttyS1"))
    let stopped := started.after (.shutdown :: begins ++ [.work .obey])
    let crashed := started.after (begins ++ [.work .obey, .work .obey, .work .crash])
    stopped.session.run? = none ∧ ∀ scene ∈ [stopped, crashed],
      scene.calls.map Call.deadline? = [some 100, some 20000] ∧
      (scene.session.desk.report 0).finished = false ∧
      scene.session.outcome? ⟨0, 20000⟩ = some (.failure .stopped) ∧
      scene.calls.map (scene.proceed (.pass 99)).session.isDue = [false, true] ∧
      ((scene.proceed (.pass 100)).session.endEnumeration ⟨0, 100, 100⟩).1 =
        ⟨[], some (.enumerationTimeout 100000000)⟩ := by
  decide +kernel

end Fieldbus.Scene
