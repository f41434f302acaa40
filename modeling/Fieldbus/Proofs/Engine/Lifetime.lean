import Fieldbus.Proofs.Engine.Turn
import Fieldbus.Proofs.Engine.Verdict
import Fieldbus.Proofs.Walk.History
import Fieldbus.Simulation.Segment

/-!
# The lives of walks

What an engine does to a walk, mixed with everything else, is a history of the walk: a row of
replies and failures, and of looks that the caller takes at the report.  A walk that is over is
brought nothing any more.  So whatever holds of all histories holds of all walks in an engine, and
a walk whose caller has stopped waiting is frozen.

## Main definitions

* `Engine.Lives`: an engine in which a walk is where it is in its course.
* `Engine.Happens`: what a step makes happen to a walk, and why.

## Main results

* `Engine.Lives.step`: what a step does to a walk happens to its course.
* `Engine.exists_lives`: a walk in an engine has a history.
* `Engine.frozen_once_abandoned`: a walk whose caller has stopped waiting is frozen.
-/

namespace Fieldbus

/-- The responder of the request that a command makes. -/
def Command.responder? : Command → Option Responder
  | .request _ _ responder => some responder
  | _ => none

/-- Who is to get what becomes of the commands and the requests of a client. -/
def Worker.held (worker : Worker) (client : Client) : List Responder :=
  (worker.queued client).filterMap Command.responder? ++
    (worker.waiting client).map Pending.responder

theorem Worker.held_eq_nil {worker : Worker} {client : Client} (hqueued : worker.queued client = [])
    (hwaiting : worker.waiting client = []) : worker.held client = [] := by
  rw [held, hqueued, hwaiting]
  rfl

theorem Worker.mem_held_of_mem_pending {worker : Worker} {entry : Pending}
    (h : entry ∈ worker.pending) : entry.responder ∈ worker.held entry.responder.client :=
  List.mem_append_right _ (List.mem_map_of_mem (mem_waiting.mpr ⟨h, rfl⟩))

theorem Worker.mem_held_of_mem_commands {worker : Worker} {destination : Mac}
    {request : ConfirmedRequest} {responder : Responder}
    (h : .request destination request responder ∈ worker.commands) :
    responder ∈ worker.held responder.client :=
  List.mem_append_left _ (List.mem_filterMap.mpr ⟨_, mem_queued.mpr ⟨h, rfl⟩, rfl⟩)

theorem Course.onReply_failure {course : Course} {walk : Walk} (hwalk : course.walk? = some walk)
    (cause : Failure) :
    course.onReply (.failure cause) =
      { course with
        walk? := none
        report := (walk.onReply (.failure cause) course.report).2 } := by
  have hover := walk.onReply_failure cause course.report
  cases hreply : walk.onReply (.failure cause) course.report with
  | mk next report =>
    rw [hreply] at hover
    obtain rfl : next = none := hover
    simp only [onReply, hwalk, hreply]

namespace Engine

variable {σ : Type}

/-- An engine in which a walk is where it is in its course: the report is the one of the course, and
a command or a request of the walk waits as long as the course goes on. -/
structure Lives (engine : Engine σ) (report : WalkId) (course : Course) : Prop where
  found : engine.desk.report report = course.report
  held : engine.held (.report report) = course.walk?.toList.map Responder.walk

theorem Lives.walk_of_mem {engine : Engine σ} {report : WalkId} {course : Course}
    (h : engine.Lives report course) {responder : Responder}
    (hresponder : responder ∈ engine.held (.report report)) :
    ∃ walk, course.walk? = some walk ∧ responder = .walk walk := by
  rw [h.held] at hresponder
  obtain ⟨walk, hwalk, rfl⟩ := List.mem_map.mp hresponder
  exact ⟨walk, Option.mem_toList.mp hwalk, rfl⟩

variable [Link σ]

/-- What happens at once to a walk whose request is started: the request may fail. -/
def refusals (engine : Engine σ) (destination : Mac) (request : ConfirmedRequest) :
    List Walk.Happening :=
  (engine.refusal? destination request).toList.map fun cause => .reply (.failure cause)

/-- What happens to a walk that is handed an outcome: the outcome is a reply, and where the walk
goes on with a read that fails at once, so is the failure. -/
def hands (engine : Engine σ) (walk : Walk) (outcome : Outcome) : List Walk.Happening :=
  .reply outcome ::
    match (walk.onReply outcome (engine.desk.report walk.report)).1 with
    | none => []
    | some (request, _) => engine.refusals walk.destination request

/-- What happens to a walk whose request gets the outcome that a step has for it.  A request that is
cancelled fails its walk without a reply. -/
def settles (engine : Engine σ) (entry : Pending) (walk : Walk) (outcome : Outcome) :
    Event → List Walk.Happening
  | .cancel _ => [.fail .stopped]
  | event => (engine.settling entry event).hands walk outcome

/-- What a step makes happen to the walk of a report, and why. -/
inductive Happens (before : Engine σ) (report : WalkId) : Event → List Walk.Happening → Prop
  | nothing (event : Event) : Happens before report event []
  /-- Its caller stops waiting. -/
  | wait : Happens before report (.act (.abandon report)) [.wait]
  /-- Its first read fails at once. -/
  | refused {destination : Mac} {request : ConfirmedRequest} {walk : Walk} {rest : List Command}
      {cause : Failure} (hcommands : before.commands =
        .request destination request (.walk walk) :: rest) (hreport : walk.report = report)
      (hrefusal : before.refusal? destination request = some cause) :
      Happens before report .obey [.reply (.failure cause)]
  /-- A step has an outcome for its request. -/
  | settled {event : Event} {entry : Pending} {walk : Walk} {outcome : Outcome}
      (hentry : entry ∈ before.pending) (hwalk : entry.responder = .walk walk)
      (hreport : walk.report = report) (hverdict : before.verdict? entry event = some outcome) :
      Happens before report event (before.settles entry walk outcome event)

/-! ### What an engine does to a walk -/

variable {engine before after : Engine σ} {event : Event} {walk : Walk} {course : Course}
  {report : WalkId}

/-- A walk whose request is started waits for its reply, or is brought the failure. -/
theorem lives_start (hknows : walk.report < engine.desk.reports.length)
    (hheld : engine.held (.report walk.report) = [])
    (hfound : engine.desk.report walk.report = course.report) (hwalk : course.walk? = some walk)
    (destination : Mac) (request : ConfirmedRequest) :
    (engine.start destination request (.walk walk)).Lives walk.report
      (course.after (engine.refusals destination request)) := by
  rcases engine.start_of_refusal? destination request (.walk walk) with
    ⟨cause, cursor, link, hrefusal, heq⟩ | ⟨id, cursor, link, hrefusal, -, -, heq⟩
  · have hafter : course.after (engine.refusals destination request) =
        course.onReply (.failure cause) := by
      rw [refusals, hrefusal]
      rfl
    rw [heq, hafter, Course.onReply_failure hwalk, ← hfound]
    exact ⟨Desk.report_mapReport_self hknows _, hheld⟩
  · have hafter : course.after (engine.refusals destination request) = course := by
      rw [refusals, hrefusal]
      rfl
    rw [heq, hafter]
    refine ⟨hfound, ?_⟩
    obtain ⟨hqueued, hwaiting⟩ := List.append_eq_nil_iff.mp hheld
    rw [Worker.held, Worker.waiting, List.filter_append, List.map_append, hwalk]
    change (engine.queued _).filterMap _ ++ ((engine.waiting _).map _ ++ _) = _
    rw [hqueued, hwaiting]
    simp [Responder.client]

/-- A walk that is handed an outcome takes it in, and waits for the reply to its next read if it
goes on and the read does not fail at once. -/
theorem lives_complete (hknows : walk.report < engine.desk.reports.length)
    (hheld : engine.held (.report walk.report) = [])
    (hfound : engine.desk.report walk.report = course.report) (hwalk : course.walk? = some walk)
    (outcome : Outcome) :
    (engine.complete (.walk walk) outcome).Lives walk.report
      (course.after (engine.hands walk outcome)) := by
  have hself := @Desk.report_mapReport_self engine.desk walk.report hknows
  have htouches := engine.desk.touches_mapReport walk.report
  rcases walk.onReply_cases outcome (engine.desk.report walk.report) with
    ⟨changed, hreply, -⟩ | ⟨index, rest, objects, hreply⟩
  · have hafter : course.after (engine.hands walk outcome) =
        { course with walk? := none, report := changed } := by
      simp only [hands, hreply, Course.after, List.foldl_cons, List.foldl_nil, Course.happen,
        Course.onReply, hwalk, ← hfound]
    have heq : engine.complete (.walk walk) outcome =
        { engine with desk := engine.desk.mapReport walk.report fun _ => changed } := by
      simp only [complete, hreply]
    rw [heq, hafter]
    exact ⟨hself _, hheld⟩
  · let reported : Engine σ :=
      { engine with
        desk := engine.desk.mapReport walk.report fun _ =>
          (engine.desk.report walk.report).extend objects }
    let following : Walk := { walk with remaining := rest }
    have honReply : course.onReply outcome =
        ⟨some following, (engine.desk.report walk.report).extend objects,
          course.reads ++ [walk.readAt index]⟩ := by
      simp only [Course.onReply, hwalk, ← hfound, hreply, following]
    have hafter : course.after (engine.hands walk outcome) =
        (course.onReply outcome).after
          (reported.refusals walk.destination (walk.readAt index)) := by
      simp only [hands, hreply]
      rfl
    have heq : engine.complete (.walk walk) outcome =
        reported.start walk.destination (walk.readAt index) (.walk following) := by
      simp only [complete, hreply, reported, following]
    have hknows' : following.report < reported.desk.reports.length :=
      (htouches _).length_reports ▸ hknows
    rw [heq, hafter, honReply]
    exact @lives_start _ _ reported following _ hknows' hheld (hself _) rfl _ _

omit [Link σ] in
theorem lives_cancel {entry : Pending} (hresponder : entry.responder = .walk walk)
    (hknows : walk.report < engine.desk.reports.length)
    (hheld : engine.held (.report walk.report) = [])
    (hfound : engine.desk.report walk.report = course.report) (hwalk : course.walk? = some walk) :
    (engine.cancel entry).Lives walk.report (course.after [.fail .stopped]) := by
  have hafter : course.after [.fail .stopped] =
      { course with walk? := none, report := course.report.abort (.failure .stopped) } := by
    simp only [Course.after, List.foldl_cons, List.foldl_nil, Course.happen, hwalk]
  rw [hafter, cancel, hresponder, ← hfound]
  exact ⟨Desk.report_mapReport_self hknows _, hheld⟩

namespace Lives

variable {start : Desk}

theorem of_verdict? (hlives : before.Lives report course) (h : before.Sound start)
    (hstep : Step before event after) {entry : Pending} (hentry : entry ∈ before.pending)
    (hresponder : entry.responder = .walk walk) (hreport : walk.report = report)
    {outcome : Outcome} (hverdict : before.verdict? entry event = some outcome) :
    after.Lives report (course.after (before.settles entry walk outcome event)) := by
  subst hreport
  have htakes := before.takes_settling hentry event
  rw [hresponder] at htakes
  obtain ⟨hknows, -, -, hqueued, hwaiting⟩ := h.of_takes htakes
  have hknows : walk.report < (before.settling entry event).desk.reports.length :=
    htakes.desk ▸ hknows
  have hheld := Worker.held_eq_nil hqueued hwaiting
  have hfound : (before.settling entry event).desk.report walk.report = course.report :=
    htakes.desk ▸ hlives.found
  have hmem := Worker.mem_held_of_mem_pending hentry
  rw [hresponder] at hmem
  obtain ⟨current, hwalk, hsame⟩ := hlives.walk_of_mem hmem
  obtain rfl := Responder.walk.inj hsame
  rcases hstep.cases_of_verdict? h.ids hentry hverdict with
    ⟨hevent, rfl⟩ | ⟨rfl, rfl, rfl⟩
  · have hsettles : before.settles entry walk outcome event =
        (before.settling entry event).hands walk outcome := by
      cases event with
      | cancel other =>
        obtain ⟨rfl, -⟩ := Option.ite_none_right_eq_some.mp hverdict
        exact absurd rfl hevent
      | _ => rfl
    rw [hsettles, hresponder]
    exact lives_complete hknows hheld hfound hwalk outcome
  · exact lives_cancel hresponder hknows hheld hfound hwalk

/-- What a step does to a walk happens to its course. -/
theorem step (hlives : before.Lives report course) (h : before.Sound start)
    (hknows : before.desk.Knows (.report report)) (hstep : Step before event after) :
    ∃ happened, before.Happens report event happened ∧
      after.Lives report (course.after happened) := by
  by_cases haddressee : before.addressee? event = some (.report report)
  · rcases hstep.obeys_or_settles haddressee with
      ⟨destination, request, responder, rest, rfl, hclient, hqueue, rfl⟩ |
      ⟨entry, outcome, hentry, hclient, hverdict⟩
    · let middle : Engine σ := { before with commands := rest }
      have htakes : before.Takes destination (.report report) middle :=
        ⟨rfl, .inl ⟨request, responder, hclient, hqueue, rfl⟩⟩
      obtain ⟨-, -, -, hqueued, hwaiting⟩ := h.of_takes htakes
      have hmem := Worker.mem_held_of_mem_commands (hqueue ▸ List.mem_cons_self)
      obtain ⟨walk, hwalk, rfl⟩ := hlives.walk_of_mem (hclient ▸ hmem)
      obtain rfl := Client.report.inj hclient
      have hheld : middle.held (.report walk.report) = [] := Worker.held_eq_nil hqueued hwaiting
      have hknows : walk.report < middle.desk.reports.length := hknows
      refine ⟨_, ?_, lives_start hknows hheld hlives.found hwalk destination request⟩
      rw [refusals, refusal?_withCommands]
      cases hrefusal : before.refusal? destination request with
      | none => exact .nothing _
      | some cause => exact .refused hqueue rfl hrefusal
    · obtain ⟨walk, -, hresponder⟩ :=
        hlives.walk_of_mem (hclient ▸ Worker.mem_held_of_mem_pending hentry)
      have hreport : walk.report = report := by
        rw [hresponder] at hclient
        exact Client.report.inj hclient
      exact ⟨_, .settled hentry hresponder hreport hverdict,
        hlives.of_verdict? h hstep hentry hresponder hreport hverdict⟩
  · obtain ⟨hqueued, hwaiting, -⟩ := h.of_addressee?_ne hstep hknows haddressee
    have hheld : after.held (.report report) = course.walk?.toList.map Responder.walk := by
      rw [Worker.held, hqueued, hwaiting, ← hlives.held, Worker.held]
    by_cases hevent : event = .act (.abandon report)
    · subst hevent
      cases hstep
      refine ⟨_, .wait, ?_, hheld⟩
      rw [show (before.perform (.abandon report)).desk.report report = _ from
        Desk.report_mapReport_self hknows _, hlives.found]
      rfl
    · refine ⟨_, .nothing _, ?_, hheld⟩
      exact (h.report_eq_of_ne hstep hknows haddressee hevent).trans hlives.found

/-- What a run does to a walk happens to its course. -/
theorem of_reaches (hlives : before.Lives report course) (h : before.Sound start)
    (hknows : before.desk.Knows (.report report)) (hreaches : before.Reaches after) :
    ∃ history, after.Lives report (course.after history) := by
  induction hreaches with
  | refl => exact ⟨[], hlives⟩
  | tail hreaches hstep ih =>
    obtain ⟨event, hstep⟩ := hstep
    obtain ⟨history, hmiddle⟩ := ih
    obtain ⟨happened, -, hafter⟩ :=
      hmiddle.step (h.of_reaches hreaches) (h.knows_of_reaches hreaches hknows) hstep
    exact ⟨history ++ happened, by rwa [Course.after_append]⟩

/-- What stopping an engine does to a walk happens to its course. -/
theorem report_stop (hlives : engine.Lives report course) (h : engine.Sound start)
    (hknows : engine.desk.Knows (.report report)) :
    ∃ history, engine.stop.desk.report report = (course.after history).report := by
  obtain ⟨drained, hreaches, -, -, hdesk⟩ := engine.exists_reaches_drained h.ids
  obtain ⟨history, hdrained⟩ := hlives.of_reaches h hknows hreaches
  exact ⟨history, hdesk ▸ hdrained.found⟩

end Lives

/-! ### Whole runs -/

variable {start : Desk}

omit [Link σ] in
theorem Sound.held_of_opens (h : before.Sound start) {destination : Mac}
    {request : ConfirmedRequest} {responder : Responder}
    (hopens : before.Opens destination request responder after) :
    after.held responder.client = [responder] := by
  have hwaiting : after.waiting responder.client = [] := by
    rw [Worker.waiting, hopens.pending]
    exact (h.eq_nil_of_opens hopens).2
  rw [Worker.held, h.queued_of_opens hopens, hwaiting]
  rfl

/-- A report is opened for a walk that begins. -/
theorem Sound.lives_of_step (h : before.Sound start) (hstep : Step before event after)
    (hnew : ¬ before.desk.Knows (.report report)) (hknows : after.desk.Knows (.report report)) :
    ∃ destination device,
      after.Lives report (.begin (.onDevice destination device report)) := by
  cases haddressee : before.addressee? event with
  | some client =>
    obtain ⟨destination, middle, htakes, hserves⟩ := h.deals hstep haddressee
    exact absurd (htakes.desk ▸ (hserves.touches.knows_iff _).mp hknows) hnew
  | none =>
    cases event with
    | act action =>
      cases hstep
      cases action with
      | enumerate destination device =>
        have hopens := before.opens_enumerate destination device
        rcases (hopens.knows_iff _).mp hknows with hknows | hreport
        · exact absurd hknows hnew
        · obtain rfl : report = before.desk.reports.length := Client.report.inj hreport
          exact ⟨destination, device, before.report_perform_enumerate destination device,
            h.held_of_opens hopens⟩
      | abandon other =>
        exact absurd (((before.keeps_abandon other).knows_iff _).mp hknows) hnew
      | _ => exact absurd hknows hnew
    | _ =>
      obtain ⟨windows, hdesk⟩ := hstep.desk_of_addressee?_eq_none (by rintro action ⟨⟩) haddressee
      rw [hdesk] at hknows
      exact absurd hknows hnew

/-- A walk that is begun in a run has a history. -/
theorem exists_lives {first : Engine σ} (h : first.Sound start)
    (hreaches : first.Reaches engine) (hnew : ¬ first.desk.Knows (.report report))
    (hknows : engine.desk.Knows (.report report)) :
    ∃ destination device history, engine.Lives report
      ((Course.begin (.onDevice destination device report)).after history) := by
  induction hreaches with
  | refl => exact absurd hknows hnew
  | @tail before after hreaches hstep ih =>
    obtain ⟨event, hstep⟩ := hstep
    have hsound := h.of_reaches hreaches
    by_cases hbefore : before.desk.Knows (.report report)
    · obtain ⟨destination, device, history, hlives⟩ := ih hbefore
      obtain ⟨happened, -, hafter⟩ := hlives.step hsound hbefore hstep
      exact ⟨destination, device, history ++ happened, by rwa [Course.after_append]⟩
    · obtain ⟨destination, device, hlives⟩ := hsound.lives_of_step hstep hbefore hknows
      exact ⟨destination, device, [], hlives⟩

/-- **A walk whose caller has stopped waiting is frozen.**  Whatever happens to a walk, in whatever
order, what its caller sees when it stops waiting is all that is ever found, and the walk makes no
further read; if the caller sees a finished report, nothing at all changes any more.  At any two
moments the later report has the objects of the earlier one at its front, is finished if the earlier
one is, and has the cause that the earlier one has.  In a run of an engine, whatever its link, its
callers and the stations do, what happens to a walk is such a history, before its caller stops
waiting and after, until the engine has stopped. -/
theorem frozen_once_abandoned (shared : Shared σ) (hdesk : shared.desk.Sound)
    (identity : LocalDevice) (timing : Timing) {engine : Engine σ}
    (hreaches : (launch shared identity timing).Reaches engine) :
    (∀ (walk : Walk) (history more : List Walk.Happening),
      let snapshot := (Course.begin walk).after (history ++ [.wait])
      let later := snapshot.after more
      (later.report.objects = snapshot.report.objects ∧ later.reads = snapshot.reads ∧
        ∀ following ∈ later.walk?, ∀ outcome,
          (following.onReply outcome later.report).1 = none) ∧
      (snapshot.report.finished = true → later = snapshot)) ∧
    (∀ (walk : Walk) (history more : List Walk.Happening),
      ((Course.begin walk).after history).report.Grows
        ((Course.begin walk).after (history ++ more)).report) ∧
    ∀ report, shared.desk.reports.length ≤ report → report < engine.desk.reports.length →
      ∃ walk history, walk.report = report ∧
        engine.Lives report ((Course.begin walk).after history) ∧
        ∀ later, (engine.perform (.abandon report)).Reaches later →
          ∃ more, later.Lives report
              (((Course.begin walk).after (history ++ [.wait])).after more) ∧
            ∃ rest, later.stop.desk.report report =
              (((Course.begin walk).after (history ++ [.wait])).after (more ++ rest)).report := by
  have hsound := (Sound.of_launch shared hdesk identity timing).of_reaches hreaches
  refine ⟨fun walk history more => ?_, fun walk history more => ?_, fun report hnew hreport => ?_⟩
  · have hopen := (Course.open_begin walk).after history
    rw [Course.after_append]
    exact ⟨hopen.after_wait more, fun hfinished =>
      (hopen.happen .wait).after_of_finished hfinished more⟩
  · rw [Course.after_append]
    exact Course.grows_after _ more
  · have hknows : engine.desk.Knows (.report report) := hreport
    obtain ⟨destination, device, history, hlives⟩ :=
      exists_lives (Sound.of_launch shared hdesk identity timing) hreaches
        (Nat.not_lt.mpr hnew) hknows
    refine ⟨.onDevice destination device report, history, rfl, hlives, fun later hlater => ?_⟩
    have hstep := Step.act engine (.abandon report)
    have habandoned : (engine.perform (.abandon report)).Lives report
        ((Course.begin (.onDevice destination device report)).after (history ++ [.wait])) := by
      rw [Course.after_append]
      refine ⟨(Desk.report_mapReport_self hknows _).trans ?_, hlives.held⟩
      rw [hlives.found]
      rfl
    have hknows' := hsound.knows_of_step hstep hknows
    have hsound' := hsound.step hstep
    obtain ⟨more, hmore⟩ := habandoned.of_reaches hsound' hknows' hlater
    obtain ⟨rest, hrest⟩ := hmore.report_stop (hsound'.of_reaches hlater)
      (hsound'.knows_of_reaches hlater hknows')
    exact ⟨more, hmore, rest, by rwa [Course.after_append]⟩

/-- A walk that waits on an empty segment finds nothing once its caller has stopped waiting. -/
theorem frozen_once_abandoned_on_empty_segment :
    let shared : Shared Simulation.Segment := ⟨{}, 0, .empty, {}⟩
    let engine := launch shared ⟨⟨.device, 599⟩, "", 1024, .none, 15⟩ {}
    let begun := engine.perform (.enumerate 5 8)
    let sent := { begun with commands := [] }.handle
      (.request 5 (.read ⟨⟨.device, 8⟩, .objectList, some 0⟩) (.walk (.onDevice 5 8 0)))
    engine.desk.Sound ∧ engine.Reaches sent ∧ (sent.desk.report 0).finished = false ∧
      ∀ later, (sent.perform (.abandon 0)).Reaches later → (later.desk.report 0).objects = [] := by
  intro shared engine begun sent
  have hdesk : engine.desk.Sound := Desk.sound_empty
  have hreaches : engine.Reaches sent :=
    .tail (.single ⟨_, .act engine _⟩) ⟨_, .obey rfl (by decide)⟩
  refine ⟨hdesk, hreaches, rfl, fun later hlater => ?_⟩
  obtain ⟨hfrozen, -, hhistories⟩ := frozen_once_abandoned shared hdesk _ _ hreaches
  obtain ⟨walk, history, -, hlives, hruns⟩ := hhistories 0 (by decide) (by decide)
  obtain ⟨more, hmore, -⟩ := hruns later hlater
  rw [hmore.found, (hfrozen walk history more).1.1, Course.after_append]
  exact congrArg WalkReport.objects hlives.found.symm

end Engine

end Fieldbus
