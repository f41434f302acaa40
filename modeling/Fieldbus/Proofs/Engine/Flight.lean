import Fieldbus.Proofs.Engine.Accounting
import Fieldbus.Proofs.Link.Recorded

/-!
# Walks in flight

An engine carries on many requests at once, and what it does for one walk is mixed with everything
else.  Seen from the walk nothing else happens: as long as its reads are sent and its caller waits,
it does in the engine what it does alone with the same replies.

## Main definitions

* `Engine.Watched`: a run, with what is sent for one client and what it is brought.
* `Engine.Follows`: an engine in which a walk is where it is in its course.

## Main results

* `Engine.Watched.follows`: a walk in an engine follows its course.
-/

namespace Fieldbus

theorem WalkReport.abandon_eq_self {report : WalkReport} (h : report.abandon.abandoned = false) :
    report.abandon = report := by
  have hwaits : report.abandoned = false := (Bool.or_eq_false_iff.mp h).1
  have hsame : (report.abandoned || !report.finished) = report.abandoned := h.trans hwaits.symm
  rw [abandon, hsame]

/-- What is sent, and where. -/
def Dispatch.message (dispatch : Dispatch) : Mac × ConfirmedRequest :=
  (dispatch.destination, dispatch.request)

namespace Engine

variable {σ : Type}

/-- An engine in which a walk is where it is in its course. -/
structure Follows (engine : Engine σ) (report : WalkId) (course : Course) : Prop where
  queued : engine.queued (.report report) = []
  found : engine.desk.report report = course.report
  waiting : (engine.waiting (.report report)).map Pending.responder =
    course.walk?.toList.map Responder.walk

variable [Link σ]

/-- What a step sends for a client. -/
def dispatched (before : Engine (Recorded σ)) (event : Event) (client : Client)
    (after : Engine (Recorded σ)) : List Dispatch :=
  if before.addressee? event = some client then after.link.log.drop before.link.log.length else []

/-- The outcome that a step brings a client. -/
def brought (before : Engine σ) (event : Event) (client : Client) : List Outcome :=
  if before.addressee? event = some client then (before.outcome? event).toList else []

/-- A run, with what is sent for a client and what the client is brought, the oldest first. -/
inductive Watched (client : Client) (first : Engine (Recorded σ)) :
    List Dispatch → List Outcome → Engine (Recorded σ) → Prop
  | start : Watched client first [] [] first
  | step {sent : List Dispatch} {outcomes : List Outcome} {before after : Engine (Recorded σ)}
      {event : Event} (hrun : Watched client first sent outcomes before)
      (hstep : Step before event after) :
      Watched client first (sent ++ before.dispatched event client after)
        (outcomes ++ before.brought event client) after

theorem Watched.reaches {client : Client} {first later : Engine (Recorded σ)}
    {sent : List Dispatch} {outcomes : List Outcome}
    (h : Watched client first sent outcomes later) : first.Reaches later := by
  induction h with
  | start => exact .refl
  | step _ hstep ih => exact .tail ih ⟨_, hstep⟩

/-- The run that some events make of an engine, watched for a client. -/
def watch (client : Client) (first : Engine (Recorded σ)) (events : List Event) :
    Option (List Dispatch × List Outcome × Engine (Recorded σ)) :=
  events.foldlM
    (fun (sent, outcomes, before) event => do
      let after ← before.next? event
      return (sent ++ before.dispatched event client after, outcomes ++ before.brought event client,
        after))
    ([], [], first)

theorem watched_of_watch {client : Client} {first later : Engine (Recorded σ)} {events : List Event}
    {sent : List Dispatch} {outcomes : List Outcome}
    (h : watch client first events = some (sent, outcomes, later)) :
    Watched client first sent outcomes later := by
  rw [watch] at h
  -- the run so far is watched, whatever it is
  generalize hstart : (([], [], first) : List Dispatch × List Outcome × _) = start at h
  have hwatched : Watched client first start.1 start.2.1 start.2.2 := hstart ▸ .start
  clear hstart
  induction events generalizing start with
  | nil =>
    cases h
    exact hwatched
  | cons event rest ih =>
    obtain ⟨next, hnext, hrest⟩ := Option.bind_eq_some_iff.mp h
    obtain ⟨after, hafter, hsame⟩ := Option.bind_eq_some_iff.mp hnext
    cases hsame
    exact ih _ hrest (hwatched.step (step_iff_next?_eq_some.mpr hafter))

/-! ### What a request sends -/

/-- A request that is started gets no id, or is handed to the link, and waits if the link took
it. -/
theorem start_recorded_cases (engine : Engine (Recorded σ)) (destination : Mac)
    (request : ConfirmedRequest) (responder : Responder) :
    (engine.takeId? = none ∧
      engine.start destination request responder = engine.fail responder (.link noFreeId)) ∨
    ∃ id taken, (engine.start destination request responder).link.log =
        engine.link.log ++ [⟨destination, id, request, taken⟩] ∧
      (taken = true → ∃ cursor link, engine.start destination request responder =
        { engine with
          cursor := cursor
          link := link
          pending := engine.pending ++ [⟨id, destination, engine.clock, responder⟩] }) := by
  rw [start]
  cases htake : engine.takeId? with
  | none => exact .inl ⟨rfl, rfl⟩
  | some given =>
    right
    obtain ⟨id, worker⟩ := given
    have hworker := Worker.eq_of_takeId? htake
    subst hworker
    have hsend : Link.sendConfirmed destination id request engine.link =
        Recorded.sendConfirmed destination id request engine.link := rfl
    simp only [hsend, Recorded.sendConfirmed]
    cases Link.sendConfirmed destination id request engine.link.link with
    | mk result link =>
      refine ⟨id, result.toBool, ?_, fun htaken => ?_⟩
      · cases result with
        | error error => cases responder <;> rfl
        | ok => rfl
      · cases result with
        | error error => cases htaken
        | ok => exact ⟨id + 1, _, rfl⟩

/-! ### What one step does for a walk -/

variable {walk : Walk} {course : Course}

/-- A walk that gets an outcome follows its course, if what it sends is taken. -/
theorem Follows.of_complete {engine after : Engine (Recorded σ)} {outcome : Outcome}
    (hafter : after = engine.complete (.walk walk) outcome)
    (hknows : walk.report < engine.desk.reports.length)
    (hqueued : engine.queued (.report walk.report) = [])
    (hwaiting : engine.waiting (.report walk.report) = [])
    (hfree : ∃ given, engine.takeId? = some given)
    (hfound : engine.desk.report walk.report = course.report) (hwalk : course.walk? = some walk)
    (htaken : ∀ dispatch ∈ after.link.log.drop engine.link.log.length, dispatch.taken = true) :
    after.Follows walk.report (course.onReply outcome) ∧
      ∃ issued, (course.onReply outcome).reads = course.reads ++ issued ∧
        (after.link.log.drop engine.link.log.length).map Dispatch.message =
          issued.map (fun request => (walk.destination, request)) ∧
        (course.onReply outcome).walk?.isSome.toNat = issued.length := by
  rw [Course.onReply, hwalk]
  have hself := @Desk.report_mapReport_self engine.desk walk.report hknows
  rcases walk.onReply_cases outcome course.report with
    ⟨report, hreply, -⟩ | ⟨index, rest, objects, hreply⟩
  · have heq : after =
        { engine with desk := engine.desk.mapReport walk.report fun _ => report } := by
      rw [hafter]
      simp only [complete, hfound, hreply]
    simp only [hreply]
    refine ⟨⟨?_, ?_, ?_⟩, [], (List.append_nil _).symm, ?_, rfl⟩
    · rw [heq]
      exact hqueued
    · rw [heq]
      exact hself _
    · rw [heq]
      exact congrArg (List.map Pending.responder) hwaiting
    · rw [heq, List.drop_length]
      rfl
  · let reported : Engine (Recorded σ) :=
      { engine with
        desk := engine.desk.mapReport walk.report fun _ => course.report.extend objects }
    let following : Walk := { walk with remaining := rest }
    have heq : after = reported.start walk.destination (walk.readAt index) (.walk following) := by
      rw [hafter]
      simp only [complete, hfound, hreply, reported, following]
    simp only [hreply]
    rcases reported.start_recorded_cases walk.destination (walk.readAt index) (.walk following) with
      ⟨hnone, -⟩ | ⟨id, taken, hlog, hwaits⟩
    · obtain ⟨given, hgiven⟩ := hfree
      cases hgiven.symm.trans hnone
    · have hdrop : after.link.log.drop engine.link.log.length =
          [⟨walk.destination, id, walk.readAt index, taken⟩] := by
        rw [heq, hlog]
        exact List.drop_left
      obtain ⟨cursor, link, hstart⟩ := hwaits (htaken _ (hdrop ▸ List.mem_singleton_self _))
      rw [hstart] at heq
      refine ⟨⟨?_, ?_, ?_⟩, [walk.readAt index], rfl, ?_, rfl⟩
      · rw [heq]
        exact hqueued
      · rw [heq]
        exact hself _
      · rw [heq, Worker.waiting, List.filter_append]
        change ((engine.waiting (.report walk.report)) ++ _).map Pending.responder = _
        rw [hwaiting]
        simp [Responder.client, following]
      · rw [hdrop]
        rfl

/-- Cancelling the request of a walk brings the walk a failure, if its caller waits. -/
theorem cancel_eq_complete {engine : Engine σ} {entry : Pending}
    (hwalk : entry.responder = .walk walk)
    (habandoned : (engine.desk.report walk.report).abandoned = false) :
    engine.cancel entry = engine.complete (.walk walk) (.failure .stopped) := by
  have hreply : walk.onReply (.failure .stopped) (engine.desk.report walk.report) =
      (none, (engine.desk.report walk.report).abort (.failure .stopped)) := by
    rw [Walk.onReply, habandoned]
    rfl
  rw [cancel, hwalk]
  simp only [complete, hreply]
  rw [Desk.mapReport_const _ _ fun report => report.abort (.failure .stopped)]

variable {start : Desk} {before after : Engine (Recorded σ)} {event : Event} {origin : Walk}

/-- A step that deals with a walk brings it an outcome, and the walk follows its course. -/
theorem Follows.step (hfollows : before.Follows origin.report course) (h : before.Sound start)
    (hof : course.Of origin) (hstep : Step before event after)
    (haddressee : before.addressee? event = some (.report origin.report))
    (htaken : ∀ dispatch ∈ before.dispatched event (.report origin.report) after,
      dispatch.taken = true) :
    ∃ outcome issued, before.brought event (.report origin.report) = [outcome] ∧
      after.Follows origin.report (course.onReply outcome) ∧
      (course.onReply outcome).reads = course.reads ++ issued ∧
      (before.dispatched event (.report origin.report) after).map Dispatch.message =
        issued.map (fun request => (origin.destination, request)) ∧
      course.walk?.isSome.toNat = 1 ∧
      (course.onReply outcome).walk?.isSome.toNat = issued.length := by
  rw [dispatched, if_pos haddressee] at htaken ⊢
  rw [brought, if_pos haddressee]
  rcases hstep.cases_of_addressee?_eq_some haddressee with
    ⟨destination, request, responder, rest, hclient, hqueue, -, -⟩ |
    ⟨entry, outcome, link, hentry, hclient, houtcome, hlink, hafter⟩
  · -- the walk has no command that waits
    have hmem : .request destination request responder ∈ before.queued (.report origin.report) :=
      Worker.mem_queued.mpr ⟨hqueue ▸ List.mem_cons_self, congrArg some hclient⟩
    rw [hfollows.queued] at hmem
    cases hmem
  · have hmem := Worker.mem_waiting.mpr ⟨hentry, hclient⟩
    obtain ⟨walk, hwalk, hresponder⟩ : ∃ walk, course.walk? = some walk ∧
        entry.responder = .walk walk := by
      have hresponders := List.mem_map_of_mem (f := Pending.responder) hmem
      rw [hfollows.waiting] at hresponders
      obtain ⟨walk, hwalk, hsame⟩ := List.mem_map.mp hresponders
      exact ⟨walk, Option.mem_toList.mp hwalk, hsame.symm⟩
    obtain ⟨hdestination, hreport⟩ := hof.walk walk hwalk
    let middle : Engine (Recorded σ) := { before.release entry.id with link := link }
    have htakes : before.Takes entry.destination (.report origin.report) middle :=
      ⟨rfl, .inr ⟨entry, hentry, hclient, rfl, rfl, rfl⟩⟩
    obtain ⟨hknows, -, -, hqueued, hwaiting⟩ := h.of_takes htakes
    have hlog : middle.link.log = before.link.log := by
      rcases hlink with rfl | rfl
      · rfl
      · exact Recorded.log_receive _
    -- the id of the answered request is free again, so a following read gets an id
    have hfree : ∃ given, middle.takeId? = some given := by
      have hidle : middle.isBusy entry.id = false := by
        simp [Worker.isBusy_eq_false_iff, middle, release, Worker.drop]
      exact Worker.exists_takeId?_eq_some hidle
    have hcomplete : after = middle.complete (.walk walk) outcome := by
      rcases hafter with hafter | ⟨rfl, hafter⟩
      · rw [hafter, hresponder]
      · rw [hafter]
        apply cancel_eq_complete hresponder
        · rw [hreport]
          change (before.desk.report origin.report).abandoned = false
          rw [hfollows.found, hof.abandoned]
    rw [← hlog] at htaken ⊢
    rw [← hreport] at hknows hqueued hwaiting ⊢
    obtain ⟨hnext, issued, hreads, hmessages, hcount⟩ := Follows.of_complete hcomplete hknows
      hqueued hwaiting hfree (hreport ▸ hfollows.found) hwalk htaken
    have hone : course.walk?.isSome.toNat = 1 := by
      rw [hwalk]
      rfl
    exact ⟨outcome, issued, congrArg Option.toList houtcome, hnext, hreads,
      hdestination ▸ hmessages, hone, hcount⟩

/-- A step that deals with another client leaves a walk where it is in its course. -/
theorem Follows.of_ne (hfollows : before.Follows origin.report course) (h : before.Sound start)
    (hknows : before.desk.Knows (.report origin.report)) (hstep : Step before event after)
    (haddressee : before.addressee? event ≠ some (.report origin.report))
    (hwaits : (after.desk.report origin.report).abandoned = false) :
    after.Follows origin.report course := by
  obtain ⟨hqueued, hwaiting, hreport⟩ := h.of_addressee?_ne hstep hknows haddressee
  refine ⟨hqueued.trans hfollows.queued, ?_, by rw [hwaiting, hfollows.waiting]⟩
  rcases hreport with hreport | hreport
  · exact hreport.trans hfollows.found
  · rw [hreport] at hwaits
    rw [hreport, WalkReport.abandon_eq_self hwaits, hfollows.found]

/-- A walk whose command is carried out gets no id, or makes its first read. -/
theorem begin_cases (h : before.Sound start)
    (hqueued : before.queued (.report origin.report) =
      [.request origin.destination origin.firstRead (.walk origin)])
    (hstep : Step before event after)
    (haddressee : before.addressee? event = some (.report origin.report)) :
    before.brought event (.report origin.report) = [] ∧
    ((before.dispatched event (.report origin.report) after = [] ∧
        after.queued (.report origin.report) = [] ∧ after.waiting (.report origin.report) = []) ∨
      ∃ id taken, before.dispatched event (.report origin.report) after =
          [⟨origin.destination, id, origin.firstRead, taken⟩] ∧
        (taken = true → before.desk.report origin.report = {} →
          after.Follows origin.report (.begin origin))) := by
  have hwaiting : before.waiting (.report origin.report) = [] := by
    obtain ⟨hknows, hnew⟩ := h.current _ (.inl (hqueued ▸ List.cons_ne_nil _ _))
    have honce := h.once _ hknows hnew
    rw [hqueued, List.length_singleton] at honce
    exact List.length_eq_zero_iff.mp (by omega)
  rw [dispatched, if_pos haddressee, brought, if_pos haddressee]
  rcases hstep.cases_of_addressee?_eq_some haddressee with
    ⟨destination, request, responder, rest, hclient, hqueue, houtcome, hafter⟩ |
    ⟨entry, outcome, link, hentry, hclient, -⟩
  · refine ⟨congrArg Option.toList houtcome, ?_⟩
    let middle : Engine (Recorded σ) := { before with commands := rest }
    have htakes : before.Takes destination (.report origin.report) middle :=
      ⟨rfl, .inl ⟨request, responder, hclient, hqueue, rfl⟩⟩
    obtain ⟨hknows, -, -, hqueued', hwaiting'⟩ := h.of_takes htakes
    -- the command at the front is the one of the walk
    have hmem : .request destination request responder ∈ before.queued (.report origin.report) :=
      Worker.mem_queued.mpr ⟨hqueue ▸ List.mem_cons_self, congrArg some hclient⟩
    rw [hqueued] at hmem
    obtain ⟨rfl, rfl, rfl⟩ := Command.request.inj (List.mem_singleton.mp hmem)
    rcases middle.start_recorded_cases origin.destination origin.firstRead (.walk origin) with
      ⟨-, hrefused⟩ | ⟨id, taken, hlog, hwaits⟩
    · left
      have heq := hafter.trans hrefused
      subst heq
      exact ⟨List.drop_length, hqueued', hwaiting'⟩
    · right
      refine ⟨id, taken, ?_, fun htaken hreport => ?_⟩
      · rw [hafter, hlog]
        exact List.drop_left
      · obtain ⟨cursor, link, hstart⟩ := hwaits htaken
        have heq := hafter.trans hstart
        subst heq
        refine ⟨hqueued', hreport, ?_⟩
        rw [Worker.waiting, List.filter_append]
        change ((middle.waiting (.report origin.report)) ++ _).map Pending.responder = _
        rw [hwaiting']
        simp [Responder.client, Course.begin]
  · have hmem := Worker.mem_waiting.mpr ⟨hentry, hclient⟩
    rw [hwaiting] at hmem
    cases hmem

/-! ### Whole runs -/

/-- How far a walk has come in a run that is watched for it. -/
inductive Stage (origin : Walk) (sent : List Dispatch) (outcomes : List Outcome)
    (engine : Engine (Recorded σ)) : Prop
  /-- Its command waits for the engine. -/
  | queued (hsent : sent = []) (houtcomes : outcomes = [])
      (hqueued : engine.queued (.report origin.report) =
        [.request origin.destination origin.firstRead (.walk origin)])
      (hreport : (engine.desk.report origin.report).abandoned = false →
        engine.desk.report origin.report = {})
  /-- There was no id for its first read. -/
  | refused (hsent : sent = []) (hqueued : engine.queued (.report origin.report) = [])
      (hwaiting : engine.waiting (.report origin.report) = [])
  /-- It has begun, and as long as its reads are sent and its caller waits it follows its
  course. -/
  | begun (hsent : sent ≠ [])
      (hfollows : (∀ dispatch ∈ sent, dispatch.taken = true) →
        (engine.desk.report origin.report).abandoned = false →
        engine.Follows origin.report ((Course.begin origin).along outcomes) ∧
        sent.map Dispatch.message = ((Course.begin origin).along outcomes).reads.map
          (fun request => (origin.destination, request)) ∧
        outcomes.length + ((Course.begin origin).along outcomes).walk?.isSome.toNat = sent.length)

variable {sent : List Dispatch} {outcomes : List Outcome}

theorem Stage.of_ne (hstage : before.Stage origin sent outcomes) (h : before.Sound start)
    (hknows : before.desk.Knows (.report origin.report)) (hstep : Step before event after)
    (haddressee : before.addressee? event ≠ some (.report origin.report)) :
    after.Stage origin (sent ++ before.dispatched event (.report origin.report) after)
      (outcomes ++ before.brought event (.report origin.report)) := by
  rw [dispatched, if_neg haddressee, brought, if_neg haddressee, List.append_nil, List.append_nil]
  obtain ⟨hqueued, hwaiting, hreport⟩ := h.of_addressee?_ne hstep hknows haddressee
  cases hstage with
  | queued hsent houtcomes hbefore hbeforeReport =>
    refine .queued hsent houtcomes (hqueued.trans hbefore) fun hwaits => ?_
    rcases hreport with hreport | hreport
    · rw [hreport] at hwaits ⊢
      exact hbeforeReport hwaits
    · rw [hreport] at hwaits ⊢
      have hsame := WalkReport.abandon_eq_self hwaits
      rw [hsame] at hwaits ⊢
      exact hbeforeReport hwaits
  | refused hsent hbefore hbeforeWaiting =>
    exact .refused hsent (hqueued.trans hbefore) (hwaiting.trans hbeforeWaiting)
  | begun hsent hfollows =>
    refine .begun hsent fun htaken hwaits => ?_
    obtain ⟨hbefore, hmessages⟩ := hfollows htaken (h.abandoned_of_step hstep hknows hwaits)
    exact ⟨hbefore.of_ne h hknows hstep haddressee hwaits, hmessages⟩

/-- A step that deals with a walk brings it to its next stage. -/
theorem Stage.step (hstage : before.Stage origin sent outcomes) (h : before.Sound start)
    (hknows : before.desk.Knows (.report origin.report)) (hstep : Step before event after)
    (haddressee : before.addressee? event = some (.report origin.report)) :
    after.Stage origin (sent ++ before.dispatched event (.report origin.report) after)
      (outcomes ++ before.brought event (.report origin.report)) := by
  cases hstage with
  | queued hsent houtcomes hqueued hreport =>
    subst hsent houtcomes
    rw [List.nil_append, List.nil_append]
    obtain ⟨hbrought, ⟨hnothing, hqueued', hwaiting'⟩ | ⟨id, taken, hdispatched, hfollows⟩⟩ :=
      begin_cases h hqueued hstep haddressee
    · exact .refused hnothing hqueued' hwaiting'
    · rw [hbrought, hdispatched]
      refine .begun (List.cons_ne_nil _ _) fun htaken hwaits => ?_
      have hbefore := hreport (h.abandoned_of_step hstep hknows hwaits)
      exact ⟨hfollows (htaken _ (List.mem_singleton_self _)) hbefore, rfl, rfl⟩
  | refused hsent hqueued hwaiting =>
    -- a walk without commands and requests is not dealt with
    obtain ⟨destination, middle, htakes, -⟩ := h.deals hstep haddressee
    rcases htakes.ne_nil with hsome | hsome
    · exact absurd hqueued hsome
    · exact absurd hwaiting hsome
  | begun hsent hfollows =>
    refine .begun (List.append_ne_nil_of_left_ne_nil hsent _) fun htaken hwaits => ?_
    obtain ⟨hbefore, hmessages, hcount⟩ :=
      hfollows (fun dispatch hdispatch => htaken dispatch (List.mem_append_left _ hdispatch))
        (h.abandoned_of_step hstep hknows hwaits)
    obtain ⟨outcome, issued, hbrought, hafter, hreads, hissued, hone, hnext⟩ :=
      hbefore.step h ((Course.begin_of origin).along outcomes) hstep haddressee
        fun dispatch hdispatch => htaken dispatch (List.mem_append_right _ hdispatch)
    have halong : (Course.begin origin).along (outcomes ++ [outcome]) =
        ((Course.begin origin).along outcomes).onReply outcome := Course.along_append _ _ _
    have hlength := congrArg List.length hissued
    rw [List.length_map, List.length_map] at hlength
    rw [hbrought, halong]
    refine ⟨hafter, ?_, ?_⟩
    · rw [hreads, List.map_append, List.map_append, hmessages, hissued]
    · rw [List.length_append, List.length_append, List.length_singleton]
      omega

/-- **A walk in an engine follows its course.**  Whatever else an engine does meanwhile, a walk
whose reads are sent and whose caller waits is where it would be alone with the same replies, and
has made the same reads. -/
theorem Watched.follows {first later : Engine (Recorded σ)} (h : first.Sound start)
    (hqueued : first.queued (.report origin.report) =
      [.request origin.destination origin.firstRead (.walk origin)])
    (hreport : first.desk.report origin.report = {})
    (hrun : Watched (.report origin.report) first sent outcomes later) (hsent : sent ≠ [])
    (htaken : ∀ dispatch ∈ sent, dispatch.taken = true)
    (hwaits : (later.desk.report origin.report).abandoned = false) :
    later.Follows origin.report ((Course.begin origin).along outcomes) ∧
      sent.map Dispatch.message = ((Course.begin origin).along outcomes).reads.map
        (fun request => (origin.destination, request)) ∧
      outcomes.length + ((Course.begin origin).along outcomes).walk?.isSome.toNat =
        sent.length := by
  have hfirst : first.desk.Knows (.report origin.report) :=
    (h.current _ (.inl (hqueued ▸ List.cons_ne_nil _ _))).1
  have hstage : later.Stage origin sent outcomes := by
    clear hsent htaken hwaits
    induction hrun with
    | start => exact .queued rfl rfl hqueued fun _ => hreport
    | @step sent outcomes before after event hrun hstep ih =>
      have hsound := h.of_reaches hrun.reaches
      have hknows := h.knows_of_reaches hrun.reaches hfirst
      by_cases haddressee : before.addressee? event = some (.report origin.report)
      · exact ih.step hsound hknows hstep haddressee
      · exact ih.of_ne hsound hknows hstep haddressee
  cases hstage with
  | queued hnothing => exact absurd hnothing hsent
  | refused hnothing => exact absurd hnothing hsent
  | begun _ hfollows => exact hfollows htaken hwaits

end Engine

end Fieldbus
