import Mathlib.Data.List.Perm.Basic
import Fieldbus.Proofs.Engine.Fate

/-!
# Delivery

Completions reach the requests that they name, and nothing else.  A completion that names no
request is ignored, and the completions of several requests can come in any order: what the engine
does from then on is the same, and so is every outcome that is ever left for a caller.

## Main definitions

* `Engine.preceded`: an engine with older outcomes on its desk.
* `Engine.resolve`: an engine that takes in answers to its requests.

## Main results

* `Engine.run?_preceded`: no engine looks at the outcomes on its desk.
* `Engine.resolve_eq`: what answers to requests of ticket holders do.
* `Engine.completion_reaches_named`: completions reach the requests that they name.
-/

namespace Fieldbus

/-- A completion that answers a request. -/
def Pending.completion (entry : Pending) (outcome : Outcome) : Indication :=
  .completion entry.destination entry.id outcome

/-- What an outcome leaves on the desk for its responder. -/
def Responder.receipt? (responder : Responder) (outcome : Outcome) : Option (Ticket × Outcome) :=
  match responder with
  | .ticket number => some (number, outcome)
  | .walk _ => none

theorem Responder.eq_ticket_of_receipt? {responder : Responder} {outcome : Outcome}
    {receipt : Ticket × Outcome} (h : responder.receipt? outcome = some receipt) :
    responder = .ticket receipt.1 := by
  cases responder <;> cases h
  rfl

namespace Desk

theorem answers_append (outcomes later : List (Ticket × Outcome)) (ticket : Ticket) :
    ({ outcomes := outcomes ++ later } : Desk).answers ticket =
      ({ outcomes := outcomes } : Desk).answers ticket ++
        ({ outcomes := later } : Desk).answers ticket := by
  simp [answers]

theorem outcomes_deliver (desk : Desk) (windows : List WindowId) (record : DeviceRecord) :
    (desk.deliver windows record).outcomes = desk.outcomes := by
  obtain ⟨changed, hdeliver⟩ := Engine.deliver_eq desk windows record
  rw [hdeliver]

theorem deliver_withOutcomes (desk : Desk) (outcomes : List (Ticket × Outcome))
    (windows : List WindowId) (record : DeviceRecord) :
    deliver { desk with outcomes := outcomes } windows record =
      { desk.deliver windows record with outcomes := outcomes } := by
  rw [deliver, deliver]
  induction windows generalizing desk with
  | nil => rfl
  | cons window rest ih => exact ih (desk.mapWindow window fun window => window.deliver record)

end Desk

namespace Engine

variable {σ : Type}

/-- The engine with outcomes on its desk that are older than all others. -/
def preceded (engine : Engine σ) (older : List (Ticket × Outcome)) : Engine σ :=
  { engine with desk := { engine.desk with outcomes := older ++ engine.desk.outcomes } }

/-! ### No engine looks at the outcomes on its desk -/

section

variable (engine : Engine σ) (older : List (Ticket × Outcome))

theorem answers_preceded (ticket : Ticket) :
    (engine.preceded older).desk.answers ticket =
      ({ outcomes := older } : Desk).answers ticket ++ engine.desk.answers ticket :=
  Desk.answers_append older engine.desk.outcomes ticket

theorem leave_preceded (ticket : Ticket) (outcome : Outcome) :
    ({ engine.preceded older with
      desk := (engine.preceded older).desk.leave ticket outcome } : Engine σ) =
      preceded { engine with desk := engine.desk.leave ticket outcome } older := by
  simp [preceded, Desk.leave]

theorem fail_preceded (responder : Responder) (cause : Failure) :
    (engine.preceded older).fail responder cause =
      (engine.fail responder cause).preceded older := by
  cases responder with
  | ticket ticket => exact engine.leave_preceded older ticket _
  | walk walk => rfl

theorem cancel_preceded (entry : Pending) :
    (engine.preceded older).cancel entry = (engine.cancel entry).preceded older := by
  obtain ⟨id, destination, sentAt, responder⟩ := entry
  cases responder with
  | ticket ticket => exact engine.leave_preceded older ticket _
  | walk walk => rfl

theorem hear_preceded (source : Option Mac) (announcement : Announcement) :
    (engine.preceded older).hear source announcement =
      (engine.hear source announcement).preceded older := by
  rw [hear, hear]
  split
  · have hdeliver := Desk.deliver_withOutcomes engine.desk (older ++ engine.desk.outcomes)
      (engine.listeners.filter engine.desk.isWanted) (recordOf source announcement)
    have houtcomes := Desk.outcomes_deliver engine.desk
      (engine.listeners.filter engine.desk.isWanted) (recordOf source announcement)
    simp only [preceded, houtcomes, ← hdeliver]
    rfl
  · rfl

theorem perform_preceded (action : Action) :
    (engine.preceded older).perform action = (engine.perform action).preceded older := by
  cases action <;> rfl

variable [Link σ]

theorem start_preceded (destination : Mac) (request : ConfirmedRequest) (responder : Responder) :
    (engine.preceded older).start destination request responder =
      (engine.start destination request responder).preceded older := by
  have htake : (engine.preceded older).takeId? = engine.takeId? := rfl
  have hlink : (engine.preceded older).link = engine.link := rfl
  rw [start, start, htake, hlink]
  cases engine.takeId? with
  | none => exact engine.fail_preceded older _ _
  | some taken =>
    obtain ⟨id, worker⟩ := taken
    simp only
    cases Link.sendConfirmed destination id request engine.link with
    | mk result link =>
      cases result with
      | error error =>
        exact fail_preceded { engine with toWorker := worker, link := link } older _ _
      | ok => rfl

theorem complete_preceded (responder : Responder) (outcome : Outcome) :
    (engine.preceded older).complete responder outcome =
      (engine.complete responder outcome).preceded older := by
  cases responder with
  | ticket ticket => exact engine.leave_preceded older ticket _
  | walk walk =>
    have hreport : (engine.preceded older).desk.report walk.report =
        engine.desk.report walk.report := rfl
    simp only [complete, hreport]
    cases walk.onReply outcome (engine.desk.report walk.report) with
    | mk next report =>
      cases next with
      | none => rfl
      | some following =>
        exact start_preceded { engine with
          desk := engine.desk.mapReport walk.report fun _ => report } older _ _ _

theorem completion_preceded (source : Mac) (id : InvokeId) (outcome : Outcome) :
    (engine.preceded older).completion source id outcome =
      (engine.completion source id outcome).preceded older := by
  have hpending : (engine.preceded older).pending? id = engine.pending? id := rfl
  rw [completion, completion, hpending]
  cases engine.pending? id with
  | none => rfl
  | some entry =>
    simp only
    split
    · exact complete_preceded { engine with toWorker := engine.drop id } older _ _
    · rfl

theorem handle_preceded (command : Command) :
    (engine.preceded older).handle command = (engine.handle command).preceded older := by
  cases command with
  | request destination request responder => exact engine.start_preceded older _ _ _
  | _ => rfl

theorem indicate_preceded (indication : Indication) :
    (engine.preceded older).indicate indication =
      (engine.indicate indication).preceded older := by
  cases indication with
  | iAm source announcement => exact engine.hear_preceded older _ _
  | completion source id outcome => exact engine.completion_preceded older _ _ _

theorem listen_preceded :
    (engine.preceded older).listen.toOption =
      engine.listen.toOption.map fun after => after.preceded older := by
  have hlink : (engine.preceded older).link = engine.link := rfl
  rw [listen, listen, hlink]
  cases Link.receive engine.link with
  | mk reception link =>
    cases reception with
    | heard indication =>
      exact congrArg some (indicate_preceded { engine with link := link } older indication)
    | _ => rfl

/-- What an engine does next does not depend on the outcomes on its desk. -/
theorem next?_preceded (event : Event) :
    (engine.preceded older).next? event =
      (engine.next? event).map fun after => after.preceded older := by
  cases event with
  | act action => exact congrArg some (engine.perform_preceded older action)
  | obey =>
    have hcommands : (engine.preceded older).commands = engine.commands := rfl
    simp only [next?, hcommands]
    cases engine.commands with
    | nil => rfl
    | cons command rest =>
      simp only
      split
      · rfl
      · exact congrArg some (handle_preceded { engine with commands := rest } older command)
  | listen => exact engine.listen_preceded older
  | giveUp entry =>
    have hwaits : (entry ∈ (engine.preceded older).pending ∧
        (engine.preceded older).isOverdue entry = true) =
      (entry ∈ engine.pending ∧ engine.isOverdue entry = true) := rfl
    simp only [next?, hwaits]
    split
    · exact congrArg some ((engine.release entry.id).complete_preceded older _ _)
    · rfl
  | cancel entry =>
    have hwaits : (entry ∈ (engine.preceded older).pending) = (entry ∈ engine.pending) := rfl
    simp only [next?, hwaits]
    split
    · exact congrArg some ((engine.release entry.id).cancel_preceded older entry)
    · rfl

/-- No engine ever looks at the outcomes on its desk. -/
theorem run?_preceded (events : List Event) :
    (engine.preceded older).run? events =
      (engine.run? events).map fun later => later.preceded older := by
  induction events generalizing engine with
  | nil => rfl
  | cons event rest ih =>
    rw [run?, List.foldlM_cons, next?_preceded, run?, List.foldlM_cons]
    cases engine.next? event with
    | none => rfl
    | some after => exact ih after

end

/-! ### Answers in any order -/

variable [Link σ]

/-- The engine once it has taken in answers to requests that wait, the first one first. -/
def resolve (engine : Engine σ) (answers : List (Pending × Outcome)) : Engine σ :=
  answers.foldl (fun engine answer => engine.indicate (answer.1.completion answer.2)) engine

/-- What answers to requests leave on the desk. -/
def receipts (answers : List (Pending × Outcome)) : List (Ticket × Outcome) :=
  answers.filterMap fun answer => answer.1.responder.receipt? answer.2

/-- Answers to different requests of ticket holders leave their outcomes and end the requests;
nothing else changes. -/
theorem resolve_eq {engine : Engine σ} {answers : List (Pending × Outcome)}
    (hids : (engine.pending.map Pending.id).Nodup) (hnodup : (answers.map Prod.fst).Nodup)
    (hanswers : ∀ answer ∈ answers, answer.1 ∈ engine.pending ∧
      ∃ ticket, answer.1.responder = .ticket ticket) :
    engine.resolve answers =
      { engine with
        pending := engine.pending.filter fun entry => entry ∉ answers.map Prod.fst
        desk := { engine.desk with outcomes := engine.desk.outcomes ++ receipts answers } } := by
  induction answers generalizing engine with
  | nil => simp [resolve, receipts]
  | cons answer rest ih =>
    obtain ⟨entry, outcome⟩ := answer
    obtain ⟨⟨hentry, ticket, hticket⟩, hrest⟩ := List.forall_mem_cons.mp hanswers
    obtain ⟨hother, hnodup⟩ := List.nodup_cons.mp hnodup
    have hticket : entry.responder = .ticket ticket := hticket
    have hother : entry ∉ rest.map Prod.fst := hother
    let settled : Engine σ :=
      { engine.release entry.id with desk := engine.desk.leave ticket outcome }
    have hsettled : engine.indicate (entry.completion outcome) = settled := by
      change engine.completion entry.destination entry.id outcome = settled
      rw [engine.completion_eq_complete hids hentry, hticket]
      rfl
    -- the other requests wait under other ids
    have hid : ∀ other ∈ engine.pending, other ≠ entry → other.id ≠ entry.id :=
      fun other hmem hne hsame => hne (List.inj_on_of_nodup_map hids hmem hentry hsame)
    have hsettledRest : ∀ answer ∈ rest, answer.1 ∈ settled.pending ∧
        ∃ ticket, answer.1.responder = .ticket ticket := by
      intro answer hanswer
      obtain ⟨hmem, hholder⟩ := hrest answer hanswer
      have hne : answer.1 ≠ entry := fun heq => hother (heq ▸ List.mem_map_of_mem hanswer)
      exact ⟨List.mem_filter.mpr ⟨hmem, by simpa using hid _ hmem hne⟩, hholder⟩
    have hpending : (settled.pending.filter fun other => other ∉ rest.map Prod.fst) =
        engine.pending.filter fun other => other ∉ ((entry, outcome) :: rest).map Prod.fst := by
      change (engine.pending.filter _).filter _ = _
      rw [List.filter_filter]
      refine List.filter_congr fun other hmem => ?_
      by_cases heq : other = entry
      · simp [heq]
      · simp [heq, hid other hmem heq]
    have houtcomes : settled.desk.outcomes ++ receipts rest =
        engine.desk.outcomes ++ receipts ((entry, outcome) :: rest) := by
      have hreceipts :
          receipts ((entry, outcome) :: rest) = (ticket, outcome) :: receipts rest := by
        rw [receipts, List.filterMap_cons_some (by rw [hticket]; rfl), receipts]
      rw [hreceipts, List.append_cons]
      rfl
    have hresolve : engine.resolve ((entry, outcome) :: rest) = settled.resolve rest := by
      rw [resolve, List.foldl_cons, hsettled, resolve]
    rw [hresolve, ih (hids.sublist (List.filter_sublist.map _)) hnodup hsettledRest, hpending,
      houtcomes]
    rfl

variable {start : Desk} {engine : Engine σ} {answers answers' : List (Pending × Outcome)}

omit [Link σ] in
/-- Answers to different requests are for different tickets. -/
theorem Sound.pairwise_receipts (h : engine.Sound start) (hnodup : (answers.map Prod.fst).Nodup)
    (hanswers : ∀ answer ∈ answers, answer.1 ∈ engine.pending) :
    (receipts answers).Pairwise fun receipt other => receipt.1 ≠ other.1 := by
  refine List.pairwise_filterMap.mpr ?_
  refine (List.pairwise_map.mp hnodup).imp_of_mem fun {answer other} hanswer hother hne => ?_
  intro receipt hreceipt second hsecond hsame
  refine hne (h.eq_of_client_eq (hanswers _ hother) (hanswers _ hanswer) ?_)
  rw [Responder.eq_ticket_of_receipt? hreceipt, Responder.eq_ticket_of_receipt? hsecond, hsame]

/-- What lies under a ticket does not depend on the order of receipts for different tickets. -/
theorem answers_eq_of_perm {receipts receipts' : List (Ticket × Outcome)}
    (hperm : receipts.Perm receipts')
    (hpairwise : receipts.Pairwise fun receipt other => receipt.1 ≠ other.1) (ticket : Ticket) :
    ({ outcomes := receipts' } : Desk).answers ticket =
      ({ outcomes := receipts } : Desk).answers ticket := by
  have hfilter := hperm.filter fun receipt => receipt.1 = ticket
  have hpairwise := hpairwise.filter fun receipt => receipt.1 = ticket
  rw [Desk.answers, Desk.answers]
  cases hfound : receipts.filter fun receipt => receipt.1 = ticket with
  | nil =>
    rw [hfound] at hfilter
    rw [hfilter.nil_eq]
  | cons receipt rest =>
    cases rest with
    | nil =>
      rw [hfound] at hfilter
      rw [List.singleton_perm.mp hfilter]
    | cons other rest =>
      -- both would be for the ticket
      have hticket : ∀ receipt' ∈ receipt :: other :: rest, receipt'.1 = ticket := by
        intro receipt' hmem
        rw [← hfound] at hmem
        simpa using (List.mem_filter.mp hmem).2
      rw [hfound] at hpairwise
      refine absurd ?_ ((List.pairwise_cons.mp hpairwise).1 other List.mem_cons_self)
      rw [hticket receipt (by simp), hticket other (by simp)]

/-- Answers to different requests of ticket holders can come in any order: the engine can do the
same from then on, and leaves the same. -/
theorem Sound.run?_resolve_of_perm (h : engine.Sound start) (hperm : answers.Perm answers')
    (hnodup : (answers.map Prod.fst).Nodup)
    (hanswers : ∀ answer ∈ answers, answer.1 ∈ engine.pending ∧
      ∃ ticket, answer.1.responder = .ticket ticket) {events : List Event} {later : Engine σ}
    (hrun : (engine.resolve answers).run? events = some later) :
    ∃ later', (engine.resolve answers').run? events = some later' ∧
      (∀ ticket, later'.desk.answers ticket = later.desk.answers ticket) ∧
      later' = { later with desk := { later.desk with outcomes := later'.desk.outcomes } } := by
  let rest : Engine σ :=
    { engine with
      pending := engine.pending.filter fun entry => entry ∉ answers.map Prod.fst
      desk := { engine.desk with outcomes := [] } }
  have hresolve : engine.resolve answers =
      rest.preceded (engine.desk.outcomes ++ receipts answers) := by
    rw [resolve_eq h.ids hnodup hanswers]
    simp [preceded, rest]
  have hresolve' : engine.resolve answers' =
      rest.preceded (engine.desk.outcomes ++ receipts answers') := by
    rw [resolve_eq h.ids ((hperm.map Prod.fst).nodup_iff.mp hnodup) fun answer hanswer =>
      hanswers answer (hperm.mem_iff.mpr hanswer)]
    have hmem : ∀ entry, entry ∈ answers'.map Prod.fst ↔ entry ∈ answers.map Prod.fst :=
      fun entry => (hperm.map Prod.fst).mem_iff.symm
    simp only [preceded, rest, hmem, List.append_nil]
  rw [hresolve, run?_preceded] at hrun
  obtain ⟨common, hcommon, rfl⟩ := Option.map_eq_some_iff.mp hrun
  refine ⟨common.preceded (engine.desk.outcomes ++ receipts answers'), ?_, fun ticket => ?_, rfl⟩
  · rw [hresolve', run?_preceded, hcommon]
    rfl
  · have hreceipts : (receipts answers).Perm (receipts answers') := hperm.filterMap _
    have hpairwise := h.pairwise_receipts hnodup fun answer hanswer => (hanswers answer hanswer).1
    rw [answers_preceded, answers_preceded, Desk.answers_append, Desk.answers_append,
      answers_eq_of_perm hreceipts hpairwise ticket]

/-! ### Completions that name no request -/

/-- A completion that names no request is ignored, and taken from the link. -/
theorem listen_eq_of_stray {source : Mac} {id : InvokeId} {outcome : Outcome} {link : σ}
    (hstray : ∀ entry ∈ engine.pending, entry.id = id → entry.destination ≠ source)
    (hreceive : Link.receive engine.link = (.heard (.completion source id outcome), link)) :
    engine.listen = .ok { engine with link := link } := by
  let heard : Engine σ := { engine with link := link }
  have hignored : heard.completion source id outcome = heard := by
    refine completion_eq_self (fun entry hfound => ?_) outcome
    obtain ⟨hentry, hid⟩ := Worker.mem_of_pending? hfound
    exact hstray entry hentry hid
  rw [listen, hreceive]
  exact congrArg Except.ok hignored

/-- **Completions reach the requests that they name.**  At every point of a run of an engine,
whatever its link, its callers and the stations do, the following holds.

A request that waits gets the first outcome that the run has for it, and waits as long as there is
none: the holder of a ticket finds the outcome under the ticket, a walk goes on with it.  If the
engine does not end the request itself, that is the outcome of the first completion heard that names
the id of the request and comes from the station it was sent to.

A request waits for the station and under the id that it was sent to and with.  No step leaves an
outcome for a ticket or makes something happen to a walk but for a request that waits and that the
step has an outcome for, or for one that fails at once; besides, callers stop waiting.

A completion that names no request changes nothing.

Completions that answer different requests of ticket holders can come in any order: whatever happens
then can happen after either, and leaves every caller the same. -/
theorem completion_reaches_named (shared : Shared σ) (hdesk : shared.desk.Sound)
    (identity : LocalDevice) (timing : Timing) {engine : Engine σ}
    (hreaches : (launch shared identity timing).Reaches engine) :
    (∀ entry ∈ engine.pending, ∀ events later, engine.run? events = some later →
      (engine.fate? entry events = none → entry ∈ later.pending) ∧
      (∀ outcome, engine.fate? entry events = some outcome →
        ∃ earlier event rest middle after, events = earlier ++ event :: rest ∧
          engine.run? earlier = some middle ∧ entry ∈ middle.pending ∧
          middle.verdict? entry event = some outcome ∧ middle.next? event = some after ∧
          after.run? rest = some later ∧
          ∀ walk, entry.responder = .walk walk → ∀ course, middle.Lives walk.report course →
            after.Lives walk.report (course.after (middle.settles entry walk outcome event))) ∧
      (∀ ticket, entry.responder = .ticket ticket →
        later.desk.answers ticket = (engine.fate? entry events).toList) ∧
      ((∀ event ∈ events, event ≠ .giveUp entry ∧ event ≠ .cancel entry) →
        engine.fate? entry events = (engine.heard events).findSome? entry.answer?)) ∧
    (∀ event after, Step engine event after →
      (∀ entry ∈ after.pending, entry ∈ engine.pending ∨ ∃ link request,
        Link.sendConfirmed entry.destination entry.id request link = (.ok (), after.link)) ∧
      (∀ ticket, after.desk.answers ticket = engine.desk.answers ticket ∨
        ∃ outcome, engine.Yields ticket event outcome ∧
          after.desk.answers ticket = engine.desk.answers ticket ++ [outcome]) ∧
      ∀ report < engine.desk.reports.length, ∀ course, engine.Lives report course →
        ∃ happened, engine.Happens report event happened ∧
          after.Lives report (course.after happened)) ∧
    (∀ source id outcome,
      (∀ entry ∈ engine.pending, entry.id = id → entry.destination ≠ source) →
        engine.completion source id outcome = engine ∧
        ∀ link, Link.receive engine.link = (.heard (.completion source id outcome), link) →
          engine.listen = .ok { engine with link := link }) ∧
    ∀ answers answers' : List (Pending × Outcome), answers.Perm answers' →
      (answers.map Prod.fst).Nodup →
      (∀ answer ∈ answers, answer.1 ∈ engine.pending ∧
        ∃ ticket, answer.1.responder = .ticket ticket) →
      ∀ events later, (engine.resolve answers).run? events = some later →
        ∃ later', (engine.resolve answers').run? events = some later' ∧
          (∀ ticket, later'.desk.answers ticket = later.desk.answers ticket) ∧
          later' = { later with desk := { later.desk with outcomes := later'.desk.outcomes } } := by
  have hsound := (Sound.of_launch shared hdesk identity timing).of_reaches hreaches
  refine ⟨fun entry hentry events later hrun => ⟨?_, fun outcome hfate => ?_, ?_, ?_⟩,
    fun event after hstep => ⟨fun entry => hsound.sent_of_mem_pending hstep,
      hsound.answers_of_step hstep, ?_⟩,
    fun source id outcome hstray => ⟨?_, ?_⟩, ?_⟩
  · exact mem_pending_of_fate?_eq_none hsound hentry hrun
  · obtain ⟨earlier, event, rest, middle, after, hevents, hmiddle, hnone, hverdict, hnext, hrest⟩ :=
      exists_of_fate?_eq_some hrun hfate
    have hmem := mem_pending_of_fate?_eq_none hsound hentry hmiddle hnone
    refine ⟨earlier, event, rest, middle, after, hevents, hmiddle, hmem, hverdict, hnext, hrest,
      fun walk hwalk course hlives => ?_⟩
    exact hlives.of_verdict? (hsound.of_reaches (reaches_of_run? hmiddle))
      (step_iff_next?_eq_some.mpr hnext) hmem hwalk rfl hverdict
  · exact fun ticket hticket => answers_of_run? hsound hentry hticket hrun
  · exact fate?_eq_findSome?_heard
  · exact fun report hreport course hlives => hlives.step hsound hreport hstep
  · refine completion_eq_self (fun entry hfound => ?_) outcome
    obtain ⟨hentry, hid⟩ := Worker.mem_of_pending? hfound
    exact hstray entry hentry hid
  · exact fun link hreceive => listen_eq_of_stray hstray hreceive
  · exact fun answers answers' hperm hnodup hanswers events later hrun =>
      hsound.run?_resolve_of_perm hperm hnodup hanswers hrun

/-- A request is answered by the station that it was sent to, whatever is heard before. -/
theorem completion_reaches_named_after_stray :
    let entry : Pending := ⟨0, 5, 0, .ticket 0⟩
    let shared : Shared Simulation.Segment :=
      ⟨{ inbox := [.completion 6 0 (.failure .timeout), .completion 5 0 (.ack .simple)] }, 0,
        .empty, {}⟩
    let engine := launch shared ⟨⟨.device, 599⟩, "", 1024, .none, 15⟩ {}
    let asked := engine.perform (.ask 5 (.read ⟨⟨.device, 8⟩, .objectList, some 0⟩))
    let sent := { asked with commands := [] }.handle
      (.request 5 (.read ⟨⟨.device, 8⟩, .objectList, some 0⟩) (.ticket 0))
    engine.desk.Sound ∧ engine.Reaches sent ∧ entry ∈ sent.pending ∧
      ∃ later, sent.run? [.listen, .listen] = some later ∧
        later.desk.answers 0 = [.ack .simple] := by
  intro entry shared engine asked sent
  have hdesk : engine.desk.Sound := Desk.sound_empty
  have hreaches : engine.Reaches sent :=
    .tail (.single ⟨_, .act engine _⟩) ⟨_, .obey rfl (by decide)⟩
  have hentry : entry ∈ sent.pending := by decide
  have hfate : sent.fate? entry [.listen, .listen] = some (.ack .simple) := rfl
  obtain ⟨later, hrun⟩ : ∃ later, sent.run? [.listen, .listen] = some later := ⟨_, rfl⟩
  have hreached := completion_reaches_named shared hdesk _ _ hreaches
  have hanswers := (hreached.1 entry hentry _ later hrun).2.2.1 0 rfl
  rw [hfate] at hanswers
  exact ⟨hdesk, hreaches, hentry, later, hrun, hanswers⟩

end Engine

end Fieldbus
