import Fieldbus.Proofs.Engine.Lifetime

/-!
# The fate of requests

A request that waits is settled by the first step of a run that has an outcome for it.  Unless its
time is up or the engine stops before, that is the first completion heard that names the id of the
request and comes from the station it was sent to.

## Main definitions

* `Engine.run?`: the engine that some events lead to.
* `Engine.fate?`: the outcome that a run has for a request that waits.
* `Engine.heard`: all that a run hears.
* `Engine.Yields`: where an outcome for the holder of a ticket comes from.

## Main results

* `Engine.fate?_eq_findSome?_heard`: the fate of a request is the first answer heard to it.
* `Engine.answers_of_run?`: the holder of a ticket gets the fate of the request.
* `Engine.Sound.answers_of_step`: no outcome for the holder of a ticket comes from anywhere else.
-/

namespace Fieldbus

theorem Responder.eq_ticket_of_client_eq {responder : Responder} {number : Ticket}
    (h : responder.client = .ticket number) : responder = .ticket number := by
  cases responder with
  | ticket other => exact congrArg Responder.ticket (Client.ticket.inj h)
  | walk walk => cases h

namespace Engine

variable {σ : Type} [Link σ]

/-- The engine that some events lead to, if they can all happen. -/
def run? (engine : Engine σ) (events : List Event) : Option (Engine σ) := events.foldlM next? engine

/-- The outcome that a run has for a request that waits: that of the first step that has one. -/
def fate? (engine : Engine σ) (entry : Pending) : List Event → Option Outcome
  | [] => none
  | event :: rest =>
    match engine.verdict? entry event with
    | some outcome => some outcome
    | none => (engine.next? event).bind fun after => after.fate? entry rest

/-- What a step hears. -/
def heard? (engine : Engine σ) : Event → Option Indication
  | .listen =>
    match (Link.receive engine.link).1 with
    | .heard indication => some indication
    | _ => none
  | _ => none

/-- All that a run hears, the oldest first. -/
def heard (engine : Engine σ) : List Event → List Indication
  | [] => []
  | event :: rest =>
    (engine.heard? event).toList ++
      match engine.next? event with
      | some after => after.heard rest
      | none => []

/-- Where an outcome for the holder of a ticket comes from. -/
inductive Yields (before : Engine σ) (ticket : Ticket) : Event → Outcome → Prop
  /-- The request fails at once. -/
  | refused {destination : Mac} {request : ConfirmedRequest} {rest : List Command} {cause : Failure}
      (hcommands : before.commands = .request destination request (.ticket ticket) :: rest)
      (hrefusal : before.refusal? destination request = some cause) :
      Yields before ticket .obey (.failure cause)
  /-- A step has an outcome for the request that waits. -/
  | settled {event : Event} {entry : Pending} {outcome : Outcome}
      (hentry : entry ∈ before.pending) (hticket : entry.responder = .ticket ticket)
      (hverdict : before.verdict? entry event = some outcome) :
      Yields before ticket event outcome

variable {engine before after later : Engine σ} {event : Event} {events rest : List Event}
  {entry : Pending} {outcome : Outcome} {start : Desk} {ticket : Ticket}

/-! ### Runs -/

theorem run?_cons_eq_some_iff :
    engine.run? (event :: rest) = some later ↔
      ∃ after, engine.next? event = some after ∧ after.run? rest = some later :=
  Option.bind_eq_some_iff

theorem reaches_of_run? (h : engine.run? events = some later) : engine.Reaches later := by
  induction events generalizing engine with
  | nil => exact Option.some.inj h ▸ .refl
  | cons event rest ih =>
    obtain ⟨after, hnext, hrest⟩ := run?_cons_eq_some_iff.mp h
    exact .head ⟨event, step_iff_next?_eq_some.mpr hnext⟩ (ih hrest)

/-- A request is settled in the first step of a run that has an outcome for it. -/
theorem exists_of_fate?_eq_some (hrun : engine.run? events = some later)
    (hfate : engine.fate? entry events = some outcome) :
    ∃ earlier event rest middle after, events = earlier ++ event :: rest ∧
      engine.run? earlier = some middle ∧ engine.fate? entry earlier = none ∧
      middle.verdict? entry event = some outcome ∧ middle.next? event = some after ∧
      after.run? rest = some later := by
  induction events generalizing engine with
  | nil => cases hfate
  | cons event rest ih =>
    obtain ⟨after, hnext, hrest⟩ := run?_cons_eq_some_iff.mp hrun
    cases hverdict : engine.verdict? entry event with
    | some found =>
      rw [fate?, hverdict] at hfate
      exact ⟨[], event, rest, engine, after, rfl, rfl, rfl, hverdict.trans hfate, hnext, hrest⟩
    | none =>
      rw [fate?, hverdict, hnext] at hfate
      obtain ⟨earlier, found, others, middle, settled, rfl, hmiddle, hnone, hfound⟩ :=
        ih hrest hfate
      refine ⟨event :: earlier, found, others, middle, settled, rfl,
        run?_cons_eq_some_iff.mpr ⟨after, hnext, hmiddle⟩, ?_, hfound⟩
      rw [fate?, hverdict, hnext]
      exact hnone

/-- A request that a run has no outcome for waits at its end. -/
theorem mem_pending_of_fate?_eq_none (h : engine.Sound start) (hentry : entry ∈ engine.pending)
    (hrun : engine.run? events = some later) (hfate : engine.fate? entry events = none) :
    entry ∈ later.pending := by
  induction events generalizing engine with
  | nil => exact Option.some.inj hrun ▸ hentry
  | cons event rest ih =>
    obtain ⟨after, hnext, hrest⟩ := run?_cons_eq_some_iff.mp hrun
    have hstep := step_iff_next?_eq_some.mpr hnext
    cases hverdict : engine.verdict? entry event with
    | some found =>
      rw [fate?, hverdict] at hfate
      cases hfate
    | none =>
      rw [fate?, hverdict, hnext] at hfate
      exact ih (h.step hstep) (h.mem_pending_of_verdict? hentry hstep hverdict) hrest hfate

/-! ### What is heard -/

/-- The outcome that a step has for a request is an answer that is heard, unless the engine itself
ends the request. -/
theorem verdict?_eq_bind_heard? (hgiveUp : event ≠ .giveUp entry) (hcancel : event ≠ .cancel entry) :
    engine.verdict? entry event = (engine.heard? event).bind entry.answer? := by
  cases event with
  | act action => rfl
  | obey => rfl
  | listen =>
    rw [verdict?, heard?]
    cases (Link.receive engine.link).1 <;> rfl
  | giveUp other => exact if_neg fun heq => hgiveUp (congrArg Event.giveUp heq)
  | cancel other => exact if_neg fun heq => hcancel (congrArg Event.cancel heq)

/-- The fate of a request is the first answer to it that is heard, unless the engine itself ends
it. -/
theorem fate?_eq_findSome?_heard
    (hothers : ∀ event ∈ events, event ≠ .giveUp entry ∧ event ≠ .cancel entry) :
    engine.fate? entry events = (engine.heard events).findSome? entry.answer? := by
  induction events generalizing engine with
  | nil => rfl
  | cons event rest ih =>
    obtain ⟨⟨hgiveUp, hcancel⟩, hrest⟩ := List.forall_mem_cons.mp hothers
    have hverdict : engine.verdict? entry event = (engine.heard? event).bind entry.answer? :=
      verdict?_eq_bind_heard? hgiveUp hcancel
    have hfirst : (engine.heard? event).toList.findSome? entry.answer? =
        engine.verdict? entry event := by
      rw [hverdict]
      cases engine.heard? event with
      | none => rfl
      | some indication => exact List.findSome?_singleton
    rw [fate?, heard, List.findSome?_append, hfirst]
    cases engine.verdict? entry event with
    | some outcome => rfl
    | none =>
      rw [Option.none_or]
      cases engine.next? event with
      | none => rfl
      | some after => exact ih hrest

/-! ### Where requests come from -/

/-- A request that waits once one is started did so before, or is the one that was sent. -/
theorem sent_of_mem_pending_start {destination : Mac} {request : ConfirmedRequest}
    {responder : Responder} (h : entry ∈ (engine.start destination request responder).pending) :
    entry ∈ engine.pending ∨
      Link.sendConfirmed entry.destination entry.id request engine.link =
        (.ok (), (engine.start destination request responder).link) := by
  rcases engine.start_of_refusal? destination request responder with
    ⟨cause, cursor, link, -, heq⟩ | ⟨id, cursor, link, -, -, hsend, heq⟩
  · rw [heq] at h
    left
    cases responder <;> exact h
  · rw [heq] at h ⊢
    rcases List.mem_append.mp h with hold | hnew
    · exact .inl hold
    · rw [List.mem_singleton.mp hnew]
      exact .inr hsend

/-- A request that waits once an outcome is handed over did so before, or is the next read of a
walk, which was sent. -/
theorem sent_of_mem_pending_complete {responder : Responder}
    (h : entry ∈ (engine.complete responder outcome).pending) :
    entry ∈ engine.pending ∨ ∃ request,
      Link.sendConfirmed entry.destination entry.id request engine.link =
        (.ok (), (engine.complete responder outcome).link) := by
  cases responder with
  | ticket ticket => exact .inl h
  | walk walk =>
    simp only [complete] at h ⊢
    split at h
    · exact .inl h
    · exact (sent_of_mem_pending_start h).imp_right fun hsent => ⟨_, hsent⟩

/-- A request that waits after a step did so before, or was sent in the step, to its station and
with its id. -/
theorem Sound.sent_of_mem_pending (h : before.Sound start) (hstep : Step before event after)
    (hentry : entry ∈ after.pending) :
    entry ∈ before.pending ∨ ∃ link request,
      Link.sendConfirmed entry.destination entry.id request link = (.ok (), after.link) := by
  cases haddressee : before.addressee? event with
  | none =>
    left
    rcases hstep.cases_of_addressee?_eq_none h.desk haddressee with
      ⟨destination, request, responder, hopens⟩ | hkeeps
    · exact hopens.pending ▸ hentry
    · exact hkeeps.pending ▸ hentry
  | some client =>
    rcases hstep.obeys_or_settles haddressee with
      ⟨destination, request, responder, rest, -, -, -, rfl⟩ |
      ⟨other, outcome, hother, -, hverdict⟩
    · exact (sent_of_mem_pending_start hentry).imp_right fun hsent => ⟨_, _, hsent⟩
    · have hpending : (before.settling other event).pending = (before.drop other.id).pending := by
        cases event <;> rfl
      have hsettling : entry ∈ (before.settling other event).pending → entry ∈ before.pending :=
        fun hmem => (List.mem_filter.mp (hpending ▸ hmem)).1
      rcases hstep.cases_of_verdict? h.ids hother hverdict with ⟨-, rfl⟩ | ⟨-, -, rfl⟩
      · rcases sent_of_mem_pending_complete hentry with hmem | ⟨request, hsent⟩
        · exact .inl (hsettling hmem)
        · exact .inr ⟨_, request, hsent⟩
      · left
        obtain ⟨change, heq⟩ := @cancel_eq σ other
        rw [heq] at hentry
        exact hsettling hentry

/-! ### Outcomes under tickets -/

/-- The holder of a ticket gets the outcome that a step has for the request. -/
theorem answers_of_verdict? (h : before.Sound start) (hstep : Step before event after)
    (hentry : entry ∈ before.pending) (hticket : entry.responder = .ticket ticket)
    (hverdict : before.verdict? entry event = some outcome) :
    after.desk.answers ticket = before.desk.answers ticket ++ [outcome] := by
  have hdesk := (before.takes_settling hentry event).desk
  have hleave : ((before.settling entry event).desk.leave ticket outcome).answers ticket =
      before.desk.answers ticket ++ [outcome] := by
    rw [Desk.answers_leave, if_pos rfl, hdesk]
  rcases hstep.cases_of_verdict? h.ids hentry hverdict with
    ⟨-, rfl⟩ | ⟨-, rfl, rfl⟩
  · rw [hticket]
    exact hleave
  · rw [cancel, hticket]
    exact hleave

/-- An outcome for the holder of a ticket comes from a step that has it for the request that waits,
or from a request that fails at once. -/
theorem Sound.answers_of_step (h : before.Sound start) (hstep : Step before event after)
    (ticket : Ticket) :
    after.desk.answers ticket = before.desk.answers ticket ∨
      ∃ outcome, before.Yields ticket event outcome ∧
        after.desk.answers ticket = before.desk.answers ticket ++ [outcome] := by
  cases haddressee : before.addressee? event with
  | none =>
    left
    rcases hstep.cases_of_addressee?_eq_none h.desk haddressee with
      ⟨destination, request, responder, hopens⟩ | hkeeps
    · exact hopens.answers ticket
    · exact hkeeps.answers ticket
  | some client =>
    by_cases hclient : client = .ticket ticket
    · subst hclient
      rcases hstep.obeys_or_settles haddressee with
        ⟨destination, request, responder, rest, rfl, hclient, hqueue, rfl⟩ |
        ⟨entry, outcome, hentry, hclient, hverdict⟩
      · obtain rfl := Responder.eq_ticket_of_client_eq hclient
        let middle : Engine σ := { before with commands := rest }
        rcases middle.start_of_refusal? destination request (.ticket ticket) with
          ⟨cause, cursor, link, hrefusal, heq⟩ | ⟨id, cursor, link, -, -, -, heq⟩
        · rw [refusal?_withCommands] at hrefusal
          refine .inr ⟨.failure cause, .refused hqueue hrefusal, ?_⟩
          rw [heq]
          exact (Desk.answers_leave _ _ _ _).trans (by rw [if_pos rfl])
        · exact .inl (by rw [heq])
      · have hticket := Responder.eq_ticket_of_client_eq hclient
        exact .inr ⟨outcome, .settled hentry hticket hverdict,
          answers_of_verdict? h hstep hentry hticket hverdict⟩
    · obtain ⟨destination, middle, htakes, hserves⟩ := h.deals hstep haddressee
      left
      rw [hserves.touches.answers_of_ne ticket hclient, htakes.desk]

/-- An outcome that the holder of a ticket has got is the only one ever. -/
theorem Sound.answers_of_reaches (h : before.Sound start)
    (hknows : before.desk.Knows (.ticket ticket)) (hnew : ¬ start.Knows (.ticket ticket))
    (hanswers : before.desk.answers ticket = [outcome]) (hreaches : before.Reaches later) :
    later.desk.answers ticket = [outcome] := by
  induction hreaches with
  | refl => exact hanswers
  | @tail middle later hreaches hstep ih =>
    obtain ⟨event, hstep⟩ := hstep
    have hsound := h.of_reaches hreaches
    rcases hsound.answers_of_step hstep ticket with hsame | ⟨second, -, htwo⟩
    · exact hsame.trans ih
    · -- a second outcome would be one too many
      have honce := (hsound.step hstep).once (.ticket ticket)
        (hsound.knows_of_step hstep (h.knows_of_reaches hreaches hknows)) hnew
      rw [Desk.ends, htwo, ih] at honce
      simp at honce

/-- The holder of a ticket whose request waits gets the fate of the request. -/
theorem answers_of_run? (h : engine.Sound start) (hentry : entry ∈ engine.pending)
    (hticket : entry.responder = .ticket ticket) (hrun : engine.run? events = some later) :
    later.desk.answers ticket = (engine.fate? entry events).toList := by
  have hwaits : ∀ {middle : Engine σ}, middle.Sound start → entry ∈ middle.pending →
      middle.desk.Knows (.ticket ticket) ∧ ¬ start.Knows (.ticket ticket) ∧
        middle.desk.answers ticket = [] := by
    intro middle hsound hmem
    have htakes := middle.takes_settling hmem .listen
    rw [hticket] at htakes
    obtain ⟨hknows, hnew, hends, -⟩ := hsound.of_takes htakes
    exact ⟨hknows, hnew, List.length_eq_zero_iff.mp hends⟩
  cases hfate : engine.fate? entry events with
  | none =>
    exact (hwaits (h.of_reaches (reaches_of_run? hrun))
      (mem_pending_of_fate?_eq_none h hentry hrun hfate)).2.2
  | some outcome =>
    obtain ⟨earlier, event, rest, middle, after, -, hmiddle, hnone, hverdict, hnext, hrest⟩ :=
      exists_of_fate?_eq_some hrun hfate
    have hsound := h.of_reaches (reaches_of_run? hmiddle)
    have hmem := mem_pending_of_fate?_eq_none h hentry hmiddle hnone
    have hstep := step_iff_next?_eq_some.mpr hnext
    obtain ⟨hknows, hnew, hempty⟩ := hwaits hsound hmem
    have hanswers := answers_of_verdict? hsound hstep hmem hticket hverdict
    rw [hempty, List.nil_append] at hanswers
    exact (hsound.step hstep).answers_of_reaches (hsound.knows_of_step hstep hknows) hnew hanswers
      (reaches_of_run? hrest)

end Engine

end Fieldbus
