import Fieldbus.Proofs.Engine.Accounting

/-!
# How requests fare

A request that is started fails at once, for want of an id or because the link refuses it, or waits
under an id.  A request that waits is settled by the first completion that names its id and comes
from the station it was sent to, unless it is given up or cancelled before.  Nothing else has an
outcome for it.

## Main definitions

* `Engine.refusal?`: why a request that is started fails at once.
* `Engine.verdict?`: the outcome that a step has for a request that waits.

## Main results

* `Engine.start_of_refusal?`: a request that is started fails as its refusal says, or waits.
* `Engine.Step.cases_of_verdict?`: a step hands the outcome that it has for a request to the
  responder of the request.
* `Engine.Step.obeys_or_settles`: a step that deals with a client carries out its command, or has an
  outcome for its request.
* `Engine.Sound.mem_pending_of_verdict?`: a request for which a step has no outcome still waits.
-/

namespace Fieldbus

/-- The outcome that an indication has for a request: a completion that names the id of the request
and comes from the station that it was sent to. -/
def Pending.answer? (entry : Pending) : Indication → Option Outcome
  | .completion source id outcome =>
    if entry.id = id ∧ entry.destination = source then some outcome else none
  | .iAm _ _ => none

theorem Pending.answer?_eq_some_iff {entry : Pending} {indication : Indication}
    {outcome : Outcome} :
    entry.answer? indication = some outcome ↔
      indication = .completion entry.destination entry.id outcome := by
  cases indication with
  | iAm source announcement => simp [answer?]
  | completion source id found =>
    simp only [answer?, Option.ite_none_right_eq_some, Option.some.injEq,
      Indication.completion.injEq]
    tauto

theorem Worker.pending?_eq_some {worker : Worker} (hids : (worker.pending.map Pending.id).Nodup)
    {entry : Pending} (hentry : entry ∈ worker.pending) :
    worker.pending? entry.id = some entry := by
  cases hfound : worker.pending? entry.id with
  | none =>
    have hother := List.find?_eq_none.mp hfound entry hentry
    simp at hother
  | some other =>
    obtain ⟨hother, hid⟩ := Worker.mem_of_pending? hfound
    rw [List.inj_on_of_nodup_map hids hother hentry hid]

namespace Engine

variable {σ : Type} [Link σ]

/-- Why a request that is started fails at once, if it does: there is no free id, or the link does
not carry it. -/
def refusal? (engine : Engine σ) (destination : Mac) (request : ConfirmedRequest) :
    Option Failure :=
  match engine.takeId? with
  | none => some (.link noFreeId)
  | some (id, _) =>
    match (Link.sendConfirmed destination id request engine.link).1 with
    | .error error => some (.link error.message)
    | .ok _ => none

/-- The outcome that a step has for a request that waits: that of a completion that answers it, that
its time is up, or that the engine stops. -/
def verdict? (engine : Engine σ) (entry : Pending) : Event → Option Outcome
  | .listen =>
    match (Link.receive engine.link).1 with
    | .heard indication => entry.answer? indication
    | _ => none
  | .giveUp other => if other = entry then some (.failure .timeout) else none
  | .cancel other => if other = entry then some (.failure .stopped) else none
  | .act _ | .obey => none

/-! ### Starting a request -/

/-- A request that is started fails as its refusal says, or is sent with a free id and waits under
it. -/
theorem start_of_refusal? (engine : Engine σ) (destination : Mac) (request : ConfirmedRequest)
    (responder : Responder) :
    (∃ cause cursor link, engine.refusal? destination request = some cause ∧
      engine.start destination request responder =
        Engine.fail { engine with cursor := cursor, link := link } responder cause) ∨
      ∃ id cursor link, engine.refusal? destination request = none ∧
        engine.isBusy id = false ∧
        Link.sendConfirmed destination id request engine.link = (.ok (), link) ∧
        engine.start destination request responder =
          { engine with
            cursor := cursor
            link := link
            pending := engine.pending ++ [⟨id, destination, engine.clock, responder⟩] } := by
  rw [start, refusal?]
  cases htake : engine.takeId? with
  | none => exact .inl ⟨_, engine.cursor, engine.link, rfl, rfl⟩
  | some taken =>
    obtain ⟨id, worker⟩ := taken
    have hfree := Worker.isBusy_of_takeId? htake
    have hworker := Worker.eq_of_takeId? htake
    subst hworker
    simp only
    cases hsend : Link.sendConfirmed destination id request engine.link with
    | mk result link =>
      cases result with
      | error error => exact .inl ⟨_, id + 1, link, rfl, rfl⟩
      | ok => exact .inr ⟨id, id + 1, link, rfl, hfree, hsend, rfl⟩

theorem refusal?_withCommands (engine : Engine σ) (commands : List Command) (destination : Mac)
    (request : ConfirmedRequest) :
    refusal? { engine with commands := commands } destination request =
      engine.refusal? destination request := by
  rw [refusal?, refusal?, Worker.takeId?, Worker.takeId?]
  cases hfree : firstFree engine.isBusy invokeIds engine.cursor with
  | none =>
    have hnone : firstFree (Worker.isBusy { engine.toWorker with commands := commands })
        invokeIds engine.cursor = none := hfree
    simp only [hnone, Option.map_none]
  | some id =>
    have hsome : firstFree (Worker.isBusy { engine.toWorker with commands := commands })
        invokeIds engine.cursor = some id := hfree
    simp only [hsome, Option.map_some]

/-! ### Settling a request -/

/-- The engine that is about to hand over the outcome that a step has for a request: the request
waits no more, and what was heard is taken from the link. -/
def settling (engine : Engine σ) (entry : Pending) : Event → Engine σ
  | .listen => { engine.release entry.id with link := (Link.receive engine.link).2 }
  | _ => engine.release entry.id

variable {before after : Engine σ} {event : Event} {entry other : Pending} {client : Client}

theorem takes_settling (hentry : entry ∈ before.pending) (event : Event) :
    before.Takes entry.destination entry.responder.client (before.settling entry event) := by
  cases event <;> exact ⟨rfl, .inr ⟨entry, hentry, rfl, rfl, rfl, rfl⟩⟩

/-- A completion that answers a request hands its outcome to the responder of the request. -/
theorem completion_eq_complete (engine : Engine σ) (hids : (engine.pending.map Pending.id).Nodup)
    (hentry : entry ∈ engine.pending) (outcome : Outcome) :
    engine.completion entry.destination entry.id outcome =
      (engine.release entry.id).complete entry.responder outcome := by
  rw [completion, Worker.pending?_eq_some hids hentry]
  exact if_pos rfl

/-- What a step does that has an outcome for a request: the responder of the request gets it. -/
theorem Step.cases_of_verdict? {outcome : Outcome} (hids : (before.pending.map Pending.id).Nodup)
    (hentry : entry ∈ before.pending) (hstep : Step before event after)
    (hverdict : before.verdict? entry event = some outcome) :
    (event ≠ .cancel entry ∧
      after = (before.settling entry event).complete entry.responder outcome) ∨
    (event = .cancel entry ∧ outcome = .failure .stopped ∧
      after = (before.settling entry event).cancel entry) := by
  cases hstep with
  | act action => cases hverdict
  | obey hqueue hcommand => cases hverdict
  | listen hlisten =>
    refine .inl ⟨by rintro ⟨⟩, ?_⟩
    rcases listen_cases hlisten with ⟨link, hreceive, rfl⟩ | ⟨error, link, hreceive, rfl⟩ |
      ⟨indication, link, hreceive, rfl⟩
    · simp [verdict?, hreceive] at hverdict
    · simp [verdict?, hreceive] at hverdict
    · simp only [verdict?, hreceive] at hverdict
      obtain rfl := Pending.answer?_eq_some_iff.mp hverdict
      let heard : Engine σ := { before with link := link }
      rw [settling, hreceive]
      exact heard.completion_eq_complete hids hentry outcome
  | giveUp =>
    obtain ⟨rfl, houtcome⟩ := Option.ite_none_right_eq_some.mp hverdict
    obtain rfl := Option.some.inj houtcome
    exact .inl ⟨by rintro ⟨⟩, rfl⟩
  | cancel =>
    obtain ⟨rfl, houtcome⟩ := Option.ite_none_right_eq_some.mp hverdict
    exact .inr ⟨rfl, (Option.some.inj houtcome).symm, rfl⟩

/-- A step that deals with a client carries out its command, or has an outcome for its request. -/
theorem Step.obeys_or_settles (hstep : Step before event after)
    (haddressee : before.addressee? event = some client) :
    (∃ destination request responder rest, event = .obey ∧ responder.client = client ∧
      before.commands = .request destination request responder :: rest ∧
      after = Engine.start { before with commands := rest } destination request responder) ∨
    ∃ entry outcome, entry ∈ before.pending ∧ entry.responder.client = client ∧
      before.verdict? entry event = some outcome := by
  cases hstep with
  | act action => cases haddressee
  | @obey command rest hqueue hcommand =>
    have hclient : command.client? = some client := by
      simpa [addressee?, hqueue] using haddressee
    cases command with
    | request destination request responder =>
      exact .inl ⟨destination, request, responder, rest, rfl, Option.some.inj hclient, hqueue, rfl⟩
    | _ => cases hclient
  | listen hlisten =>
    right
    rw [addressee?] at haddressee
    split at haddressee
    · rename_i source id outcome hreceive
      obtain ⟨entry, hfound, hmatch⟩ := Option.bind_eq_some_iff.mp haddressee
      obtain ⟨hentry, rfl⟩ := Worker.mem_of_pending? hfound
      obtain ⟨rfl, hclient⟩ := Option.ite_none_right_eq_some.mp hmatch
      refine ⟨entry, outcome, hentry, Option.some.inj hclient, ?_⟩
      rw [verdict?, hreceive]
      exact Pending.answer?_eq_some_iff.mpr rfl
    · cases haddressee
  | @giveUp entry hentry hoverdue =>
    exact .inr ⟨entry, _, hentry, Option.some.inj haddressee, if_pos rfl⟩
  | @cancel entry hentry =>
    exact .inr ⟨entry, _, hentry, Option.some.inj haddressee, if_pos rfl⟩

namespace Sound

variable {start : Desk}

omit [Link σ] in
theorem eq_of_client_eq (h : before.Sound start) (hentry : entry ∈ before.pending)
    (hother : other ∈ before.pending) (hclient : other.responder.client = entry.responder.client) :
    other = entry := by
  have hmem : entry ∈ before.waiting entry.responder.client :=
    Worker.mem_waiting.mpr ⟨hentry, rfl⟩
  have hmem' : other ∈ before.waiting entry.responder.client :=
    Worker.mem_waiting.mpr ⟨hother, hclient⟩
  obtain ⟨hknows, hnew⟩ := h.current _ (.inr (List.ne_nil_of_mem hmem))
  have honce := h.once _ hknows hnew
  have hpos := List.length_pos_of_mem hmem
  obtain ⟨only, hwaiting⟩ := List.length_eq_one_iff.mp
    (show (before.waiting entry.responder.client).length = 1 by omega)
  rw [hwaiting, List.mem_singleton] at hmem hmem'
  rw [hmem', hmem]

/-- A request that a step has no outcome for still waits. -/
theorem mem_pending_of_verdict? (h : before.Sound start) (hentry : entry ∈ before.pending)
    (hstep : Step before event after) (hverdict : before.verdict? entry event = none) :
    entry ∈ after.pending := by
  refine (h.mem_pending_of_step hstep hentry).resolve_right fun haddressee => ?_
  rcases hstep.obeys_or_settles haddressee with
    ⟨destination, request, responder, rest, -, hclient, hqueue, -⟩ |
    ⟨other, outcome, hother, hclient, hsome⟩
  · -- the client would have a command that waits as well
    have htakes : before.Takes destination entry.responder.client
        { before with commands := rest } :=
      ⟨rfl, .inl ⟨request, responder, hclient, hqueue, rfl⟩⟩
    have hnone := (h.of_takes htakes).2.2.2.2
    exact List.ne_nil_of_mem (Worker.mem_waiting.mpr ⟨hentry, rfl⟩) hnone
  · obtain rfl := h.eq_of_client_eq hentry hother hclient
    rw [hverdict] at hsome
    cases hsome

end Sound

/-! ### Steps that deal with nobody -/

/-- A completion that names no request that waits for its source is ignored. -/
theorem completion_eq_self {engine : Engine σ} {source : Mac} {id : InvokeId}
    (h : ∀ entry, engine.pending? id = some entry → entry.destination ≠ source)
    (outcome : Outcome) : engine.completion source id outcome = engine := by
  rw [completion]
  split
  · rfl
  · rename_i entry hfound
    exact if_neg (h entry hfound)

/-- A step of the engine itself that deals with nobody touches no outcomes and no reports. -/
theorem Step.desk_of_addressee?_eq_none (hstep : Step before event after)
    (hevent : ∀ action, event ≠ .act action) (haddressee : before.addressee? event = none) :
    ∃ windows, after.desk = { before.desk with windows := windows } := by
  cases hstep with
  | act action => exact absurd rfl (hevent action)
  | @obey command rest hqueue hcommand =>
    have hclient : command.client? = none := by simpa [addressee?, hqueue] using haddressee
    cases command with
    | request destination request responder => cases hclient
    | _ => exact ⟨before.desk.windows, rfl⟩
  | listen hlisten =>
    rcases listen_cases hlisten with ⟨link, hreceive, rfl⟩ | ⟨error, link, hreceive, rfl⟩ |
      ⟨indication, link, hreceive, rfl⟩
    · exact ⟨before.desk.windows, rfl⟩
    · exact ⟨before.desk.windows, rfl⟩
    · cases indication with
      | iAm source announcement =>
        rw [indicate, hear]
        split
        · exact deliver_eq before.desk _ _
        · exact ⟨before.desk.windows, rfl⟩
      | completion source id outcome =>
        let heard : Engine σ := { before with link := link }
        have hignored : heard.indicate (.completion source id outcome) = heard := by
          refine completion_eq_self (fun entry hfound hsource => ?_) outcome
          have hfound : before.pending? id = some entry := hfound
          simp [addressee?, hreceive, hfound, hsource] at haddressee
        have hdesk : (heard.indicate (.completion source id outcome)).desk = before.desk := by
          rw [hignored]
        exact ⟨before.desk.windows, hdesk⟩
  | giveUp => cases haddressee
  | cancel => cases haddressee

/-- A step that does not deal with a walk leaves its report alone, unless the caller stops
waiting. -/
theorem Sound.report_eq_of_ne {start : Desk} (h : before.Sound start)
    (hstep : Step before event after) {report : WalkId} (hknows : before.desk.Knows (.report report))
    (haddressee : before.addressee? event ≠ some (.report report))
    (hevent : event ≠ .act (.abandon report)) :
    after.desk.report report = before.desk.report report := by
  cases hclient : before.addressee? event with
  | some client =>
    obtain ⟨destination, middle, htakes, hserves⟩ := h.deals hstep hclient
    have hne : client ≠ .report report := fun heq => haddressee (heq ▸ hclient)
    rw [hserves.touches.report_of_ne report hne, htakes.desk]
  | none =>
    cases event with
    | act action =>
      cases hstep
      cases action with
      | enumerate destination device =>
        exact (before.opens_enumerate destination device).report report hknows
      | abandon other =>
        have hother : report ≠ other := fun heq => hevent (heq ▸ rfl)
        exact Desk.report_mapReport_of_ne hother before.desk _
      | _ => rfl
    | _ =>
      obtain ⟨windows, hdesk⟩ := hstep.desk_of_addressee?_eq_none (by rintro action ⟨⟩) hclient
      rw [hdesk, Desk.report, Desk.report]

end Engine

end Fieldbus
