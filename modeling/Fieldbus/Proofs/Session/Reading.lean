import Fieldbus.Proofs.Engine.Fate
import Fieldbus.Proofs.Result
import Fieldbus.Proofs.Session.Enumeration
import Fieldbus.Session.Call

/-!
# What a reading says

A read hands one request to the engine of its session and waits for the outcome.  The reply is known
by the station that it comes from and the id that it names, and by nothing else: an acknowledgement
is decoded with the object and the property that it names itself, and the reading bears the names
that were asked for.  So a reading is about what was asked exactly if the station answers that.

## Main definitions

* `Engine.Directs`: the requests of a client go to one station.
* `Engine.Hears`: a run hears a reply to the request under a ticket.

## Main results

* `Engine.Sound.directs_of_reaches`: the requests of a client go on to their station.
* `Engine.exists_yields_of_run?`: where an outcome under a ticket comes from.
* `Session.reading_of_reply`: what a read yields.
* `Session.reading_of_late_reply`: a reading with the value of another object.
-/

namespace Fieldbus

theorem Desk.outcome?_eq_head?_answers (desk : Desk) (ticket : Ticket) :
    desk.outcome? ticket = (desk.answers ticket).head? := by
  rw [outcome?, answers, List.head?_map, List.head?_filter]

namespace Engine

variable {σ : Type}

/-- Every request of a client, sent or not, is for one station. -/
structure Directs (engine : Engine σ) (client : Client) (destination : Mac) : Prop where
  queued : ∀ command ∈ engine.queued client, ∃ request responder,
    command = .request destination request responder
  waiting : ∀ entry ∈ engine.waiting client, entry.destination = destination

variable [Link σ] {before after first later : Engine σ} {event : Event} {events : List Event}
  {start : Desk} {client : Client} {ticket : Ticket} {destination : Mac} {outcome : Outcome}

omit [Link σ] in
/-- What an engine takes from a client is for the station of the client. -/
theorem Directs.eq_of_takes {middle : Engine σ} {other : Mac} (h : before.Directs client destination)
    (htakes : before.Takes other client middle) : other = destination := by
  rcases htakes.taken with ⟨request, responder, hclient, hcommands, -⟩ |
    ⟨entry, hentry, hclient, rfl, -⟩
  · have hmem : .request other request responder ∈ before.queued client :=
      Worker.mem_queued.mpr ⟨hcommands ▸ List.mem_cons_self, congrArg some hclient⟩
    obtain ⟨request', responder', heq⟩ := h.queued _ hmem
    cases heq
    rfl
  · exact h.waiting entry (Worker.mem_waiting.mpr ⟨hentry, hclient⟩)

/-- A step leaves the requests of a client to their station. -/
theorem Sound.directs_of_step (h : before.Sound start) (hknows : before.desk.Knows client)
    (hdirects : before.Directs client destination) (hstep : Step before event after) :
    after.Directs client destination := by
  have hsame (hqueued : after.queued client = before.queued client)
      (hwaiting : after.waiting client = before.waiting client) :
      after.Directs client destination :=
    ⟨hqueued ▸ hdirects.queued, hwaiting ▸ hdirects.waiting⟩
  cases haddressee : before.addressee? event with
  | none =>
    rcases hstep.cases_of_addressee?_eq_none h.desk haddressee with
      ⟨other, request, responder, hopens⟩ | hkeeps
    · have hne : responder.client ≠ client := fun heq => hopens.new (heq ▸ hknows)
      refine hsame ?_ ?_
      · rw [hopens.queued, if_neg hne, List.append_nil]
      · rw [Worker.waiting, hopens.pending, Worker.waiting]
    · refine hsame (hkeeps.queued client) ?_
      rw [Worker.waiting, hkeeps.pending, Worker.waiting]
  | some served =>
    obtain ⟨other, middle, htakes, hserves⟩ := h.deals hstep haddressee
    by_cases hclient : served = client
    · subst hclient
      obtain rfl := hdirects.eq_of_takes htakes
      obtain ⟨-, -, -, hqueued, hwaiting⟩ := h.of_takes htakes
      have hempty : after.queued served = [] := by
        rw [← hqueued, Worker.queued, hserves.commands, Worker.queued]
      refine ⟨fun command hmem => ?_, fun entry hmem => ?_⟩
      · rw [hempty] at hmem
        exact absurd hmem List.not_mem_nil
      · obtain ⟨hpending, hclient⟩ := Worker.mem_waiting.mp hmem
        have hgone : entry ∉ middle.pending := fun hold =>
          List.ne_nil_of_mem (Worker.mem_waiting.mpr ⟨hold, hclient⟩) hwaiting
        rcases hserves.served with ⟨hkept, -⟩ | ⟨only, hadded, -, -, honly, -⟩
        · exact absurd (hkept ▸ hpending) hgone
        · rw [hadded] at hpending
          rcases List.mem_append.mp hpending with hold | hnew
          · exact absurd hold hgone
          · rw [List.mem_singleton.mp hnew, honly]
    · obtain ⟨hqueued, hwaiting, -⟩ := h.of_serves_of_ne htakes hserves hclient
      exact hsame hqueued hwaiting

theorem Sound.directs_of_reaches (h : before.Sound start) (hknows : before.desk.Knows client)
    (hdirects : before.Directs client destination) (hreaches : before.Reaches after) :
    after.Directs client destination := by
  induction hreaches with
  | refl => exact hdirects
  | tail hreaches hstep ih =>
    obtain ⟨event, hstep⟩ := hstep
    exact (h.of_reaches hreaches).directs_of_step (h.knows_of_reaches hreaches hknows) ih hstep

/-- An outcome that comes to lie under a ticket in a run comes from one of its steps. -/
theorem exists_yields_of_run? (h : first.Sound start) (hrun : first.run? events = some later)
    (hnone : outcome ∉ first.desk.answers ticket) (hsome : outcome ∈ later.desk.answers ticket) :
    ∃ earlier event rest middle, events = earlier ++ event :: rest ∧
      first.run? earlier = some middle ∧ middle.Yields ticket event outcome := by
  induction events generalizing first with
  | nil => exact absurd (Option.some.inj hrun ▸ hsome) hnone
  | cons event rest ih =>
    obtain ⟨after, hnext, hrest⟩ := run?_cons_eq_some_iff.mp hrun
    have hstep := step_iff_next?_eq_some.mpr hnext
    by_cases hafter : outcome ∈ after.desk.answers ticket
    · refine ⟨[], event, rest, first, rfl, rfl, ?_⟩
      rcases h.answers_of_step hstep ticket with hsame | ⟨found, hyields, hmore⟩
      · exact absurd (hsame ▸ hafter) hnone
      · rw [hmore] at hafter
        rcases List.mem_append.mp hafter with hold | hnew
        · exact absurd hold hnone
        · rwa [List.mem_singleton.mp hnew]
    · obtain ⟨earlier, found, others, middle, rfl, hmiddle, hyields⟩ :=
        ih (h.step hstep) hrest hafter
      exact ⟨event :: earlier, found, others, middle, rfl,
        run?_cons_eq_some_iff.mpr ⟨after, hnext, hmiddle⟩, hyields⟩

/-- A run hears, while a request waits under a ticket, a completion that comes from a station and
names the id of the request. -/
def Hears (first : Engine σ) (events : List Event) (ticket : Ticket) (source : Mac)
    (outcome : Outcome) : Prop :=
  ∃ earlier rest middle entry, events = earlier ++ .listen :: rest ∧
    first.run? earlier = some middle ∧ entry ∈ middle.pending ∧
    entry.responder = .ticket ticket ∧
    (Link.receive middle.link).1 = .heard (.completion source entry.id outcome)

/-- An engine that was asked something of a station, under a ticket that nothing lies under. -/
structure Asked (start : Desk) (ticket : Ticket) (destination : Mac) (engine : Engine σ) : Prop where
  sound : engine.Sound start
  knows : engine.desk.Knows (.ticket ticket)
  fresh : engine.desk.answers ticket = []
  directs : engine.Directs (.ticket ticket) destination

omit [Link σ] in
theorem Sound.asked_perform (h : before.Sound start) (destination : Mac)
    (request : ConfirmedRequest) :
    Asked start before.desk.tickets destination (before.perform (.ask destination request)) := by
  have hopens := opens_ask h.desk destination request
  refine ⟨h.of_opens hopens, (hopens.knows_iff _).mpr (.inr rfl), ?_, ⟨fun command hmem => ?_,
    fun entry hmem => ?_⟩⟩
  · rw [hopens.answers]
    exact h.desk _ le_rfl
  · exact ⟨request, _, List.mem_singleton.mp (h.queued_of_opens hopens ▸ hmem)⟩
  · rw [Worker.waiting, hopens.pending] at hmem
    exact absurd hmem (List.eq_nil_iff_forall_not_mem.mp (h.eq_nil_of_opens hopens).2 entry)

theorem Asked.destination_eq (h : Asked start ticket destination first)
    (hreaches : first.Reaches later) {entry : Pending} (hentry : entry ∈ later.pending)
    (hticket : entry.responder = .ticket ticket) : entry.destination = destination := by
  have hclient : entry.responder.client = .ticket ticket := by
    rw [hticket]
    rfl
  exact (h.sound.directs_of_reaches h.knows h.directs hreaches).waiting entry
    (Worker.mem_waiting.mpr ⟨hentry, hclient⟩)

/-- The completion that is heard while the request waits is what the holder of the ticket gets. -/
theorem Asked.answers_of_hears (h : Asked start ticket destination first)
    (hrun : first.run? events = some later) (hhears : first.Hears events ticket destination outcome) :
    later.desk.answers ticket = [outcome] := by
  obtain ⟨earlier, rest, middle, entry, rfl, hmiddle, hentry, hticket, hreceive⟩ := hhears
  have hreaches := reaches_of_run? hmiddle
  have hdestination := h.destination_eq hreaches hentry hticket
  have hverdict : middle.verdict? entry .listen = some outcome := by
    rw [verdict?, hreceive]
    exact Pending.answer?_eq_some_iff.mpr (by rw [hdestination])
  have hrest : middle.run? (.listen :: rest) = some later := by
    rw [run?, List.foldlM_append] at hrun
    obtain ⟨found, hfound, hrest⟩ := Option.bind_eq_some_iff.mp hrun
    obtain rfl := Option.some.inj (hfound.symm.trans hmiddle)
    exact hrest
  rw [answers_of_run? (h.sound.of_reaches hreaches) hentry hticket hrest, fate?, hverdict]
  rfl

/-- An acknowledgement that the holder of a ticket gets was heard while the request waited. -/
theorem Asked.hears_of_mem_answers {ack : Ack} (h : Asked start ticket destination first)
    (hrun : first.run? events = some later) (hsome : .ack ack ∈ later.desk.answers ticket) :
    first.Hears events ticket destination (.ack ack) := by
  have hfresh : .ack ack ∉ first.desk.answers ticket := by
    rw [h.fresh]
    exact List.not_mem_nil
  obtain ⟨earlier, event, rest, middle, rfl, hmiddle, hyields⟩ :=
    exists_yields_of_run? h.sound hrun hfresh hsome
  cases hyields with
  | @settled _ entry _ hentry hticket hverdict =>
    have hdestination := h.destination_eq (reaches_of_run? hmiddle) hentry hticket
    cases event with
    | act action => cases hverdict
    | obey => cases hverdict
    | giveUp other =>
      obtain ⟨-, heq⟩ := Option.ite_none_right_eq_some.mp hverdict
      cases heq
    | cancel other =>
      obtain ⟨-, heq⟩ := Option.ite_none_right_eq_some.mp hverdict
      cases heq
    | listen =>
      rw [verdict?] at hverdict
      split at hverdict
      · rename_i indication hreceive
        rw [Pending.answer?_eq_some_iff.mp hverdict, hdestination] at hreceive
        exact ⟨earlier, rest, middle, entry, rfl, hmiddle, hentry, hticket, hreceive⟩
      · cases hverdict

end Engine

namespace Session

variable {σ : Type}

theorem alive?_beginRead {session begun : Session σ} {engine : Engine σ} {mac : Mac}
    {path : PropertyPath} {transaction : Transaction} (hengine : session.alive? = some engine)
    (hbegin : session.beginRead mac path = .ok (transaction, begun)) :
    ∃ resolved, path.resolve = .ok resolved ∧ transaction.ticket = engine.desk.tickets ∧
      begun.alive? = some (engine.perform (.ask mac
        (.read ⟨⟨resolved.type, path.number⟩, resolved.property, path.index⟩))) := by
  obtain ⟨shared, holdsLink, lifecycle⟩ := session
  obtain ⟨worker, hworker, rfl⟩ := Option.map_eq_some_iff.mp hengine
  cases lifecycle with
  | notStarted => cases hworker
  | starting => cases hworker
  | running run =>
    have hworker : run.worker = some worker := hworker
    rw [beginRead] at hbegin
    obtain ⟨found, hfound, hcheck⟩ := bind_eq_ok_iff.mp hbegin
    cases hfound
    obtain ⟨checked, -, hresolve⟩ := bind_eq_ok_iff.mp hcheck
    obtain ⟨resolved, hresolved, htransact⟩ := bind_eq_ok_iff.mp hresolve
    refine ⟨resolved, hresolved, ?_⟩
    simp only [transact, submit?, worker?, run?, Option.bind_some, hworker, Option.map_some,
      Except.ok.injEq, Prod.mk.injEq] at htransact
    obtain ⟨rfl, rfl⟩ := htransact
    exact ⟨rfl, rfl⟩

variable {ended : Session σ} {mac : Mac} {path : PropertyPath} {transaction : Transaction}

/-- A reader that stops waiting gets the only outcome under its ticket. -/
theorem conclude_read_of_answers {outcome : Outcome}
    (h : ended.desk.answers transaction.ticket = [outcome]) :
    (ended.conclude (.read mac path transaction)).1 =
      .reading (Reading.ofOutcome mac path outcome) := by
  have hfound : ended.outcome? transaction = some outcome := by
    rw [Session.outcome?, Desk.outcome?_eq_head?_answers, h]
    rfl
  rw [conclude, hfound]
  rfl

/-- A reader that gets a reading has it from an acknowledgement under its ticket. -/
theorem exists_ack_of_conclude_read {reading : Reading}
    (h : (ended.conclude (.read mac path transaction)).1 = .reading (.ok reading)) :
    ∃ ack, .ack (.read ack) ∈ ended.desk.answers transaction.ticket ∧
      Reading.ofOutcome mac path (.ack (.read ack)) = .ok reading := by
  have hreading : Reading.ofOutcome mac path
      ((ended.outcome? transaction).getD (.failure .timeout)) = .ok reading :=
    Answer.reading.inj h
  cases hfound : ended.desk.outcome? transaction.ticket with
  | none =>
    obtain ⟨cause, hcause⟩ : ∃ cause,
        (ended.outcome? transaction).getD (.failure .timeout) = .failure cause := by
      rw [Session.outcome?, hfound]
      dsimp only
      split
      · exact ⟨_, rfl⟩
      · split <;> exact ⟨_, rfl⟩
    rw [hcause] at hreading
    cases hreading
  | some outcome =>
    rw [Session.outcome?, hfound] at hreading
    rw [Desk.outcome?_eq_head?_answers] at hfound
    have hmem := List.mem_of_head? hfound
    cases outcome with
    | failure cause => cases hreading
    | ack ack =>
      cases ack with
      | read ack => exact ⟨ack, hmem, hreading⟩
      | _ => cases hreading

end Session

/-- A read acknowledgement gives the value that it carries, by the names that it bears itself, under
the names that were asked for. -/
theorem Reading.ofOutcome_read_eq_ok_iff {mac : Mac} {path : PropertyPath} {ack : ReadAck}
    {reading : Reading} :
    Reading.ofOutcome mac path (.ack (.read ack)) = .ok reading ↔
      ∃ value datatype, ack.decode = .ok (value, datatype) ∧
        reading = ⟨mac, path, value.toJson datatype⟩ := by
  rw [ofOutcome]
  cases hdecode : ack.decode with
  | error error => simp
  | ok decoded =>
    obtain ⟨value, datatype⟩ := decoded
    simp [eq_comm]

/-- An acknowledgement that carries no value by the names that it bears itself is refused. -/
theorem Reading.exists_protocol_of_ack {mac : Mac} {path : PropertyPath} {ack : Ack}
    (h : ∀ read decoded, ack = .read read → read.decode ≠ .ok decoded) :
    ∃ error, Reading.ofOutcome mac path (.ack ack) = .error (.protocol error) := by
  cases ack with
  | read read =>
    cases hdecode : read.decode with
    | error error => exact ⟨error, by rw [ofOutcome, hdecode]⟩
    | ok decoded => exact absurd hdecode (h read decoded rfl)
  | _ => exact ⟨_, rfl⟩

theorem PropertyPath.datatype?_of_resolve {path : PropertyPath} {resolved : Schema.Resolved}
    (h : path.resolve = .ok resolved) :
    Schema.datatype? resolved.type resolved.property = some resolved.datatype := by
  unfold resolve at h
  split at h
  · rename_i found hfound
    cases h
    obtain ⟨type, -, hproperty⟩ := Option.bind_eq_some_iff.mp hfound
    obtain ⟨property, -, hdatatype⟩ := Option.bind_eq_some_iff.mp hproperty
    obtain ⟨datatype, hknown, hlast⟩ := Option.bind_eq_some_iff.mp hdatatype
    cases hlast
    exact hknown
  · cases h

/-- A read acknowledgement is decoded with the datatype that is known of the names it bears. -/
theorem ReadAck.eq_picked_of_decode {ack : ReadAck} {value : Value} {datatype named : Datatype}
    (hknown : Schema.datatype? ack.object.type ack.property = some named)
    (h : ack.decode = .ok (value, datatype)) : datatype = picked named ack.index := by
  obtain ⟨found, hfound, hvalue⟩ := bind_eq_ok_iff.mp h
  obtain ⟨decoded, -, hlast⟩ := bind_eq_ok_iff.mp hvalue
  rw [ReadAck.datatype, hknown] at hfound
  cases hfound
  cases hlast
  rfl

namespace Session

variable {σ : Type} [Link σ]

/-- **A reading says what the station answered.**  A session begins a read while its engine is at any
point of any run, and whatever happens then, in whatever order.  The reader gets a value exactly if a
completion with an acknowledgement to a read is heard from the station while the request waits,
names the id of the request, and carries a value by the names that it bears itself; the reading bears
the names that were asked for, whichever those are.  A completion with any other acknowledgement is
a violation of the protocol.  An acknowledgement that bears the names that were asked for is decoded
with the datatype of what was asked for. -/
theorem reading_of_reply {shared : Shared σ} (hdesk : shared.desk.Sound) {identity : LocalDevice}
    {timing : Timing} {engine first later : Engine σ}
    (hreaches : (Engine.launch shared identity timing).Reaches engine)
    {session begun ended : Session σ} (hengine : session.alive? = some engine) {mac : Mac}
    {path : PropertyPath} {transaction : Transaction}
    (hbegin : session.beginRead mac path = .ok (transaction, begun))
    (hfirst : begun.alive? = some first) {events : List Event}
    (hrun : first.run? events = some later) (hended : ended.desk = later.desk) :
    (∀ reading, (ended.conclude (.read mac path transaction)).1 = .reading (.ok reading) ↔
      ∃ ack value datatype, first.Hears events transaction.ticket mac (.ack (.read ack)) ∧
        ack.decode = .ok (value, datatype) ∧ reading = ⟨mac, path, value.toJson datatype⟩) ∧
    (∀ ack, first.Hears events transaction.ticket mac (.ack ack) →
      (∀ read decoded, ack = .read read → read.decode ≠ .ok decoded) → ∃ error,
        (ended.conclude (.read mac path transaction)).1 = .reading (.error (.protocol error))) ∧
    ∀ resolved, path.resolve = .ok resolved → ∀ ack : ReadAck,
      ack.object = ⟨resolved.type, path.number⟩ → ack.property = resolved.property →
        ack.index = path.index → ∀ value datatype, ack.decode = .ok (value, datatype) →
          datatype = ReadAck.picked resolved.datatype path.index := by
  have hsound := (Engine.Sound.of_launch shared hdesk identity timing).of_reaches hreaches
  obtain ⟨resolved, hresolved, hticket, hbegun⟩ := alive?_beginRead hengine hbegin
  have hasked : Engine.Asked shared.desk transaction.ticket mac first := by
    rw [Option.some.inj (hfirst.symm.trans hbegun), hticket]
    exact hsound.asked_perform mac _
  have hyields {outcome : Outcome}
      (hhears : first.Hears events transaction.ticket mac outcome) :
      (ended.conclude (.read mac path transaction)).1 =
        .reading (Reading.ofOutcome mac path outcome) := by
    refine conclude_read_of_answers ?_
    rw [hended, hasked.answers_of_hears hrun hhears]
  refine ⟨fun reading => ⟨fun hreading => ?_, ?_⟩, fun ack hhears hrefused => ?_, ?_⟩
  · obtain ⟨ack, hmem, hack⟩ := exists_ack_of_conclude_read hreading
    rw [hended] at hmem
    obtain ⟨value, datatype, hdecode, hlabel⟩ := Reading.ofOutcome_read_eq_ok_iff.mp hack
    exact ⟨ack, value, datatype, hasked.hears_of_mem_answers hrun hmem, hdecode, hlabel⟩
  · rintro ⟨ack, value, datatype, hhears, hdecode, hlabel⟩
    rw [hyields hhears, Reading.ofOutcome_read_eq_ok_iff.mpr ⟨value, datatype, hdecode, hlabel⟩]
  · obtain ⟨error, hprotocol⟩ := Reading.exists_protocol_of_ack hrefused
    exact ⟨error, by rw [hyields hhears, hprotocol]⟩
  · intro found hfound ack hobject hproperty hindex value datatype hdecode
    have hknown := PropertyPath.datatype?_of_resolve hfound
    rw [← hindex]
    exact ReadAck.eq_picked_of_decode (by rw [hobject, hproperty, hknown]) hdecode

/-- The present value of a multi-state object. -/
def stateOf (number : UInt32) : PropertyPath := ⟨"multiStateValue", number, "presentValue", none⟩

/-- A reply of a multi-state object that its present value is 7. -/
def isSeven (number : UInt32) : ReadAck :=
  ⟨⟨.multiStateValue, number⟩, ⟨85⟩, none, (Atom.unsigned 7).encode⟩

/-- A session on a segment where a reply from station 4 waits to be heard. -/
def oneReply (reply : ReadAck) : Session Simulation.Segment where
  link := { inbox := [.completion 4 0 (.ack (.read reply))] }
  clock := 0
  cache := .empty
  desk := {}
  holdsLink := false
  lifecycle := .running ⟨guest, {}, some { identity := guest, timing := {} }⟩

/-- A read that is answered by the object that was asked. -/
theorem reading_of_reply_isSeven :
    ∃ transaction begun first later,
      (oneReply (isSeven 1)).beginRead 4 (stateOf 1) = .ok (transaction, begun) ∧
        begun.alive? = some first ∧ first.run? [.obey, .listen] = some later ∧
        ({ begun with desk := later.desk }.conclude (.read 4 (stateOf 1) transaction)).1 =
          .reading (.ok ⟨4, stateOf 1, .ofNat 7⟩) := by
  have hdesk : (oneReply (isSeven 1)).desk.Sound := Desk.sound_empty
  obtain ⟨transaction, begun, first, later, hbegin, hfirst, hrun, hreads⟩ :
      ∃ transaction begun first later,
        (oneReply (isSeven 1)).beginRead 4 (stateOf 1) = .ok (transaction, begun) ∧
          begun.alive? = some first ∧ first.run? [.obey, .listen] = some later ∧
          first.Hears [.obey, .listen] transaction.ticket 4 (.ack (.read (isSeven 1))) :=
    ⟨_, _, _, _, rfl, rfl, rfl, [.obey], [], _, _, rfl, rfl, List.mem_singleton_self _, rfl, rfl⟩
  have hended : ({ begun with desk := later.desk } : Session _).desk = later.desk := rfl
  have hreply := reading_of_reply hdesk .refl rfl hbegin hfirst hrun hended
  exact ⟨transaction, begun, first, later, hbegin, hfirst, hrun,
    (hreply.1 _).mpr ⟨isSeven 1, .atom (.unsigned 7), .unsigned, hreads, rfl, rfl⟩⟩

/-- A read of one object that is answered by another, whose reply to a read before a restart comes
late: the ids are given out anew, and the reading has the value of the other object. -/
theorem reading_of_late_reply :
    let config : Config := { link := { address := some 1, interface := some "/dev/ttyS1" } }
    let started := ((onLink ({} : Simulation.Segment)).ensureStarted config).2
    (isSeven 1).object ≠ ⟨.multiStateValue, 2⟩ ∧ ∃ transaction begun transaction' begun',
      started.beginRead 4 (stateOf 1) = .ok (transaction, begun) ∧
      (begun.turn.shutdown.ensureStarted config).2.beginRead 4 (stateOf 2) =
        .ok (transaction', begun') ∧
      let late := begun'.link.tell (.completion 4 0 (.ack (.read (isSeven 1))))
      ({ begun' with link := late }.turn.conclude (.read 4 (stateOf 2) transaction')).1 =
        .reading (.ok ⟨4, stateOf 2, .ofNat 7⟩) :=
  ⟨by decide, _, _, _, _, rfl, rfl, rfl⟩

end Session

end Fieldbus
