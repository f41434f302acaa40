import Fieldbus.Proofs.Engine.Turn
import Fieldbus.Simulation.Segment

/-!
# Every client gets its end

Whatever happens to an engine, and in whatever order, a client whose command was carried out has
exactly one request that waits for an answer, or it has got its end, exactly once.  When the engine
stops, what still waits gets its end as well.

## Main results

* `Engine.answered_once`: no outcome of a request is lost, and none comes twice.
* `Engine.finished_iff_waiting_eq_nil`: no walk is stuck, and none is in flight twice.
-/

namespace Fieldbus.Engine

variable {σ : Type} [Link σ]

omit [Link σ] in
/-- At a shutdown, a ticket whose command does not wait behind it has none that waits. -/
theorem queued_eq_nil_of_shutdown {engine : Engine σ} {behind : List Command} {ticket : Ticket}
    (hcommands : engine.commands = .shutdown :: behind)
    (hbehind : ∀ destination request,
      .request destination request (.ticket ticket) ∉ behind) :
    engine.queued (.ticket ticket) = [] := by
  rw [Worker.queued, hcommands, List.filter_eq_nil_iff]
  intro command hcommand hclient
  rcases List.mem_cons.mp hcommand with rfl | hcommand
  · simp [Command.client?] at hclient
  · cases command with
    | request destination request responder =>
      cases responder with
      | ticket other =>
        obtain rfl : other = ticket := by simpa [Command.client?, Responder.client] using hclient
        exact hbehind destination request hcommand
      | walk walk => simp [Command.client?, Responder.client] at hclient
    | _ => simp [Command.client?] at hclient

omit [Link σ] in
theorem touches_cancel (engine : Engine σ) (entry : Pending) :
    engine.desk.Touches entry.responder.client (engine.cancel entry).desk := by
  obtain ⟨id, destination, sentAt, responder⟩ := entry
  cases responder with
  | ticket ticket => exact engine.desk.touches_leave ticket _
  | walk walk => exact engine.desk.touches_mapReport walk.report _

omit [Link σ] in
theorem knows_foldl_cancel (entries : List Pending) (engine : Engine σ) (client : Client) :
    (entries.foldl cancel engine).desk.Knows client ↔ engine.desk.Knows client := by
  induction entries generalizing engine with
  | nil => exact Iff.rfl
  | cons entry rest ih =>
    exact (ih (engine.cancel entry)).trans ((engine.touches_cancel entry).knows_iff client)

theorem knows_stop (engine : Engine σ) (client : Client) :
    engine.stop.desk.Knows client ↔ engine.desk.Knows client :=
  knows_foldl_cancel engine.pending engine client

namespace Sound

variable {start : Desk} {engine : Engine σ} {client : Client}

omit [Link σ] in
/-- A client whose command was carried out has one waiting request or has got its end. -/
theorem waiting_or_ends (h : engine.Sound start) (hknows : engine.desk.Knows client)
    (hnew : ¬ start.Knows client) (hhandled : engine.queued client = []) :
    (∃ entry, engine.waiting client = [entry] ∧ engine.desk.ends client = 0) ∨
      engine.waiting client = [] ∧ engine.desk.ends client = 1 := by
  have honce := h.once client hknows hnew
  rw [hhandled, List.length_nil, Nat.zero_add] at honce
  cases hwaiting : engine.waiting client with
  | nil =>
    rw [hwaiting, List.length_nil, Nat.zero_add] at honce
    exact .inr ⟨rfl, honce⟩
  | cons entry rest =>
    rw [hwaiting, List.length_cons] at honce
    obtain rfl : rest = [] := List.length_eq_zero_iff.mp (by omega)
    exact .inl ⟨entry, rfl, by omega⟩

/-- A client whose command was carried out has got its end once the engine has stopped. -/
theorem ends_stop (h : engine.Sound start) (hknows : engine.desk.Knows client)
    (hnew : ¬ start.Knows client) (hhandled : engine.queued client = []) :
    engine.stop.desk.ends client = 1 := by
  obtain ⟨drained, hreaches, hpending, hcommands, hdesk⟩ := engine.exists_reaches_drained h.ids
  have honce := (h.of_reaches hreaches).once client (h.knows_of_reaches hreaches hknows) hnew
  have hqueued : drained.queued client = [] := by
    rw [Worker.queued, hcommands]
    exact hhandled
  have hwaiting : drained.waiting client = [] := by
    rw [Worker.waiting, hpending, List.filter_nil]
  rw [hqueued, hwaiting, hdesk] at honce
  simpa using honce

theorem desk_stop (h : engine.Sound start) : engine.stop.desk.Sound := by
  obtain ⟨drained, hreaches, -, -, hdesk⟩ := engine.exists_reaches_drained h.ids
  exact hdesk ▸ (h.of_reaches hreaches).desk

end Sound

/-- **Every request is answered exactly once.**  At every point of a run of an engine, whatever its
link, its callers and the stations do, a ticket of the run whose request was carried out either has
one request that waits, or one outcome, and never both; once the engine stops it has one outcome.
No two requests wait under one id, and no step displaces a request that it does not deal with.  What
the engine leaves is sound for the next one. -/
theorem answered_once (shared : Shared σ) (hdesk : shared.desk.Sound) (identity : LocalDevice)
    (timing : Timing) {engine : Engine σ}
    (hreaches : (launch shared identity timing).Reaches engine) :
    (∀ ticket, shared.desk.tickets ≤ ticket → ticket < engine.desk.tickets →
      engine.queued (.ticket ticket) = [] →
        ((∃ entry, engine.waiting (.ticket ticket) = [entry] ∧ engine.desk.answers ticket = []) ∨
          engine.waiting (.ticket ticket) = [] ∧
            ∃ outcome, engine.desk.answers ticket = [outcome]) ∧
        ∃ outcome, engine.stop.desk.answers ticket = [outcome]) ∧
    (∀ stopped, engine.turn = .stopped stopped →
      ∀ ticket, shared.desk.tickets ≤ ticket → ticket < stopped.desk.tickets →
        (∀ destination request,
          .request destination request (.ticket ticket) ∉ behindShutdown engine.commands) →
        ∃ outcome, stopped.desk.answers ticket = [outcome]) ∧
    (engine.pending.map Pending.id).Nodup ∧
    (∀ event after, Step engine event after → ∀ entry ∈ engine.pending,
      entry ∈ after.pending ∨ engine.addressee? event = some entry.responder.client) ∧
    engine.stop.desk.Sound := by
  have hsound := (Sound.of_launch shared hdesk identity timing).of_reaches hreaches
  have hone : ∀ {desk : Desk} {ticket}, desk.ends (.ticket ticket) = 1 →
      ∃ outcome, desk.answers ticket = [outcome] := List.length_eq_one_iff.mp
  refine ⟨fun ticket hnew hticket hhandled => ?_, ?_, hsound.ids, fun event after hstep entry =>
    hsound.mem_pending_of_step hstep, hsound.desk_stop⟩
  · have hknows : engine.desk.Knows (.ticket ticket) := hticket
    have hnew : ¬ shared.desk.Knows (.ticket ticket) := Nat.not_lt.mpr hnew
    refine ⟨?_, hone (hsound.ends_stop hknows hnew hhandled)⟩
    rcases hsound.waiting_or_ends hknows hnew hhandled with
      ⟨entry, hwaiting, hends⟩ | ⟨hwaiting, hends⟩
    · exact .inl ⟨entry, hwaiting, List.length_eq_zero_iff.mp hends⟩
    · exact .inr ⟨hwaiting, hone hends⟩
  · intro stopped hturn ticket hnew hticket hbehind
    obtain ⟨last, hlast, hcommands, rfl⟩ := reaches_of_turn_stopped hturn
    have hhandled := queued_eq_nil_of_shutdown hcommands hbehind
    have hknows : last.desk.Knows (.ticket ticket) := (last.knows_stop _).mp hticket
    have hnew : ¬ shared.desk.Knows (.ticket ticket) := Nat.not_lt.mpr hnew
    exact hone ((hsound.of_reaches hlast).ends_stop hknows hnew hhandled)

/-- A request that is sent to an empty segment waits until the engine stops. -/
theorem answered_once_on_empty_segment :
    let shared : Shared Simulation.Segment := ⟨{}, 0, .empty, {}⟩
    let engine := launch shared ⟨⟨.device, 599⟩, "", 1024, .none, 15⟩ {}
    let asked := engine.perform (.ask 5 (.read ⟨⟨.device, 8⟩, .objectList, some 0⟩))
    let sent := { asked with commands := [] }.handle
      (.request 5 (.read ⟨⟨.device, 8⟩, .objectList, some 0⟩) (.ticket 0))
    engine.desk.Sound ∧ engine.Reaches sent ∧ sent.queued (.ticket 0) = [] ∧
      (sent.waiting (.ticket 0)).length = 1 ∧ sent.desk.answers 0 = [] ∧
      ∃ outcome, sent.stop.desk.answers 0 = [outcome] := by
  intro shared engine asked sent
  have hdesk : engine.desk.Sound := Desk.sound_empty
  have hreaches : engine.Reaches sent :=
    .tail (.single ⟨_, .act engine _⟩) ⟨_, .obey rfl (by decide)⟩
  have hanswered := answered_once shared hdesk _ _ hreaches
  exact ⟨hdesk, hreaches, rfl, rfl, rfl, (hanswered.1 0 (by decide) (by decide) rfl).2⟩

/-- **No walk is stuck, and none is in flight twice.**  At every point of a run of an engine, the
report of a walk whose first read was carried out is unfinished exactly if one request of the walk
waits, for the station that the walk goes to, and finished exactly if none does; once the engine
stops it is finished. -/
theorem finished_iff_waiting_eq_nil (shared : Shared σ) (hdesk : shared.desk.Sound)
    (identity : LocalDevice) (timing : Timing) {engine : Engine σ}
    (hreaches : (launch shared identity timing).Reaches engine) (report : WalkId)
    (hnew : shared.desk.reports.length ≤ report) (hreport : report < engine.desk.reports.length)
    (hhandled : engine.queued (.report report) = []) :
    ((engine.desk.report report).finished = false ↔
      ∃ entry walk, engine.waiting (.report report) = [entry] ∧ entry.responder = .walk walk ∧
        entry.destination = walk.destination) ∧
    ((engine.desk.report report).finished = true ↔ engine.waiting (.report report) = []) ∧
    (engine.stop.desk.report report).finished = true := by
  have hsound := (Sound.of_launch shared hdesk identity timing).of_reaches hreaches
  have hfinished : ∀ desk : Desk, desk.ends (.report report) = 1 ↔
      (desk.report report).finished = true := fun desk => Bool.toNat_eq_one
  have hunfinished : ∀ desk : Desk, desk.ends (.report report) = 0 ↔
      (desk.report report).finished = false := fun desk => Bool.toNat_eq_zero
  have hknows : engine.desk.Knows (.report report) := hreport
  have hnew : ¬ shared.desk.Knows (.report report) := Nat.not_lt.mpr hnew
  have hstopped := (hfinished _).mp (hsound.ends_stop hknows hnew hhandled)
  rcases hsound.waiting_or_ends hknows hnew hhandled with
    ⟨entry, hwaiting, hends⟩ | ⟨hwaiting, hends⟩
  · have hentry : entry ∈ engine.pending ∧ entry.responder.client = .report report :=
      Worker.mem_waiting.mp (hwaiting ▸ List.mem_singleton_self entry)
    obtain ⟨walk, hwalk⟩ : ∃ walk, entry.responder = .walk walk := by
      cases hresponder : entry.responder with
      | ticket ticket => simp [hresponder, Responder.client] at hentry
      | walk walk => exact ⟨walk, rfl⟩
    have hdestination := (hsound.addressed entry hentry.1 walk hwalk).symm
    have hunfinished := (hunfinished _).mp hends
    exact ⟨⟨fun _ => ⟨entry, walk, hwaiting, hwalk, hdestination⟩, fun _ => hunfinished⟩,
      by simp [hunfinished, hwaiting], hstopped⟩
  · have hover := (hfinished _).mp hends
    exact ⟨by simp [hover, hwaiting], by simp [hover, hwaiting], hstopped⟩

/-- A walk that has begun on an empty segment waits until the engine stops. -/
theorem finished_iff_waiting_eq_nil_on_empty_segment :
    let shared : Shared Simulation.Segment := ⟨{}, 0, .empty, {}⟩
    let engine := launch shared ⟨⟨.device, 599⟩, "", 1024, .none, 15⟩ {}
    let begun := engine.perform (.enumerate 5 8)
    let sent := { begun with commands := [] }.handle
      (.request 5 (.read ⟨⟨.device, 8⟩, .objectList, some 0⟩) (.walk (.onDevice 5 8 0)))
    engine.desk.Sound ∧ engine.Reaches sent ∧ sent.queued (.report 0) = [] ∧
      sent.waiting (.report 0) ≠ [] ∧ (sent.desk.report 0).finished ≠ true ∧
      (sent.stop.desk.report 0).finished = true := by
  intro shared engine begun sent
  have hdesk : engine.desk.Sound := Desk.sound_empty
  have hreaches : engine.Reaches sent :=
    .tail (.single ⟨_, .act engine _⟩) ⟨_, .obey rfl (by decide)⟩
  have hplaced := finished_iff_waiting_eq_nil shared hdesk _ _ hreaches 0 (by decide)
    (by decide) rfl
  have hwaiting : sent.waiting (.report 0) ≠ [] := by decide
  exact ⟨hdesk, hreaches, rfl, hwaiting, fun h => hwaiting (hplaced.2.1.mp h), hplaced.2.2⟩

end Fieldbus.Engine
