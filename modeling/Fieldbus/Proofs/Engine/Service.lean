import Fieldbus.Engine.Run
import Fieldbus.Proofs.Engine.Client
import Fieldbus.Proofs.Walk.Course

/-!
# Serving a client

An engine deals with a request when it starts it and when it has an outcome for it.  Each time the
client either has its end afterwards, or one request of it waits, under an id that was free; and no
other client can notice.  What an engine does to a client is derived from this statement alone.

## Main definitions

* `Engine.Serves`: an engine after it has dealt with a request.

## Main results

* `Engine.start_serves`, `Engine.complete_serves`, `Engine.cancel_serves`.
-/

namespace Fieldbus

namespace Engine

variable {σ : Type}

/-- An engine after it has dealt with a request of a client for a station: the client has its end,
or the request waits under an id that was free; no other client can notice. -/
structure Serves (before : Engine σ) (destination : Mac) (client : Client) (after : Engine σ) :
    Prop where
  commands : after.commands = before.commands
  touches : before.desk.Touches client after.desk
  abandoned : ∀ report,
    (after.desk.report report).abandoned = (before.desk.report report).abandoned
  served : (after.pending = before.pending ∧ after.desk.ends client = 1) ∨
    ∃ entry, after.pending = before.pending ++ [entry] ∧ before.isBusy entry.id = false ∧
      entry.responder.client = client ∧ entry.destination = destination ∧
      (∀ walk, entry.responder = .walk walk → walk.destination = destination) ∧
      after.desk.ends client = 0

/-! ### Ends -/

variable {engine : Engine σ} {responder : Responder} {destination : Mac}

theorem fail_eq (engine : Engine σ) (responder : Responder) (cause : Failure) :
    engine.fail responder cause = { engine with desk := engine.desk.fail responder cause } := by
  cases responder <;> rfl

theorem leave_serves {ticket : Ticket} (hends : engine.desk.ends (.ticket ticket) = 0)
    (destination : Mac) (outcome : Outcome) :
    engine.Serves destination (.ticket ticket)
      { engine with desk := engine.desk.leave ticket outcome } := by
  refine ⟨rfl, engine.desk.touches_leave ticket _, fun _ => rfl, .inl ⟨rfl, ?_⟩⟩
  have hnone : (engine.desk.answers ticket).length = 0 := hends
  change ((engine.desk.leave ticket outcome).answers ticket).length = 1
  rw [Desk.answers_leave, if_pos rfl, List.length_append, hnone]
  rfl

theorem finish_serves {report : WalkId} (hknows : engine.desk.Knows (.report report))
    (destination : Mac) {change : WalkReport → WalkReport}
    (hfinished : (change (engine.desk.report report)).finished = true)
    (habandoned : (change (engine.desk.report report)).abandoned =
      (engine.desk.report report).abandoned) :
    engine.Serves destination (.report report)
      { engine with desk := engine.desk.mapReport report change } := by
  refine ⟨rfl, engine.desk.touches_mapReport report _, Desk.abandoned_mapReport habandoned,
    .inl ⟨rfl, ?_⟩⟩
  change ((engine.desk.mapReport report change).report report).finished.toNat = 1
  rw [Desk.report_mapReport_self hknows, hfinished]
  rfl

theorem fail_serves (hknows : engine.desk.Knows responder.client)
    (hends : engine.desk.ends responder.client = 0) (destination : Mac) (cause : Failure) :
    engine.Serves destination responder.client (engine.fail responder cause) := by
  cases responder with
  | ticket ticket => exact leave_serves hends destination _
  | walk walk =>
    have hfinished := Walk.finished_of_onReply
      (walk.onReply_failure cause (engine.desk.report walk.report))
    exact finish_serves hknows destination hfinished (walk.abandoned_onReply _ _)

/-- A responder whose request is cancelled has its end. -/
theorem cancel_serves {entry : Pending} (hknows : engine.desk.Knows entry.responder.client)
    (hends : engine.desk.ends entry.responder.client = 0) (destination : Mac) :
    engine.Serves destination entry.responder.client (engine.cancel entry) := by
  obtain ⟨id, mac, sentAt, responder⟩ := entry
  cases responder with
  | ticket ticket => exact leave_serves hends destination _
  | walk walk => exact finish_serves hknows destination rfl rfl

/-! ### Starting a request -/

variable [Link σ]

/-- A request that is started fails or waits under a free id; nothing else changes but the cursor
and the link. -/
theorem start_cases (engine : Engine σ) (destination : Mac) (request : ConfirmedRequest)
    (responder : Responder) :
    (∃ cursor link cause, engine.start destination request responder =
        Engine.fail { engine with cursor := cursor, link := link } responder cause) ∨
      ∃ id cursor link, engine.isBusy id = false ∧
        engine.start destination request responder =
          { engine with
            cursor := cursor
            link := link
            pending := engine.pending ++ [⟨id, destination, engine.clock, responder⟩] } := by
  rw [start]
  cases htake : engine.takeId? with
  | none => exact .inl ⟨engine.cursor, engine.link, _, rfl⟩
  | some taken =>
    obtain ⟨id, worker⟩ := taken
    have hfree := Worker.isBusy_of_takeId? htake
    have hworker := Worker.eq_of_takeId? htake
    cases hsend : Link.sendConfirmed destination id request engine.link with
    | mk result link =>
      subst hworker
      cases result with
      | error error => exact .inl ⟨id + 1, link, .link error.message, by simp only [hsend]⟩
      | ok => exact .inr ⟨id, id + 1, link, hfree, by simp only [hsend]⟩

/-- A request that is started is dealt with. -/
theorem start_serves (hknows : engine.desk.Knows responder.client)
    (hends : engine.desk.ends responder.client = 0)
    (hdestination : ∀ walk, responder = .walk walk → walk.destination = destination)
    (request : ConfirmedRequest) :
    engine.Serves destination responder.client (engine.start destination request responder) := by
  rcases engine.start_cases destination request responder with
    ⟨cursor, link, cause, heq⟩ | ⟨id, cursor, link, hfree, heq⟩
  · rw [heq]
    have hfailed := @fail_serves _ { engine with cursor := cursor, link := link } responder
      hknows hends destination cause
    exact ⟨hfailed.commands, hfailed.touches, hfailed.abandoned, hfailed.served⟩
  · rw [heq]
    exact ⟨rfl, .refl _ _, fun _ => rfl, .inr ⟨_, rfl, hfree, rfl, rfl, hdestination, hends⟩⟩

/-! ### Completing a request -/

theorem complete_failure_eq_fail (engine : Engine σ) (responder : Responder) (cause : Failure) :
    engine.complete responder (.failure cause) = engine.fail responder cause := by
  cases responder with
  | ticket ticket => rfl
  | walk walk =>
    simp only [complete, walk.onReply_failure, fail]
    rw [Desk.mapReport_const _ _ fun report => (walk.onReply (.failure cause) report).2]

/-- A request that has its outcome is dealt with. -/
theorem complete_serves (hknows : engine.desk.Knows responder.client)
    (hends : engine.desk.ends responder.client = 0)
    (hdestination : ∀ walk, responder = .walk walk → walk.destination = destination)
    (outcome : Outcome) :
    engine.Serves destination responder.client (engine.complete responder outcome) := by
  cases responder with
  | ticket ticket => exact leave_serves hends destination outcome
  | walk walk =>
    have hself := @Desk.report_mapReport_self engine.desk walk.report hknows
    have htouches := engine.desk.touches_mapReport walk.report
    rcases walk.onReply_cases outcome (engine.desk.report walk.report) with
      ⟨after, hreply, hfinished⟩ | ⟨index, rest, objects, hreply⟩
    · have heq : engine.complete (.walk walk) outcome =
          { engine with desk := engine.desk.mapReport walk.report fun _ => after } := by
        simp only [complete, hreply]
      have habandoned := walk.abandoned_onReply outcome (engine.desk.report walk.report)
      rw [hreply] at habandoned
      rw [heq]
      exact finish_serves hknows destination hfinished habandoned
    · -- the follow-up read is started on a desk that differs in the walk's own report only
      let desk := engine.desk.mapReport walk.report fun _ =>
        (engine.desk.report walk.report).extend objects
      let reported : Engine σ := { engine with desk := desk }
      let following : Walk := { walk with remaining := rest }
      have heq : engine.complete (.walk walk) outcome =
          reported.start walk.destination (walk.readAt index) (.walk following) := by
        simp only [complete, hreply, reported, desk, following]
      have hreported : reported.desk.ends (.report walk.report) = 0 := by
        change (desk.report walk.report).finished.toNat = 0
        rw [hself]
        exact hends
      have haddressed : ∀ other, Responder.walk following = .walk other →
          other.destination = walk.destination := by
        rintro other ⟨⟩
        rfl
      have hstarted : reported.Serves walk.destination (.report walk.report)
          (reported.start walk.destination (walk.readAt index) (.walk following)) :=
        start_serves (((htouches _).knows_iff _).mpr hknows) hreported haddressed
          (walk.readAt index)
      rw [hdestination walk rfl] at hstarted
      rw [heq, hdestination walk rfl]
      exact ⟨hstarted.commands, (htouches _).trans hstarted.touches, fun other =>
        (hstarted.abandoned other).trans (Desk.abandoned_mapReport (by rfl) other), hstarted.served⟩

end Engine

end Fieldbus
