import Fieldbus.Proofs.Engine.Fate
import Fieldbus.Proofs.Engine.Settlement

/-!
# Clients that an engine leaves alone

An engine that has neither a command nor a request of a client does nothing to the client any more:
whatever happens, the client sees the same on the desk.  So what an engine leaves a client when it
stops is decided by what it has of the client then.  A request that waits is failed, a client that
has got its end keeps it, and a client whose command waits behind the shutdown sees nothing new.

## Main definitions

* `Desk.Alike`, `Desk.Spares`: what a client sees on a desk stays.
* `Worker.Lacks`: an engine that has nothing of a client.

## Main results

* `Engine.Sound.spares_of_reaches`: an engine leaves a client alone that it has nothing of.
* `Engine.Sound.report_of_queued`: nothing is found for a walk as long as its command waits.
* `Engine.Sound.report_stop`, `Engine.Sound.answers_stop`: what a stopped engine leaves.
-/

namespace Fieldbus

theorem WalkReport.abandon_abandon (report : WalkReport) :
    report.abandon.abandon = report.abandon := by
  simp [abandon]

namespace Desk

/-- Whether a client sees the same on two desks. -/
def Alike (client : Client) (desk other : Desk) : Prop :=
  match client with
  | .ticket ticket => other.answers ticket = desk.answers ticket
  | .report report => other.report report = desk.report report

/-- What a client sees on a desk stays, but that the caller of its walk may stop waiting. -/
def Spares (client : Client) (desk after : Desk) : Prop :=
  match client with
  | .ticket ticket => after.answers ticket = desk.answers ticket
  | .report report =>
    after.report report = desk.report report ∨
      after.report report = (desk.report report).abandon

variable {desk middle after : Desk} {client : Client}

theorem Alike.refl (client : Client) (desk : Desk) : desk.Alike client desk := by
  cases client <;> rfl

theorem Alike.trans (h : desk.Alike client middle) (h' : middle.Alike client after) :
    desk.Alike client after := by
  cases client with
  | ticket ticket => exact Eq.trans h' h
  | report report => exact Eq.trans h' h

theorem Alike.spares (h : desk.Alike client after) : desk.Spares client after := by
  cases client with
  | ticket ticket => exact h
  | report report => exact .inl h

theorem Spares.trans (h : desk.Spares client middle) (h' : middle.Spares client after) :
    desk.Spares client after := by
  cases client with
  | ticket ticket => exact Eq.trans h' h
  | report report =>
    rcases h' with hsame | habandoned
    · exact h.imp hsame.trans hsame.trans
    · refine .inr (habandoned.trans ?_)
      rcases h with hsame | hearlier
      · rw [hsame]
      · rw [hearlier, WalkReport.abandon_abandon]

theorem Touches.alike {touched : Client} (h : desk.Touches touched after) (hne : touched ≠ client) :
    desk.Alike client after := by
  cases client with
  | ticket ticket => exact h.answers_of_ne ticket hne
  | report report => exact h.report_of_ne report hne

end Desk

/-- Whether an engine has neither a command nor a request of a client. -/
structure Worker.Lacks (worker : Worker) (client : Client) : Prop where
  queued : worker.queued client = []
  waiting : worker.waiting client = []

/-- The outcome for a ticket that an engine has nothing of is not to come. -/
theorem Worker.Lacks.holdsTicket {worker : Worker} {ticket : Ticket}
    (h : worker.Lacks (.ticket ticket)) : worker.holdsTicket ticket = false := by
  refine Bool.or_eq_false_iff.mpr ⟨List.any_eq_false.mpr fun entry hentry hresponder => ?_,
    List.any_eq_false.mpr fun command hcommand hresponder => ?_⟩
  · have hclient : entry.responder.client = .ticket ticket := by
      rw [of_decide_eq_true hresponder]
      rfl
    exact List.ne_nil_of_mem (Worker.mem_waiting.mpr ⟨hentry, hclient⟩) h.waiting
  · cases command with
    | request destination request responder =>
      have hclient : Command.client? (.request destination request responder) =
          some (.ticket ticket) := by
        rw [of_decide_eq_true hresponder]
        rfl
      exact List.ne_nil_of_mem (Worker.mem_queued.mpr ⟨hcommand, hclient⟩) h.queued
    | _ => cases hresponder

namespace Engine

variable {σ : Type} {before after : Engine σ} {client : Client}

theorem Keeps.spares (h : before.Keeps after) (client : Client) :
    before.desk.Spares client after.desk := by
  cases client with
  | ticket ticket => exact h.answers ticket
  | report report => exact h.report report

theorem Opens.alike {destination : Mac} {request : ConfirmedRequest} {responder : Responder}
    (h : before.Opens destination request responder after) (hknows : before.desk.Knows client) :
    before.desk.Alike client after.desk := by
  cases client with
  | ticket ticket => exact h.answers ticket
  | report report => exact h.report report hknows

variable [Link σ] {event : Event} {start : Desk}

namespace Sound

/-! ### Clients that an engine has nothing of -/

/-- A step leaves a client alone that the engine has nothing of. -/
theorem spares_of_step (h : before.Sound start) (hstep : Step before event after)
    (hknows : before.desk.Knows client) (hlacks : before.Lacks client) :
    after.Lacks client ∧ before.desk.Spares client after.desk := by
  cases haddressee : before.addressee? event with
  | none =>
    rcases hstep.cases_of_addressee?_eq_none h.desk haddressee with
      ⟨destination, request, responder, hopens⟩ | hkeeps
    · have hne : responder.client ≠ client := fun heq => hopens.new (heq ▸ hknows)
      refine ⟨⟨?_, ?_⟩, (hopens.alike hknows).spares⟩
      · rw [hopens.queued, if_neg hne, List.append_nil]
        exact hlacks.queued
      · rw [Worker.waiting, hopens.pending]
        exact hlacks.waiting
    · refine ⟨⟨(hkeeps.queued client).trans hlacks.queued, ?_⟩, hkeeps.spares client⟩
      rw [Worker.waiting, hkeeps.pending]
      exact hlacks.waiting
  | some served =>
    obtain ⟨destination, middle, htakes, hserves⟩ := h.deals hstep haddressee
    have hne : served ≠ client := by
      rintro rfl
      exact htakes.ne_nil.elim (absurd hlacks.queued) (absurd hlacks.waiting)
    obtain ⟨hqueued, hwaiting, -⟩ := h.of_serves_of_ne htakes hserves hne
    refine ⟨⟨hqueued.trans hlacks.queued, hwaiting.trans hlacks.waiting⟩, ?_⟩
    exact htakes.desk ▸ (hserves.touches.alike hne).spares

/-- **An engine leaves a client alone that it has nothing of.** -/
theorem spares_of_reaches (h : before.Sound start) (hreaches : before.Reaches after)
    (hknows : before.desk.Knows client) (hlacks : before.Lacks client) :
    after.Lacks client ∧ before.desk.Spares client after.desk := by
  induction hreaches with
  | refl => exact ⟨hlacks, (Desk.Alike.refl client before.desk).spares⟩
  | tail hreaches hstep ih =>
    obtain ⟨event, hstep⟩ := hstep
    obtain ⟨hmiddle, hspares⟩ := ih
    obtain ⟨hafter, hspares'⟩ := (h.of_reaches hreaches).spares_of_step hstep
      (h.knows_of_reaches hreaches hknows) hmiddle
    exact ⟨hafter, hspares.trans hspares'⟩

/-! ### Walks whose command waits -/

variable {report : WalkId}

/-- A walk whose command waits after a step has just begun, or waited before and is left alone. -/
theorem report_of_queued_of_step (h : before.Sound start) (hstep : Step before event after)
    (hqueued : after.queued (.report report) ≠ []) :
    after.desk.report report = {} ∨ before.queued (.report report) ≠ [] ∧
      before.desk.Spares (.report report) after.desk := by
  by_cases hknows : before.desk.Knows (.report report)
  · right
    by_cases haddressee : before.addressee? event = some (.report report)
    · obtain ⟨destination, middle, htakes, hserves⟩ := h.deals hstep haddressee
      obtain ⟨-, -, -, hempty, -⟩ := h.of_takes htakes
      rw [Worker.queued, hserves.commands] at hqueued
      exact absurd hempty hqueued
    · obtain ⟨hsame, -, hspares⟩ := h.of_addressee?_ne hstep hknows haddressee
      exact ⟨hsame ▸ hqueued, hspares⟩
  · left
    obtain ⟨destination, device, hlives⟩ :=
      h.lives_of_step hstep hknows ((h.step hstep).current _ (.inl hqueued)).1
    exact hlives.found

/-- **Nothing is found for a walk as long as its command waits.** -/
theorem report_of_queued {first engine : Engine σ} (h : first.Sound start)
    (hreaches : first.Reaches engine) (hnew : ¬ first.desk.Knows (.report report))
    (hqueued : engine.queued (.report report) ≠ []) :
    engine.desk.report report = {} ∨ engine.desk.report report = ({} : WalkReport).abandon := by
  induction hreaches with
  | refl => exact absurd (h.current _ (.inl hqueued)).1 hnew
  | tail hreaches hstep ih =>
    obtain ⟨event, hstep⟩ := hstep
    rcases (h.of_reaches hreaches).report_of_queued_of_step hstep hqueued with
      hempty | ⟨hbefore, hspares⟩
    · exact .inl hempty
    · rcases hspares with hsame | habandoned
      · rw [hsame]
        exact ih hbefore
      · right
        rw [habandoned]
        rcases ih hbefore with hempty | hearlier
        · rw [hempty]
        · rw [hearlier, WalkReport.abandon_abandon]

end Sound

/-! ### Stopping -/

omit [Link σ] in
theorem alike_foldl_cancel {entries : List Pending} (engine : Engine σ)
    (hothers : ∀ entry ∈ entries, entry.responder.client ≠ client) :
    engine.desk.Alike client (entries.foldl cancel engine).desk := by
  induction entries generalizing engine with
  | nil => exact .refl client engine.desk
  | cons entry rest ih =>
    obtain ⟨hentry, hrest⟩ := List.forall_mem_cons.mp hothers
    exact ((engine.touches_cancel entry).alike hentry).trans (ih (engine.cancel entry) hrest)

/-- A client without a request that waits does not notice the end of an engine. -/
theorem alike_stop {engine : Engine σ} (hwaiting : engine.waiting client = []) :
    engine.desk.Alike client engine.stop.desk := by
  refine alike_foldl_cancel engine fun entry hentry hclient => ?_
  exact List.ne_nil_of_mem (Worker.mem_waiting.mpr ⟨hentry, hclient⟩) hwaiting

/-- All that a client notices of the end of an engine is that its request is cancelled. -/
theorem exists_cancel_of_stop {engine : Engine σ} {entry : Pending}
    (hwaiting : engine.waiting client = [entry]) :
    entry.responder.client = client ∧ ∃ middle : Engine σ,
      (middle.desk.Knows client ↔ engine.desk.Knows client) ∧
        engine.desk.Alike client middle.desk ∧
        (middle.cancel entry).desk.Alike client engine.stop.desk := by
  obtain ⟨earlier, later, hpending, hearlier, hentry, hlater⟩ := List.filter_eq_cons_iff.mp hwaiting
  have hclient := of_decide_eq_true hentry
  refine ⟨hclient, earlier.foldl cancel engine, knows_foldl_cancel earlier engine client, ?_, ?_⟩
  · exact alike_foldl_cancel engine fun other hother hsame =>
      hearlier other hother (decide_eq_true hsame)
  · change Desk.Alike client _ (engine.pending.foldl cancel engine).desk
    rw [hpending, List.foldl_append, List.foldl_cons]
    refine alike_foldl_cancel _ fun other hother hsame => ?_
    exact List.filter_eq_nil_iff.mp hlater other hother (decide_eq_true hsame)

namespace Sound

variable {engine : Engine σ} {report : WalkId}

/-- **A walk that is under way when the engine stops is failed**, and keeps what it has found; one
that is over stays as it is. -/
theorem report_stop (h : engine.Sound start) (hknows : engine.desk.Knows (.report report))
    (hnew : ¬ start.Knows (.report report)) (hhandled : engine.queued (.report report) = []) :
    engine.stop.desk.report report =
      if (engine.desk.report report).finished then engine.desk.report report
      else (engine.desk.report report).abort (.failure .stopped) := by
  rcases h.waiting_or_ends hknows hnew hhandled with ⟨entry, hwaiting, hends⟩ | ⟨hwaiting, hends⟩
  · obtain ⟨hclient, middle, hmiddle, hsame, hcancelled⟩ := exists_cancel_of_stop hwaiting
    obtain ⟨walk, hwalk, rfl⟩ : ∃ walk, entry.responder = .walk walk ∧ walk.report = report := by
      cases hresponder : entry.responder with
      | ticket ticket =>
        rw [hresponder] at hclient
        cases hclient
      | walk walk =>
        rw [hresponder] at hclient
        exact ⟨walk, rfl, Client.report.inj hclient⟩
    have hunfinished : (engine.desk.report walk.report).finished = false :=
      Bool.toNat_eq_zero.mp hends
    have hcancel : (middle.cancel entry).desk.report walk.report =
        (middle.desk.report walk.report).abort (.failure .stopped) := by
      rw [cancel, hwalk]
      exact Desk.report_mapReport_self (hmiddle.mpr hknows) _
    have hsame : middle.desk.report walk.report = engine.desk.report walk.report := hsame
    have hcancelled : engine.stop.desk.report walk.report =
        (middle.cancel entry).desk.report walk.report := hcancelled
    rw [hcancelled, hcancel, hsame, hunfinished]
    rfl
  · have hsame : engine.stop.desk.report report = engine.desk.report report := alike_stop hwaiting
    have hfinished : (engine.desk.report report).finished = true := Bool.toNat_eq_one.mp hends
    rw [hsame, if_pos hfinished]

/-- A walk whose command waits when the engine stops is not over, and nothing is found for it. -/
theorem report_stop_of_queued {first : Engine σ} (h : first.Sound start)
    (hreaches : first.Reaches engine) (hnew : ¬ first.desk.Knows (.report report))
    (hqueued : engine.queued (.report report) ≠ []) :
    (engine.stop.desk.report report).finished = false ∧
      (engine.stop.desk.report report).objects = [] := by
  have hsound := h.of_reaches hreaches
  obtain ⟨hknows, hstart⟩ := hsound.current (.report report) (.inl hqueued)
  have honce := hsound.once (.report report) hknows hstart
  have hpos := List.length_pos_iff.mpr hqueued
  have hwaiting : engine.waiting (.report report) = [] :=
    List.length_eq_zero_iff.mp (by omega)
  have hsame : engine.stop.desk.report report = engine.desk.report report := alike_stop hwaiting
  rw [hsame]
  rcases h.report_of_queued hreaches hnew hqueued with hempty | hempty <;> rw [hempty] <;>
    exact ⟨rfl, rfl⟩

/-- The holder of a ticket who has got no outcome when the engine stops gets none but the failure
that the engine is gone. -/
theorem answers_stop (h : engine.Sound start) (ticket : Ticket) :
    (engine.stop.desk.answers ticket).head?.getD (.failure .stopped) =
      (engine.desk.answers ticket).head?.getD (.failure .stopped) := by
  cases hwaiting : engine.waiting (.ticket ticket) with
  | nil =>
    have hsame : engine.stop.desk.answers ticket = engine.desk.answers ticket :=
      alike_stop hwaiting
    rw [hsame]
  | cons entry rest =>
    obtain ⟨hknows, hnew⟩ := h.current (.ticket ticket) (.inr (by rw [hwaiting]; nofun))
    have honce := h.once (.ticket ticket) hknows hnew
    rw [hwaiting, List.length_cons] at honce
    obtain rfl : rest = [] := List.length_eq_zero_iff.mp (by omega)
    have hnone : engine.desk.answers ticket = [] :=
      List.length_eq_zero_iff.mp (show engine.desk.ends (.ticket ticket) = 0 by omega)
    obtain ⟨hclient, middle, -, hsame, hcancelled⟩ := exists_cancel_of_stop hwaiting
    have hticket := Responder.eq_ticket_of_client_eq hclient
    have hsame : middle.desk.answers ticket = engine.desk.answers ticket := hsame
    have hcancelled : engine.stop.desk.answers ticket =
        (middle.cancel entry).desk.answers ticket := hcancelled
    rw [hcancelled, cancel, hticket, Desk.answers_leave, if_pos rfl, hsame, hnone]
    rfl

end Sound

end Engine

end Fieldbus
