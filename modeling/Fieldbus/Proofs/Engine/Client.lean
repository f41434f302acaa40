import Mathlib.Data.List.Nodup
import Fieldbus.Engine.Basic

/-!
# The clients of an engine

A confirmed request is made for a client: the holder of a ticket, or the walk that fills a report.
Whatever an engine does with the request, the client stays the same, so the state of the engine
falls into one part for each client: the commands that wait for the engine, the requests that wait
for an answer, and what lies on the desk.

## Main definitions

* `Client`: whom a request is made for.
* `Worker.queued`, `Worker.waiting`: the commands and the pending requests of a client.
* `Desk.answers`: the outcomes left under a ticket.
* `Desk.Touches`: changes of the desk that only one client can notice.
* `Desk.fail`: the desk with a failure for a responder.
-/

namespace Fieldbus

/-- Whom a confirmed request is made for. -/
inductive Client where
  /-- The holder of a ticket, who gets one outcome. -/
  | ticket (ticket : Ticket)
  /-- The walk that fills a report, which is finished once. -/
  | report (report : WalkId)
  deriving DecidableEq, Repr

/-- The client whom an outcome is handed to. -/
def Responder.client : Responder → Client
  | .ticket number => .ticket number
  | .walk course => .report course.report

/-- The client whom a command makes a request for. -/
def Command.client? : Command → Option Client
  | .request _ _ responder => some responder.client
  | _ => none

namespace Worker

/-- The commands of a client that are still to be carried out. -/
def queued (worker : Worker) (client : Client) : List Command :=
  worker.commands.filter fun command => command.client? = some client

/-- The requests of a client that wait for their answer. -/
def waiting (worker : Worker) (client : Client) : List Pending :=
  worker.pending.filter fun entry => entry.responder.client = client

variable {worker : Worker} {client : Client}

theorem mem_waiting {entry : Pending} :
    entry ∈ worker.waiting client ↔ entry ∈ worker.pending ∧ entry.responder.client = client := by
  simp [waiting]

theorem mem_queued {command : Command} :
    command ∈ worker.queued client ↔
      command ∈ worker.commands ∧ command.client? = some client := by
  simp [queued]

theorem isBusy_eq_false_iff {id : InvokeId} :
    worker.isBusy id = false ↔ id ∉ worker.pending.map Pending.id := by
  simp [isBusy]

theorem isBusy_of_takeId? {id : InvokeId} {after : Worker}
    (h : worker.takeId? = some (id, after)) : worker.isBusy id = false := by
  obtain ⟨free, hfree, heq⟩ := Option.map_eq_some_iff.mp h
  exact (Prod.mk.inj heq).1 ▸ not_busy_of_firstFree hfree

theorem eq_of_takeId? {id : InvokeId} {after : Worker}
    (h : worker.takeId? = some (id, after)) : after = { worker with cursor := id + 1 } := by
  obtain ⟨free, -, heq⟩ := Option.map_eq_some_iff.mp h
  obtain ⟨rfl, rfl⟩ := Prod.mk.inj heq
  rfl

/-- Ids that are tried in vain are busy. -/
theorem busy_of_firstFree_eq_none {busy : InvokeId → Bool} {count : Nat} {id : InvokeId}
    (h : firstFree busy count id = none) {offset : Nat} (hoffset : offset < count) :
    busy (id + UInt8.ofNat offset) = true := by
  induction count generalizing id offset with
  | zero => omega
  | succ count ih =>
    rw [firstFree] at h
    split at h
    · rename_i hbusy
      cases offset with
      | zero => simpa using hbusy
      | succ offset =>
        have hnext : id + UInt8.ofNat (offset + 1) = id + 1 + UInt8.ofNat offset := by
          rw [UInt8.ofNat_add, UInt8.add_assoc, UInt8.add_comm (UInt8.ofNat offset)]
          rfl
        rw [hnext]
        exact ih h (by omega)
    · cases h

theorem exists_takeId?_eq_some {id : InvokeId} (h : worker.isBusy id = false) :
    ∃ taken, worker.takeId? = some taken := by
  cases hfree : firstFree worker.isBusy invokeIds worker.cursor with
  | none =>
    have hbusy := busy_of_firstFree_eq_none hfree (id - worker.cursor).toNat_lt
    rw [UInt8.ofNat_toNat, UInt8.add_comm, UInt8.sub_add_cancel, h] at hbusy
    cases hbusy
  | some free =>
    exact ⟨_, by rw [takeId?, hfree, Option.map_some]⟩

theorem mem_of_pending? {id : InvokeId} {entry : Pending} (h : worker.pending? id = some entry) :
    entry ∈ worker.pending ∧ entry.id = id :=
  ⟨List.mem_of_find?_eq_some h, by simpa using List.find?_some h⟩

theorem waiting_drop_of_ne {entry : Pending} (hnodup : (worker.pending.map Pending.id).Nodup)
    (hentry : entry ∈ worker.pending) (hne : entry.responder.client ≠ client) :
    (worker.drop entry.id).waiting client = worker.waiting client := by
  rw [waiting, waiting, drop, List.filter_filter]
  apply List.filter_congr
  intro other hother
  by_cases hclient : other.responder.client = client
  · have hid : other.id ≠ entry.id := fun hid =>
      hne (List.inj_on_of_nodup_map hnodup hother hentry hid ▸ hclient)
    simp [hclient, hid]
  · simp [hclient]

end Worker

namespace Desk

variable {desk after : Desk}

/-- The outcomes left under a ticket. -/
def answers (desk : Desk) (ticket : Ticket) : List Outcome :=
  (desk.outcomes.filter fun entry => entry.1 = ticket).map Prod.snd

/-- How often a client has got its end: a ticket with every outcome, a report once it is
finished. -/
def ends (desk : Desk) : Client → Nat
  | .ticket ticket => (desk.answers ticket).length
  | .report report => (desk.report report).finished.toNat

/-- Whether a desk has given out a ticket or opened a report. -/
def Knows (desk : Desk) : Client → Prop
  | .ticket ticket => ticket < desk.tickets
  | .report report => report < desk.reports.length

/-- Whether outcomes are left only under tickets that were given out. -/
def Sound (desk : Desk) : Prop := ∀ ticket, desk.tickets ≤ ticket → desk.answers ticket = []

theorem sound_empty : ({} : Desk).Sound := fun _ _ => rfl

/-- The desk after changes that no other client than one can notice. -/
structure Touches (desk : Desk) (client : Client) (after : Desk) : Prop where
  tickets : after.tickets = desk.tickets
  length_reports : after.reports.length = desk.reports.length
  windows : after.windows = desk.windows
  answers_of_ne : ∀ ticket, client ≠ .ticket ticket → after.answers ticket = desk.answers ticket
  report_of_ne : ∀ report, client ≠ .report report → after.report report = desk.report report

theorem answers_leave (desk : Desk) (ticket : Ticket) (outcome : Outcome) (other : Ticket) :
    (desk.leave ticket outcome).answers other =
      desk.answers other ++ if ticket = other then [outcome] else [] := by
  by_cases h : ticket = other <;> simp [answers, leave, h]

theorem report_mapReport_self {report : WalkId} (h : report < desk.reports.length)
    (change : WalkReport → WalkReport) :
    (desk.mapReport report change).report report = change (desk.report report) := by
  simp [Desk.report, mapReport, List.getD, List.getElem?_eq_getElem h]

theorem mapReport_const (desk : Desk) (report : WalkId) (change : WalkReport → WalkReport) :
    desk.mapReport report (fun _ => change (desk.report report)) =
      desk.mapReport report change := by
  by_cases h : report < desk.reports.length
  · rw [mapReport, mapReport, Desk.report, List.getD_eq_getElem?_getD, List.getElem?_eq_getElem h,
      List.modify_eq_set_getElem?, List.modify_eq_set_getElem?, List.getElem?_eq_getElem h]
    rfl
  · have hnone := Nat.le_of_not_lt h
    rw [mapReport, mapReport, List.modify_eq_self hnone, List.modify_eq_self hnone]

/-- Where one report is changed, each is as it was or is changed. -/
theorem report_mapReport (desk : Desk) (report : WalkId) (change : WalkReport → WalkReport)
    (other : WalkId) :
    (desk.mapReport report change).report other = desk.report other ∨
      (desk.mapReport report change).report other = change (desk.report other) := by
  by_cases hother : other = report
  · subst hother
    by_cases hknows : other < desk.reports.length
    · exact .inr (report_mapReport_self hknows change)
    · left
      rw [mapReport, List.modify_eq_self (Nat.le_of_not_lt hknows)]
  · exact .inl (report_mapReport_of_ne hother desk change)

/-- A change that leaves open whether the caller waits does so for every report. -/
theorem abandoned_mapReport {desk : Desk} {report : WalkId} {change : WalkReport → WalkReport}
    (h : (change (desk.report report)).abandoned = (desk.report report).abandoned)
    (other : WalkId) :
    ((desk.mapReport report change).report other).abandoned = (desk.report other).abandoned := by
  by_cases hother : other = report
  · subst hother
    by_cases hknows : other < desk.reports.length
    · rw [report_mapReport_self hknows, h]
    · rw [mapReport, List.modify_eq_self (Nat.le_of_not_lt hknows)]
  · rw [report_mapReport_of_ne hother]

theorem touches_leave (desk : Desk) (ticket : Ticket) (outcome : Outcome) :
    desk.Touches (.ticket ticket) (desk.leave ticket outcome) where
  tickets := rfl
  length_reports := rfl
  windows := rfl
  answers_of_ne other hne := by
    have hother : ticket ≠ other := fun heq => hne (congrArg Client.ticket heq)
    rw [answers_leave, if_neg hother, List.append_nil]
  report_of_ne _ _ := rfl

theorem touches_mapReport (desk : Desk) (report : WalkId) (change : WalkReport → WalkReport) :
    desk.Touches (.report report) (desk.mapReport report change) where
  tickets := rfl
  length_reports := by simp [mapReport]
  windows := rfl
  answers_of_ne _ _ := rfl
  report_of_ne _ hne :=
    report_mapReport_of_ne (fun heq => hne (congrArg Client.report heq.symm)) desk change

/-- The desk with a failure for a responder. -/
def fail (desk : Desk) (responder : Responder) (cause : Failure) : Desk :=
  match responder with
  | .ticket ticket => desk.leave ticket (.failure cause)
  | .walk walk =>
    desk.mapReport walk.report fun report => (walk.onReply (.failure cause) report).2

theorem touches_fail (desk : Desk) (responder : Responder) (cause : Failure) :
    desk.Touches responder.client (desk.fail responder cause) := by
  cases responder with
  | ticket ticket => exact desk.touches_leave ticket _
  | walk walk => exact desk.touches_mapReport walk.report _

namespace Touches

variable {client : Client}

theorem refl (desk : Desk) (client : Client) : desk.Touches client desk :=
  ⟨rfl, rfl, rfl, fun _ _ => rfl, fun _ _ => rfl⟩

theorem trans {middle : Desk} (h : desk.Touches client middle) (h' : middle.Touches client after) :
    desk.Touches client after where
  tickets := h'.tickets.trans h.tickets
  length_reports := h'.length_reports.trans h.length_reports
  windows := h'.windows.trans h.windows
  answers_of_ne ticket hne := (h'.answers_of_ne ticket hne).trans (h.answers_of_ne ticket hne)
  report_of_ne report hne := (h'.report_of_ne report hne).trans (h.report_of_ne report hne)

theorem knows_iff (h : desk.Touches client after) (other : Client) :
    after.Knows other ↔ desk.Knows other := by
  cases other <;> simp [Knows, h.tickets, h.length_reports]

theorem ends_of_ne (h : desk.Touches client after) {other : Client} (hne : client ≠ other) :
    after.ends other = desk.ends other := by
  cases other with
  | ticket ticket => rw [ends, ends, h.answers_of_ne ticket hne]
  | report report => rw [ends, ends, h.report_of_ne report hne]

theorem sound (h : desk.Touches client after) (hknows : desk.Knows client) (hsound : desk.Sound) :
    after.Sound := by
  intro ticket hticket
  rw [h.tickets] at hticket
  have hne : client ≠ .ticket ticket := by
    rintro rfl
    exact absurd hknows (Nat.not_lt.mpr hticket)
  rw [h.answers_of_ne ticket hne]
  exact hsound ticket hticket

end Touches

end Desk

end Fieldbus
