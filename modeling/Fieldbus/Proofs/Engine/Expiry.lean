import Fieldbus.Proofs.Engine.Lifetime
import Fieldbus.Proofs.Engine.Spared

/-!
# Requests whose time is up

From time to time an engine looks which requests have waited too long.  It notes their ids first and
then gives up the request under one id after the other.  No walk goes on after a failure, so nothing
is sent meanwhile and no id that was noted comes to mean another request: what is given up is what
was too old at the look, in whatever order the ids are taken.

## Main definitions

* `Pending.age`: how long a request has waited.
* `Engine.giveUpAt`: the request under an id is given up.
* `Desk.Failed`: a responder has got one failure.
* `Engine.Expires`: exactly the requests above an age are given up.

## Main results

* `Engine.foldl_giveUpAt`: ids noted first mean the same requests to the end.
* `Desk.failed_failAll`: each of some clients gets its failure once, and no other notices.
* `Engine.expires_in_any_order`: an engine gives up exactly the requests that have waited too long.
-/

namespace Fieldbus

/-- How long a request has waited at a time. -/
def Pending.age (entry : Pending) (clock : Nat) : Nat := clock - entry.sentAt

/-- A failure finishes the report of a walk, and is its cause unless the caller no longer waits. -/
theorem Walk.report_failure {report : WalkReport} (h : report.error = none) (walk : Walk)
    (cause : Failure) :
    (walk.onReply (.failure cause) report).2 =
      { report with
        error := if report.abandoned then none else some (.failure cause)
        finished := true } := by
  obtain ⟨objects, error, finished, abandoned⟩ := report
  obtain rfl : error = none := h
  cases abandoned <;> rfl

/-! ### What a failure does on the desk -/

namespace Desk

/-- The desk with a failure for each of some responders. -/
def failAll (desk : Desk) (cause : Failure) (responders : List Responder) : Desk :=
  responders.foldl (fun desk responder => desk.fail responder cause) desk

/-- Whether a responder has got a failure, and that only. -/
def Failed (desk : Desk) (cause : Failure) (responder : Responder) (after : Desk) : Prop :=
  match responder with
  | .ticket ticket => after.answers ticket = desk.answers ticket ++ [.failure cause]
  | .walk walk =>
    after.report walk.report = (walk.onReply (.failure cause) (desk.report walk.report)).2

variable {desk middle after : Desk} {responder : Responder} {cause : Failure}

theorem failed_fail (hknows : desk.Knows responder.client) (cause : Failure) :
    desk.Failed cause responder (desk.fail responder cause) := by
  cases responder with
  | ticket ticket => exact (desk.answers_leave ticket _ ticket).trans (by rw [if_pos rfl])
  | walk walk => exact report_mapReport_self hknows _

theorem Failed.trans_alike (h : desk.Failed cause responder middle)
    (h' : middle.Alike responder.client after) : desk.Failed cause responder after := by
  cases responder with
  | ticket ticket => exact Eq.trans h' h
  | walk walk => exact Eq.trans h' h

theorem Alike.trans_failed (h : desk.Alike responder.client middle)
    (h' : middle.Failed cause responder after) : desk.Failed cause responder after := by
  cases responder with
  | ticket ticket => exact Eq.trans h' (congrArg (· ++ [.failure cause]) h)
  | walk walk => exact Eq.trans h' (congrArg (fun report => (walk.onReply _ report).2) h)

variable {responders : List Responder} {client : Client}

theorem alike_failAll (desk : Desk) (cause : Failure)
    (h : client ∉ responders.map Responder.client) :
    desk.Alike client (desk.failAll cause responders) := by
  induction responders generalizing desk with
  | nil => exact .refl client desk
  | cons responder rest ih =>
    rw [List.map_cons, List.mem_cons, not_or] at h
    exact ((desk.touches_fail responder cause).alike (Ne.symm h.1)).trans (ih _ h.2)

/-- Each of some clients gets its failure once. -/
theorem failed_failAll (desk : Desk) (cause : Failure)
    (hclients : (responders.map Responder.client).Nodup)
    (hknows : ∀ responder ∈ responders, desk.Knows responder.client)
    (hresponder : responder ∈ responders) :
    desk.Failed cause responder (desk.failAll cause responders) := by
  induction responders generalizing desk with
  | nil => cases hresponder
  | cons first rest ih =>
    rw [List.map_cons, List.nodup_cons] at hclients
    have htouches := desk.touches_fail first cause
    rcases List.mem_cons.mp hresponder with rfl | hrest
    · exact (failed_fail (hknows responder List.mem_cons_self) cause).trans_alike
        (alike_failAll _ cause hclients.1)
    · have hne : first.client ≠ responder.client := fun heq =>
        hclients.1 (heq ▸ List.mem_map_of_mem hrest)
      refine (htouches.alike hne).trans_failed (ih _ hclients.2 (fun other hother => ?_) hrest)
      exact (htouches.knows_iff _).mpr (hknows other (List.mem_cons_of_mem _ hother))

theorem failAll_counts (desk : Desk) (cause : Failure) (responders : List Responder) :
    (desk.failAll cause responders).tickets = desk.tickets ∧
      (desk.failAll cause responders).reports.length = desk.reports.length ∧
      (desk.failAll cause responders).windows = desk.windows := by
  induction responders generalizing desk with
  | nil => exact ⟨rfl, rfl, rfl⟩
  | cons responder rest ih =>
    have htouches := desk.touches_fail responder cause
    obtain ⟨htickets, hreports, hwindows⟩ := ih (desk.fail responder cause)
    exact ⟨htickets.trans htouches.tickets, hreports.trans htouches.length_reports,
      hwindows.trans htouches.windows⟩

end Desk

namespace Engine

variable {σ : Type}

theorem isOverdue_iff {engine : Engine σ} {entry : Pending} :
    engine.isOverdue entry = true ↔
      engine.timing.apduTimeout.toNat < entry.age engine.clock := by
  rw [isOverdue, decide_eq_true_iff, Pending.age, Nat.lt_sub_iff_add_lt']

/-- The engine with another time after which a request has waited too long. -/
def limited (engine : Engine σ) (limit : UInt64) : Engine σ :=
  { engine with timing := { engine.timing with apduTimeout := limit } }

/-- An engine after it has given up exactly the requests above an age. -/
structure Expires (engine : Engine σ) (limit : Nat) (after : Engine σ) : Prop where
  /-- The requests above the age wait no more, and the others wait as before, in their order.
  Nothing else changes but the desk: neither the link nor the cursor, the commands or the clock. -/
  frame : after =
    { engine with
      pending := engine.pending.filter fun entry => entry.age engine.clock ≤ limit
      desk := after.desk }
  counts : after.desk.tickets = engine.desk.tickets ∧
    after.desk.reports.length = engine.desk.reports.length ∧
    after.desk.windows = engine.desk.windows
  /-- The holder of a ticket, who had no outcome, has one. -/
  ticket : ∀ entry ∈ engine.pending, limit < entry.age engine.clock →
    ∀ ticket, entry.responder = .ticket ticket →
      engine.desk.answers ticket = [] ∧ after.desk.answers ticket = [.failure .timeout]
  /-- A walk, which was going on without a cause to end, is finished with what it had found, and
  with the cause unless its caller no longer waits. -/
  walk : ∀ entry ∈ engine.pending, limit < entry.age engine.clock →
    ∀ walk, entry.responder = .walk walk →
      let report := engine.desk.report walk.report
      report.finished = false ∧ report.error = none ∧
        after.desk.report walk.report =
          { report with
            error := if report.abandoned then none else some (.failure .timeout)
            finished := true }
  /-- Every other client sees what it saw before. -/
  spared : ∀ client,
    (∀ entry ∈ engine.pending, entry.responder.client = client →
      entry.age engine.clock ≤ limit) →
    engine.desk.Alike client after.desk

variable [Link σ]

/-- Gives up the request that waits under an id, if one does. -/
def giveUpAt (engine : Engine σ) (id : InvokeId) : Engine σ :=
  match engine.pending? id with
  | none => engine
  | some entry => engine.giveUp entry

/-! ### Giving up one request after the other -/

/-- Giving up requests drops what waits under their ids, and their responders fail. -/
theorem foldl_giveUp (engine : Engine σ) (entries : List Pending) :
    entries.foldl giveUp engine =
      { engine with
        pending := engine.pending.filter fun entry => entry.id ∉ entries.map Pending.id
        desk := engine.desk.failAll .timeout (entries.map Pending.responder) } := by
  induction entries generalizing engine with
  | nil =>
    have hpending : engine.pending.filter (fun entry => entry.id ∉ [].map Pending.id) =
        engine.pending := by simp
    rw [hpending]
    rfl
  | cons first rest ih =>
    have hpending : (engine.release first.id).pending.filter
          (fun entry => entry.id ∉ rest.map Pending.id) =
        engine.pending.filter fun entry => entry.id ∉ (first :: rest).map Pending.id := by
      change (engine.pending.filter _).filter _ = _
      rw [List.filter_filter]
      refine List.filter_congr fun entry _ => Bool.eq_iff_iff.mpr ?_
      simp [and_comm]
    rw [List.foldl_cons, ih, giveUp_eq, ← hpending]
    rfl

/-- Where ids are noted first, the request found under each is the one that it was noted for. -/
theorem foldl_giveUpAt (engine : Engine σ) {entries : List Pending}
    (hids : (engine.pending.map Pending.id).Nodup) (hnodup : (entries.map Pending.id).Nodup)
    (hentries : ∀ entry ∈ entries, entry ∈ engine.pending) :
    (entries.map Pending.id).foldl giveUpAt engine = entries.foldl giveUp engine := by
  induction entries generalizing engine with
  | nil => rfl
  | cons first rest ih =>
    rw [List.map_cons, List.nodup_cons] at hnodup
    have hfound : engine.giveUpAt first.id = engine.giveUp first := by
      rw [giveUpAt, Worker.pending?_eq_some hids (hentries first List.mem_cons_self)]
    have hpending : (engine.giveUp first).pending = (engine.drop first.id).pending := by
      rw [giveUp_eq]
      rfl
    rw [List.map_cons, List.foldl_cons, List.foldl_cons, hfound]
    refine ih _ ?_ hnodup.2 fun other hother => ?_
    · rw [hpending]
      exact hids.sublist (List.filter_sublist.map _)
    · have hne : other.id ≠ first.id := fun heq =>
        hnodup.1 (heq ▸ List.mem_map_of_mem hother)
      rw [hpending]
      exact List.mem_filter.mpr
        ⟨hentries other (List.mem_cons_of_mem _ hother), by simpa using hne⟩

omit [Link σ] in
/-- Where ids are distinct, dropping the ids of some requests drops these requests only. -/
theorem pending_of_ids {pending order : List Pending} (hids : (pending.map Pending.id).Nodup)
    {chosen : Pending → Prop} [DecidablePred chosen]
    (horder : ∀ entry, entry ∈ order ↔ entry ∈ pending ∧ chosen entry) :
    (pending.filter fun entry => entry.id ∉ order.map Pending.id) =
      pending.filter fun entry => ¬ chosen entry := by
  refine List.filter_congr fun entry hentry => decide_eq_decide.mpr (not_congr ?_)
  constructor
  · intro hid
    obtain ⟨other, hother, hsame⟩ := List.mem_map.mp hid
    obtain ⟨hwaits, hchosen⟩ := (horder other).mp hother
    exact List.inj_on_of_nodup_map hids hwaits hentry hsame ▸ hchosen
  · exact fun hchosen => List.mem_map_of_mem ((horder entry).mpr ⟨hentry, hchosen⟩)

/-! ### Exactly the overdue requests -/

namespace Sound

variable {engine : Engine σ} {start : Desk}

omit [Link σ] in
theorem nodup_clients (h : engine.Sound start) :
    (engine.pending.map fun entry => entry.responder.client).Nodup :=
  List.Nodup.map_on (fun _ hentry _ hother hclient =>
    h.eq_of_client_eq hother hentry hclient) (List.Nodup.of_map _ h.ids)

theorem knows_of_mem_pending (h : engine.Sound start) {entry : Pending}
    (hentry : entry ∈ engine.pending) :
    engine.desk.Knows entry.responder.client ∧ ¬ start.Knows entry.responder.client ∧
      engine.desk.ends entry.responder.client = 0 :=
  have htaken := h.of_takes (takes_settling hentry .obey)
  ⟨htaken.1, htaken.2.1, htaken.2.2.1⟩

/-- The walk of a request that waits has not met a cause to end. -/
theorem error_eq_none_of_mem_pending {first : Engine σ} (h : first.Sound start)
    (hstart : first.desk = start) (hreaches : first.Reaches engine) {entry : Pending}
    (hentry : entry ∈ engine.pending) {walk : Walk} (hwalk : entry.responder = .walk walk) :
    (engine.desk.report walk.report).finished = false ∧
      (engine.desk.report walk.report).error = none := by
  obtain ⟨hknows, hnew, hends⟩ := (h.of_reaches hreaches).knows_of_mem_pending hentry
  rw [hwalk] at hknows hnew hends
  obtain ⟨destination, device, history, hlives⟩ :=
    exists_lives h hreaches (hstart ▸ hnew) hknows
  have huntroubled := (Course.untroubled_begin (.onDevice destination device walk.report)).after
    history
  have hfinished : (engine.desk.report walk.report).finished = false := Bool.toNat_eq_zero.mp hends
  rw [hlives.found] at hfinished ⊢
  exact ⟨hfinished, huntroubled hfinished⟩

omit [Link σ] in
theorem limited (h : engine.Sound start) (limit : UInt64) : (engine.limited limit).Sound start :=
  ⟨h.desk, h.grows, h.ids, h.addressed, h.commanded, h.current, h.once⟩

/-- Where some of the requests that wait fail, in whatever order, each responder gets its failure
once. -/
theorem failed_of_perm (h : engine.Sound start) {order chosen : List Pending}
    (horder : order.Perm chosen) (hchosen : chosen.Sublist engine.pending) {entry : Pending}
    (hentry : entry ∈ order) (cause : Failure) :
    engine.desk.Failed cause entry.responder
      (engine.desk.failAll cause (order.map Pending.responder)) := by
  have hclients : ((order.map Pending.responder).map Responder.client).Nodup := by
    rw [List.map_map]
    exact (horder.map _).nodup_iff.mpr (h.nodup_clients.sublist (hchosen.map _))
  refine Desk.failed_failAll _ _ hclients (fun responder hresponder => ?_)
    (List.mem_map_of_mem hentry)
  obtain ⟨other, hother, rfl⟩ := List.mem_map.mp hresponder
  exact (h.knows_of_mem_pending (hchosen.subset (horder.mem_iff.mp hother))).1

/-- Giving up the overdue requests in any order gives up exactly these. -/
theorem expires (h : engine.Sound start)
    (hgoing : ∀ entry ∈ engine.pending, ∀ walk, entry.responder = .walk walk →
      (engine.desk.report walk.report).finished = false ∧
        (engine.desk.report walk.report).error = none)
    {order : List Pending} (horder : order.Perm (engine.pending.filter engine.isOverdue)) :
    engine.Expires engine.timing.apduTimeout.toNat
      ((order.map Pending.id).foldl giveUpAt engine) := by
  have hmem : ∀ entry, entry ∈ order ↔ entry ∈ engine.pending ∧
      engine.timing.apduTimeout.toNat < entry.age engine.clock := fun entry => by
    rw [horder.mem_iff, List.mem_filter, isOverdue_iff]
  have hchosen : (engine.pending.filter engine.isOverdue).Sublist engine.pending :=
    List.filter_sublist
  have hids : (order.map Pending.id).Nodup :=
    (horder.map _).nodup_iff.mpr (h.ids.sublist (hchosen.map _))
  have hpending := pending_of_ids h.ids hmem
  simp only [Nat.not_lt] at hpending
  rw [foldl_giveUpAt engine h.ids hids fun entry hentry => ((hmem entry).mp hentry).1,
    foldl_giveUp, hpending]
  refine ⟨rfl, engine.desk.failAll_counts _ _, ?_, ?_, ?_⟩
  · intro entry hentry hage ticket hticket
    have hends := (h.knows_of_mem_pending hentry).2.2
    have hone := h.failed_of_perm horder hchosen ((hmem entry).mpr ⟨hentry, hage⟩) .timeout
    rw [hticket] at hends hone
    have hnone : engine.desk.answers ticket = [] := List.length_eq_zero_iff.mp hends
    exact ⟨hnone, Eq.trans hone (by rw [hnone, List.nil_append])⟩
  · intro entry hentry hage walk hwalk
    obtain ⟨hfinished, herror⟩ := hgoing entry hentry walk hwalk
    have hone := h.failed_of_perm horder hchosen ((hmem entry).mpr ⟨hentry, hage⟩) .timeout
    rw [hwalk] at hone
    exact ⟨hfinished, herror, Eq.trans hone (walk.report_failure herror .timeout)⟩
  · intro client hclient
    refine engine.desk.alike_failAll _ fun hmapped => ?_
    rw [List.map_map] at hmapped
    obtain ⟨entry, hentry, hsame⟩ := List.mem_map.mp hmapped
    obtain ⟨hwaits, hage⟩ := (hmem entry).mp hentry
    exact absurd (hclient entry hwaits hsame) (Nat.not_le.mpr hage)

end Sound

/-- **An engine gives up exactly the requests that have waited too long.**  At every point of a run
and for every limit, the ids noted first and taken one after the other, in whatever order, come to
the same: the requests above the limit wait no more, and every other request waits as it did, under
its id, for its station, since its time and for its responder.  Each holder of a ticket among those
given up gets one outcome, and each walk is finished with what it had found.  Nothing is sent and
nothing else changes. -/
theorem expires_in_any_order (shared : Shared σ) (hdesk : shared.desk.Sound)
    (identity : LocalDevice) (timing : Timing) {engine : Engine σ}
    (hreaches : (launch shared identity timing).Reaches engine) (limit : UInt64) :
    let checked := engine.limited limit
    let overdue := checked.pending.filter checked.isOverdue
    checked.expire = (overdue.map Pending.id).foldl giveUpAt checked ∧
      ∀ order : List Pending, order.Perm overdue →
        checked.Expires limit.toNat ((order.map Pending.id).foldl giveUpAt checked) := by
  have hlaunch := Sound.of_launch shared hdesk identity timing
  have hsound := (hlaunch.of_reaches hreaches).limited limit
  refine ⟨?_, fun order horder => hsound.expires (fun entry hentry walk hwalk =>
    hlaunch.error_eq_none_of_mem_pending rfl hreaches hentry hwalk) horder⟩
  exact (foldl_giveUpAt _ hsound.ids (hsound.ids.sublist (List.filter_sublist.map _))
    fun entry hentry => (List.mem_filter.mp hentry).1).symm

/-- A request and a walk, the one begun five seconds after the other, wait on an empty segment.  The
request alone is given up as long as the walk may wait, and afterwards both, the walk first. -/
theorem expires_in_any_order_on_empty_segment :
    let shared : Shared Simulation.Segment := ⟨{}, 0, .empty, {}⟩
    let engine := launch shared ⟨⟨.device, 599⟩, "", 1024, .none, 15⟩ {}
    let asked := engine.perform (.ask 5 (.read ⟨⟨.device, 8⟩, .objectList, some 0⟩))
    let sent := { asked with commands := [] }.handle
      (.request 5 (.read ⟨⟨.device, 8⟩, .objectList, some 0⟩) (.ticket 0))
    let begun := (sent.perform (.pass 5000)).perform (.enumerate 5 8)
    let going := { begun with commands := [] }.handle
      (.request 5 (.read ⟨⟨.device, 8⟩, .objectList, some 0⟩) (.walk (.onDevice 5 8 0)))
    let waited := going.perform (.pass 3000)
    let both := (waited.pending.reverse.map Pending.id).foldl giveUpAt
      (waited.limited 1000)
    engine.desk.Sound ∧ engine.Reaches waited ∧
      (waited.limited 3500).expire.desk.answers 0 = [.failure .timeout] ∧
      (waited.limited 3500).expire.desk.report 0 = {} ∧
      both.pending = [] ∧ both.desk.answers 0 = [.failure .timeout] ∧
      both.desk.report 0 = { error := some (.failure .timeout), finished := true } := by
  intro shared engine asked sent begun going waited both
  have hdesk : engine.desk.Sound := Desk.sound_empty
  have hreaches : engine.Reaches waited :=
    .tail (.tail (.tail (.tail (.tail (.single ⟨_, .act engine _⟩) ⟨_, .obey rfl (by decide)⟩)
      ⟨_, .act _ _⟩) ⟨_, .act _ _⟩) ⟨_, .obey rfl (by decide)⟩) ⟨_, .act _ _⟩
  obtain ⟨hfirst, horder⟩ := expires_in_any_order shared hdesk _ _ hreaches 3500
  have hone := horder _ (.refl _)
  rw [← hfirst] at hone
  have hall : waited.pending =
      (waited.limited 1000).pending.filter (waited.limited 1000).isOverdue := by decide +kernel
  have hboth : (waited.limited 1000).Expires 1000 both :=
    (expires_in_any_order shared hdesk _ _ hreaches 1000).2 _
      ((List.reverse_perm _).trans (.of_eq hall))
  refine ⟨hdesk, hreaches, (hone.ticket _ List.mem_cons_self (by decide +kernel) 0 rfl).2, ?_, ?_,
    (hboth.ticket _ List.mem_cons_self (by decide +kernel) 0 rfl).2,
    (hboth.walk _ (List.mem_cons_of_mem _ List.mem_cons_self) (by decide +kernel) _ rfl).2.2⟩
  · exact hone.spared (.report 0) (by decide)
  · rw [hboth.frame]
    decide +kernel

end Engine

end Fieldbus
