import Mathlib.Data.List.Perm.Subperm
import Fieldbus.Proofs.Engine.FreeId
import Fieldbus.Proofs.Engine.Turn
import Fieldbus.Proofs.Link.Recorded
import Fieldbus.Simulation.Segment

/-!
# Ids in rotation

In a run of an engine the search for a free id goes on each time where it ended the time before.  So
the ids that the cursor comes to in the whole run follow each other, round and round, and no id is
given out again before the cursor has come to all others.  A walk that goes on has just given its id
back, and finds at least that one free.

## Main definitions

* `Engine.seeker?`: where an id is looked for in a step.
* `Engine.Searches`: a run, with the ids that the cursor comes to.
* `Engine.Searched`: what a search changes.
* `Engine.HandsOver`: an engine that has handed a request to the link.

## Main results

* `Engine.reaches_iff_exists_searches`: every run is one with the ids that the cursor comes to.
* `Engine.completion_handsOver`: a walk that goes on gets an id.
* `Engine.Step.searched`: a step moves the cursor by as many ids as it looks at.
* `Engine.Searches.rotates`: the ids that the cursor comes to in a run follow each other.
* `Engine.exists_searches_range`: requests one after the other are given all ids in turn.
* `Engine.ids_rotate`: the ids are given out in rotation.
-/

namespace Fieldbus.Engine

variable {σ : Type}

/-! ### Where an id is looked for -/

/-- Whether a responder makes another request when it gets an outcome. -/
def goesOn (engine : Engine σ) (outcome : Outcome) : Responder → Bool
  | .ticket _ => false
  | .walk walk => (walk.onReply outcome (engine.desk.report walk.report)).1.isSome

/-- What an engine has of its own when it looks for an id because a walk goes on whose request is
answered: the request waits no more. -/
def follower? (engine : Engine σ) (source : Mac) (id : InvokeId) (outcome : Outcome) :
    Option Worker :=
  (engine.pending? id).bind fun entry =>
    if entry.destination = source ∧ engine.goesOn outcome entry.responder = true then
      some (engine.drop id)
    else none

variable [Link σ]

/-- What an engine has of its own when it looks for an id in a step, if it does: because a command
makes a request, or because a walk goes on. -/
def seeker? (engine : Engine σ) : Event → Option Worker
  | .obey =>
    match engine.commands with
    | .request _ _ _ :: rest => some { engine.toWorker with commands := rest }
    | _ => none
  | .listen =>
    match (Link.receive engine.link).1 with
    | .heard (.completion source id outcome) => engine.follower? source id outcome
    | _ => none
  | .act _ | .giveUp _ | .cancel _ => none

/-- The ids that the cursor passes over in a step, and the one that is given out. -/
def passed (engine : Engine σ) (event : Event) : List Attempt :=
  (engine.seeker? event).elim [] Worker.passed

/-- A run, with the ids that the cursor comes to, the first first. -/
inductive Searches (first : Engine σ) : List Attempt → Engine σ → Prop
  | start : Searches first [] first
  | step {attempts : List Attempt} {before after : Engine σ} {event : Event}
      (hrun : Searches first attempts before) (hstep : Step before event after) :
      Searches first (attempts ++ before.passed event) after

/-- Every run can be seen so. -/
theorem reaches_iff_exists_searches {first later : Engine σ} :
    first.Reaches later ↔ ∃ attempts, Searches first attempts later := by
  constructor
  · intro h
    induction h with
    | refl => exact ⟨[], .start⟩
    | tail _ hstep ih =>
      obtain ⟨event, hstep⟩ := hstep
      obtain ⟨attempts, hrun⟩ := ih
      exact ⟨_, hrun.step hstep⟩
  · rintro ⟨attempts, h⟩
    induction h with
    | start => exact .refl
    | step _ hstep ih => exact .tail ih ⟨_, hstep⟩

/-! ### What a step gives out -/

/-- An engine after a search: the cursor has moved by one id for each look, the ids that are given
out are handed to the link, each with its request, and no two requests wait under one id. -/
structure Searched (before : Engine (Recorded σ)) (attempts : List Attempt)
    (after : Engine (Recorded σ)) : Prop where
  cursor : after.cursor = before.cursor + UInt8.ofNat attempts.length
  dispatched : ∃ dispatches, after.link.log = before.link.log ++ dispatches ∧
    dispatches.map Dispatch.id = (attempts.filter Attempt.given).map Attempt.id
  ids : (before.pending.map Pending.id).Nodup → (after.pending.map Pending.id).Nodup

namespace Searched

variable {before middle after : Engine (Recorded σ)} {attempts : List Attempt}

omit [Link σ] in
/-- Without a search the cursor stays, and nothing is handed to the link. -/
theorem of_nothing (hcursor : after.cursor = before.cursor)
    (hlog : after.link.log = before.link.log) (hpending : after.pending.Sublist before.pending) :
    before.Searched [] after :=
  ⟨hcursor.trans (UInt8.add_zero _).symm, ⟨[], by rw [hlog, List.append_nil], rfl⟩,
    fun hids => hids.sublist (hpending.map _)⟩

omit [Link σ] in
/-- What comes before a search may change all but the cursor and the log, and end requests. -/
theorem of_eq (h : middle.Searched attempts after) (hcursor : middle.cursor = before.cursor)
    (hlog : middle.link.log = before.link.log) (hpending : middle.pending.Sublist before.pending) :
    before.Searched attempts after :=
  ⟨hcursor ▸ h.cursor, hlog ▸ h.dispatched, fun hids => h.ids (hids.sublist (hpending.map _))⟩

omit [Link σ] in
theorem trans {more : List Attempt} (h : before.Searched attempts middle)
    (h' : middle.Searched more after) : before.Searched (attempts ++ more) after := by
  obtain ⟨first, hfirst, hfirstIds⟩ := h.dispatched
  obtain ⟨second, hsecond, hsecondIds⟩ := h'.dispatched
  refine ⟨?_, ⟨first ++ second, by rw [hsecond, hfirst, List.append_assoc], ?_⟩,
    fun hids => h'.ids (h.ids hids)⟩
  · rw [h'.cursor, h.cursor, List.length_append, UInt8.ofNat_add, UInt8.add_assoc]
  · rw [List.map_append, hfirstIds, hsecondIds, List.filter_append, List.map_append]

end Searched

/-! ### Starting a request -/

/-- An engine that has handed a request to the link under the first free id: the request waits for
its answer if the link took it. -/
structure HandsOver (before : Engine (Recorded σ)) (dispatch : Dispatch) (responder : Responder)
    (after : Engine (Recorded σ)) : Prop where
  next : before.IsNext dispatch.id
  cursor : after.cursor = dispatch.id + 1
  log : after.link.log = before.link.log ++ [dispatch]
  pending : after.pending = before.pending ++
    if dispatch.taken = true then
      [⟨dispatch.id, dispatch.destination, before.clock, responder⟩] else []

/-- As long as an id is free a request that is started gets one. -/
theorem exists_handsOver (engine : Engine (Recorded σ)) {given : InvokeId} {worker : Worker}
    (htake : engine.takeId? = some (given, worker)) (destination : Mac)
    (request : ConfirmedRequest) (responder : Responder) :
    ∃ taken, engine.HandsOver ⟨destination, given, request, taken⟩ responder
      (engine.start destination request responder) := by
  have hnext := (Worker.takeId?_eq_some_iff.mp htake).1
  obtain rfl := Worker.eq_of_takeId? htake
  have hsend : Link.sendConfirmed destination given request engine.link =
      Recorded.sendConfirmed destination given request engine.link := rfl
  rw [start, htake]
  simp only [hsend, Recorded.sendConfirmed]
  cases Link.sendConfirmed destination given request engine.link.link with
  | mk result link =>
    cases result with
    | error error =>
      simp only [fail_eq]
      exact ⟨false, hnext, rfl, rfl, (List.append_nil _).symm⟩
    | ok => exact ⟨true, hnext, rfl, rfl, rfl⟩

/-- Without a free id a request that is started fails, and nothing else changes. -/
theorem start_of_none {engine : Engine (Recorded σ)} (htake : engine.takeId? = none)
    (destination : Mac) (request : ConfirmedRequest) (responder : Responder) :
    engine.start destination request responder =
      { engine with desk := engine.desk.fail responder (.link noFreeId) } := by
  rw [start, htake]
  exact engine.fail_eq responder _

/-- **A walk that goes on always gets an id**, as its answered request waits no more. -/
theorem completion_handsOver (engine : Engine (Recorded σ)) {id : InvokeId} {entry : Pending}
    {walk following : Walk} {outcome : Outcome} {request : ConfirmedRequest} {report : WalkReport}
    (hfound : engine.pending? id = some entry) (hwalk : entry.responder = .walk walk)
    (hreply : walk.onReply outcome (engine.desk.report walk.report) =
      (some (request, following), report)) :
    ∃ given taken, (engine.release id).HandsOver ⟨following.destination, given, request, taken⟩
      (.walk following) (engine.completion entry.destination id outcome) := by
  let reported : Engine (Recorded σ) :=
    { engine.release id with desk := engine.desk.mapReport walk.report fun _ => report }
  have hcompletion : engine.completion entry.destination id outcome =
      reported.start following.destination request (.walk following) := by
    rw [completion, hfound]
    simp only [if_pos, hwalk, complete, hreply]
    rfl
  have hfree : (engine.release id).isBusy id = false := by
    simp [Worker.isBusy_eq_false_iff, release, Worker.drop]
  obtain ⟨⟨given, worker⟩, htake⟩ := Worker.exists_takeId?_eq_some hfree
  obtain ⟨taken, h⟩ :=
    reported.exists_handsOver htake following.destination request (.walk following)
  rw [hcompletion]
  exact ⟨given, taken, h.next, h.cursor, h.log, h.pending⟩

/-! ### What a step looks for -/

/-- A request that is started is handed to the link with the id that is found. -/
theorem searched_start (engine : Engine (Recorded σ)) (destination : Mac)
    (request : ConfirmedRequest) (responder : Responder) :
    engine.Searched engine.toWorker.passed (engine.start destination request responder) := by
  cases htake : engine.takeId? with
  | none =>
    rw [Worker.passed_of_none htake, start_of_none htake]
    exact .of_nothing rfl rfl (.refl _)
  | some taken =>
    obtain ⟨given, worker⟩ := taken
    have hcursor := Worker.cursor_of_some htake
    obtain rfl := Worker.eq_of_takeId? htake
    obtain ⟨taken, h⟩ := engine.exists_handsOver htake destination request responder
    refine ⟨h.cursor.trans hcursor, ⟨_, h.log, (Worker.given_passed_of_some htake).symm⟩,
      fun hids => ?_⟩
    rw [h.pending, List.map_append]
    cases taken with
    | false => simpa using hids
    | true =>
      -- the id is new, as it was free
      refine List.nodup_append.mpr
        ⟨hids, List.nodup_singleton _, fun waiting hwaiting other hother heq => ?_⟩
      rw [heq, List.mem_singleton.mp hother] at hwaiting
      exact Worker.isBusy_eq_false_iff.mp h.next.free hwaiting

theorem searched_complete (engine : Engine (Recorded σ)) (responder : Responder)
    (outcome : Outcome) :
    engine.Searched
      (if engine.goesOn outcome responder = true then engine.toWorker.passed else [])
      (engine.complete responder outcome) := by
  cases responder with
  | ticket ticket => exact .of_nothing rfl rfl (.refl _)
  | walk walk =>
    rw [goesOn, complete]
    cases walk.onReply outcome (engine.desk.report walk.report) with
    | mk next report =>
      cases next with
      | none => exact .of_nothing rfl rfl (.refl _)
      | some going =>
        let reported : Engine (Recorded σ) :=
          { engine with desk := engine.desk.mapReport walk.report fun _ => report }
        exact (reported.searched_start going.2.destination going.1 (.walk going.2)).of_eq rfl rfl
          (.refl _)

/-- The answer to a request of a walk that goes on leads to a search. -/
theorem searched_completion (engine : Engine (Recorded σ)) (source : Mac) (id : InvokeId)
    (outcome : Outcome) :
    engine.Searched ((engine.follower? source id outcome).elim [] Worker.passed)
      (engine.completion source id outcome) := by
  rw [follower?, completion]
  cases engine.pending? id with
  | none => exact .of_nothing rfl rfl (.refl _)
  | some entry =>
    rw [Option.bind_some]
    dsimp only
    by_cases hsource : entry.destination = source
    · have hcomplete := (engine.release id).searched_complete entry.responder outcome
      have hgoesOn : (engine.release id).goesOn outcome entry.responder =
          engine.goesOn outcome entry.responder := rfl
      rw [hgoesOn] at hcomplete
      have hsearched : engine.Searched _ _ := hcomplete.of_eq rfl rfl List.filter_sublist
      by_cases hon : engine.goesOn outcome entry.responder = true
      · rw [if_pos hsource, if_pos ⟨hsource, hon⟩]
        rwa [if_pos hon] at hsearched
      · rw [if_pos hsource, if_neg fun h => hon h.2]
        rwa [if_neg hon] at hsearched
    · rw [if_neg hsource, if_neg fun h => hsource h.1]
      exact .of_nothing rfl rfl (.refl _)

omit [Link σ] in
theorem searched_hear (engine : Engine (Recorded σ)) (source : Option Mac)
    (announcement : Announcement) : engine.Searched [] (engine.hear source announcement) := by
  rw [hear]
  split <;> exact .of_nothing rfl rfl (.refl _)

/-- **A step looks for an id from the cursor on**, moves the cursor by as many ids as it looks at,
and hands the link a request with the id that is given out. -/
theorem Step.searched {before after : Engine (Recorded σ)} {event : Event}
    (hstep : Step before event after) : before.Searched (before.passed event) after := by
  cases hstep with
  | act action => cases action <;> exact .of_nothing rfl rfl (.refl _)
  | @obey command rest hqueue hcommand =>
    cases command with
    | request destination request responder =>
      let middle : Engine (Recorded σ) := { before with commands := rest }
      rw [passed, seeker?, hqueue]
      exact (middle.searched_start destination request responder).of_eq rfl rfl (.refl _)
    | _ =>
      rw [passed, seeker?, hqueue]
      exact .of_nothing rfl rfl (.refl _)
  | listen hlisten =>
    rw [passed, seeker?]
    rcases listen_cases hlisten with ⟨link, hreceive, rfl⟩ | ⟨error, link, hreceive, rfl⟩ |
      ⟨indication, link, hreceive, rfl⟩
    all_goals
      have hlog : link.log = before.link.log := by
        rw [← Recorded.log_receive before.link, hreceive]
      rw [hreceive]
    · exact .of_nothing rfl hlog (.refl _)
    · exact .of_nothing rfl hlog (.refl _)
    · cases indication with
      | iAm source announcement =>
        let heard : Engine (Recorded σ) := { before with link := link }
        exact (heard.searched_hear source announcement).of_eq rfl hlog (.refl _)
      | completion source id outcome =>
        let heard : Engine (Recorded σ) := { before with link := link }
        exact (heard.searched_completion source id outcome).of_eq rfl hlog (.refl _)
  | @giveUp entry hentry hoverdue =>
    rw [giveUp_eq]
    exact .of_nothing rfl rfl List.filter_sublist
  | @cancel entry hentry =>
    obtain ⟨change, heq⟩ := @cancel_eq (Recorded σ) entry
    rw [heq]
    exact .of_nothing rfl rfl List.filter_sublist

/-! ### The ids that are looked at -/

/-- A search goes on where the one before has ended, and no other requests wait then. -/
theorem of_seeker? {engine : Engine σ} {event : Event} {worker : Worker}
    (h : engine.seeker? event = some worker) :
    worker.cursor = engine.cursor ∧ worker.pending.Sublist engine.pending := by
  cases event with
  | obey =>
    rw [seeker?] at h
    split at h
    · cases h
      exact ⟨rfl, .refl _⟩
    · cases h
  | listen =>
    rw [seeker?] at h
    split at h
    · rw [follower?, Option.bind_eq_some_iff] at h
      obtain ⟨entry, -, h⟩ := h
      obtain ⟨-, heq⟩ := Option.ite_none_right_eq_some.mp h
      cases heq
      exact ⟨rfl, List.filter_sublist⟩
    · cases h
  | _ => cases h

theorem consecutive_passed (engine : Engine σ) (event : Event) :
    Consecutive engine.cursor (engine.passed event) := by
  rw [passed]
  cases hseeker : engine.seeker? event with
  | none => exact consecutive_nil
  | some worker =>
    rw [← (of_seeker? hseeker).1]
    exact worker.consecutive_passed

theorem isBusy_of_mem_passed {engine : Engine σ} {event : Event} {attempt : Attempt}
    (h : attempt ∈ engine.passed event) (hgiven : attempt.given = false) :
    engine.isBusy attempt.id = true := by
  rw [passed] at h
  cases hseeker : engine.seeker? event with
  | none =>
    rw [hseeker] at h
    cases h
  | some worker =>
    rw [hseeker] at h
    have hbusy := Worker.given_of_mem_passed h
    rw [hgiven, eq_comm, Bool.not_eq_false'] at hbusy
    obtain ⟨entry, hentry, hid⟩ := List.any_eq_true.mp hbusy
    exact List.any_eq_true.mpr ⟨entry, (of_seeker? hseeker).2.subset hentry, hid⟩

/-- **The ids that the cursor comes to in a run follow each other**, and those that are given out
are handed to the link. -/
theorem Searches.rotates {first later : Engine (Recorded σ)} {attempts : List Attempt}
    (h : Searches first attempts later) :
    first.Searched attempts later ∧ Consecutive first.cursor attempts := by
  induction h with
  | start => exact ⟨.of_nothing rfl rfl (.refl _), consecutive_nil⟩
  | @step attempts before after event hrun hstep ih =>
    obtain ⟨hsearched, hids⟩ := ih
    exact ⟨hsearched.trans hstep.searched,
      consecutive_append.mpr ⟨hids, hsearched.cursor ▸ before.consecutive_passed event⟩⟩

/-- Where a request is over before the next one is made, the next one is given the next id. -/
theorem Searches.exists_round {first engine : Engine (Recorded σ)} {attempts : List Attempt}
    (h : Searches first attempts engine) (hcommands : engine.commands = [])
    (hpending : engine.pending = []) (destination : Mac) (request : ConfirmedRequest) :
    ∃ later, Searches first (attempts ++ [⟨engine.cursor, true⟩]) later ∧
      later.commands = [] ∧ later.pending = [] ∧ later.cursor = engine.cursor + 1 := by
  let asked := engine.perform (.ask destination request)
  have hasked : Searches first attempts asked :=
    List.append_nil attempts ▸ h.step (.act engine (.ask destination request))
  let responder : Responder := .ticket engine.desk.issue.1
  have hqueue : asked.commands = [.request destination request responder] :=
    congrArg (· ++ [Command.request destination request responder]) hcommands
  let idle : Engine (Recorded σ) := { asked with commands := [] }
  let sent := idle.start destination request responder
  obtain ⟨htake, hlooks⟩ := @Worker.takeId?_of_pending_eq_nil idle.toWorker hpending
  have hpassed : asked.passed .obey = [⟨engine.cursor, true⟩] := by
    rw [passed, seeker?, hqueue]
    exact hlooks
  have hsent : Searches first (attempts ++ [⟨engine.cursor, true⟩]) sent :=
    hpassed ▸ hasked.step (.obey hqueue (by rintro ⟨⟩))
  have hnone : sent.commands = [] :=
    idle.commands_handle (.request destination request responder)
  obtain ⟨taken, hover⟩ := idle.exists_handsOver htake destination request responder
  let entry : Pending := ⟨engine.cursor, destination, idle.clock, responder⟩
  have hwaits : sent.pending = engine.pending ++ if taken = true then [entry] else [] :=
    hover.pending
  rw [hpending, List.nil_append] at hwaits
  cases taken with
  | false => exact ⟨sent, hsent, hnone, hwaits, hover.cursor⟩
  | true =>
    -- a request that the link took is cancelled
    have hentry : entry ∈ sent.pending := hwaits ▸ List.mem_singleton_self entry
    have hcancel : Searches first (attempts ++ [⟨engine.cursor, true⟩])
        ((sent.release entry.id).cancel entry) :=
      List.append_nil (attempts ++ _) ▸ hsent.step (.cancel hentry)
    obtain ⟨change, heq⟩ := @cancel_eq (Recorded σ) entry
    rw [heq] at hcancel
    refine ⟨_, hcancel, hnone, ?_, hover.cursor⟩
    change sent.pending.filter _ = []
    rw [hwaits]
    exact List.filter_cons_of_neg (by simp)

/-- Requests of which each is over before the next one is made are given all ids in turn. -/
theorem exists_searches_range (shared : Shared (Recorded σ)) (identity : LocalDevice)
    (timing : Timing) (destination : Mac) (request : ConfirmedRequest) (count : Nat) :
    ∃ later, Searches (launch shared identity timing)
        ((List.range count).map fun offset => ⟨UInt8.ofNat offset, true⟩) later ∧
      later.commands = [] ∧ later.pending = [] ∧ later.cursor = UInt8.ofNat count := by
  induction count with
  | zero => exact ⟨_, .start, rfl, rfl, rfl⟩
  | succ count ih =>
    obtain ⟨engine, hrun, hcommands, hpending, hcursor⟩ := ih
    obtain ⟨later, hlater, hnone, hover, hnext⟩ :=
      hrun.exists_round hcommands hpending destination request
    rw [hcursor] at hlater hnext
    rw [List.range_succ, List.map_append, List.map_singleton, UInt8.ofNat_add]
    exact ⟨later, hlater, hnone, hover, hnext⟩

omit [Link σ] in
theorem length_pending_le {engine : Engine σ} (hids : (engine.pending.map Pending.id).Nodup) :
    engine.pending.length ≤ invokeIds := by
  have hsubset : engine.pending.map Pending.id ⊆ List.iterate (· + 1) 0 invokeIds :=
    fun id _ => mem_iterate_succ (id - 0).toNat_lt
  simpa using (hids.subperm hsubset).length_le

/-- **Ids are given out in rotation.**  An id is given out as long as one is free: the first one
going round from the cursor, which then stands just behind it.  Where all ids are busy the cursor
stays, and the request fails.  In a run from the start of an engine the cursor comes to the ids one
after the other, gives out those that are free and passes over those that are busy.  So from one
time that an id is given out to the next, however soon it is free again, the cursor comes to every
other id; never more requests wait than there are ids, and never two under one.  A walk that goes on
gets an id whatever else waits. -/
theorem ids_rotate (shared : Shared (Recorded σ)) (identity : LocalDevice) (timing : Timing)
    {attempts : List Attempt} {engine : Engine (Recorded σ)}
    (hrun : Searches (launch shared identity timing) attempts engine) :
    (∀ worker : Worker, worker.TakesTurns) ∧
    (∀ (asked : Engine (Recorded σ)) (destination : Mac) (request : ConfirmedRequest)
      (responder : Responder),
      ((∀ id, asked.isBusy id = true) → asked.start destination request responder =
        { asked with desk := asked.desk.fail responder (.link noFreeId) }) ∧
      ∀ id, asked.isBusy id = false → ∃ given taken,
        asked.HandsOver ⟨destination, given, request, taken⟩ responder
          (asked.start destination request responder)) ∧
    (launch shared identity timing).Searched attempts engine ∧
    (∀ event, ∀ attempt ∈ engine.passed event, attempt.given = false →
      engine.isBusy attempt.id = true) ∧
    Spaced attempts ∧
    (engine.pending.map Pending.id).Nodup ∧ engine.pending.length ≤ invokeIds ∧
    ∀ (answered : Engine (Recorded σ)) (id : InvokeId) (entry : Pending) (walk following : Walk)
      (outcome : Outcome) (request : ConfirmedRequest) (report : WalkReport),
      answered.pending? id = some entry → entry.responder = .walk walk →
      walk.onReply outcome (answered.desk.report walk.report) =
        (some (request, following), report) →
      ∃ given taken,
        (answered.release id).HandsOver ⟨following.destination, given, request, taken⟩
          (.walk following) (answered.completion entry.destination id outcome) := by
  obtain ⟨hsearched, hconsecutive⟩ := hrun.rotates
  have hids := hsearched.ids List.nodup_nil
  refine ⟨Worker.takesTurns, fun asked destination request responder => ⟨fun hbusy => ?_,
    fun id hfree => ?_⟩, hsearched, fun event attempt => isBusy_of_mem_passed,
    hconsecutive.spaced, hids, length_pending_le hids,
    fun answered id entry walk following outcome request report => answered.completion_handsOver⟩
  · exact start_of_none (Worker.takeId?_eq_none_iff.mpr hbusy) destination request responder
  · obtain ⟨⟨given, worker⟩, htake⟩ := Worker.exists_takeId?_eq_some hfree
    exact ⟨given, asked.exists_handsOver htake destination request responder⟩

/-- On an empty segment a request gets the first id again when all ids have been given out, and not
when all of them are busy; a walk that learns the length of a list goes on. -/
theorem ids_rotate_on_empty_segment :
    let shared : Shared (Recorded Simulation.Segment) := ⟨⟨{}, []⟩, 0, .empty, {}⟩
    let engine := launch shared ⟨⟨.device, 599⟩, "", 1024, .none, 15⟩ {}
    let read := ConfirmedRequest.read ⟨⟨.device, 8⟩, .objectList, some 0⟩
    let round : List Attempt := (List.range' 1 255).map fun offset => ⟨UInt8.ofNat offset, true⟩
    let full : Engine (Recorded Simulation.Segment) :=
      { engine with
        pending := (List.range 256).map fun offset => ⟨UInt8.ofNat offset, 5, 0, .ticket offset⟩ }
    let walking : Engine (Recorded Simulation.Segment) :=
      { engine with
        pending := [⟨0, 5, 0, .walk (.onDevice 5 8 0)⟩]
        desk := engine.desk.openReport.2 }
    ∃ later, Searches engine (⟨0, true⟩ :: (round ++ [⟨0, true⟩])) later ∧
      later.pending.length ≤ 256 ∧ (∃ attempt ∈ round, attempt.id = 7) ∧
      (full.start 5 read (.ticket 256)).desk.answers 256 = [.failure (.link noFreeId)] ∧
      ∃ given taken, (walking.completion 5 0
          (.ack (.read ⟨⟨.device, 8⟩, .objectList, some 0, [0x21, 2]⟩))).link.log =
        [⟨5, given, .read ⟨⟨.device, 8⟩, .objectList, some 1⟩, taken⟩] := by
  intro shared engine read round full walking
  obtain ⟨later, hrun, -⟩ := exists_searches_range shared ⟨⟨.device, 599⟩, "", 1024, .none, 15⟩ {}
    5 read 257
  have hsplit : ((List.range 257).map fun offset => (⟨UInt8.ofNat offset, true⟩ : Attempt)) =
      [] ++ ⟨0, true⟩ :: (round ++ ⟨0, true⟩ :: []) := by decide +kernel
  obtain ⟨-, hstart, -, -, hspaced, -, hroom, hwalk⟩ := ids_rotate shared _ _ hrun
  have hbusy : ∀ id, full.isBusy id = true := fun id =>
    List.any_eq_true.mpr ⟨_, List.mem_map_of_mem (List.mem_range.mpr id.toNat_lt), by simp⟩
  obtain ⟨given, taken, hover⟩ := hwalk walking 0 _ _
    { Walk.onDevice 5 8 0 with remaining := ⟨2, 2⟩ }
    (.ack (.read ⟨⟨.device, 8⟩, .objectList, some 0, [0x21, 2]⟩)) _ _ rfl rfl rfl
  refine ⟨later, (hsplit ▸ hrun :), hroom, hspaced _ _ _ _ _ hsplit rfl 7 (by decide), ?_, given,
    taken, hover.log⟩
  rw [(hstart full 5 read (.ticket 256)).1 hbusy]
  rfl

end Fieldbus.Engine
