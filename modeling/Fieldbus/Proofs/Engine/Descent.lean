import Fieldbus.Proofs.Engine.Service
import Fieldbus.Proofs.Link.Recorded

/-!
# Starting and completing come to an end

A request that cannot be started is completed with a failure, and a walk that is handed an outcome
may start its next read.  So the two procedures call each other, and nothing in either says how
often.  What ends the calls is that no walk goes on after a failure: an acknowledgement may lead to
a start, a start to a failure, and a failure to nothing.  Along this descent at most one request is
handed to the link.

## Main definitions

* `Task`: what one of the two procedures is called for.
* `Engine.advance`: what a procedure does itself, and the call with which it ends.
* `Engine.Calls`: one call ends with the other.
* `Task.weight`: what every call lowers.
* `Engine.run`: what a call does together with all calls that follow from it.

## Main results

* `Engine.weight_lt_of_advance`: every call lowers the weight.
* `Engine.run_start`, `Engine.run_complete`: what the calls do together.
* `Engine.calls_end`: the calls end, and hand at most one request to the link.
-/

namespace Fieldbus

/-- What one of the two procedures is called for. -/
inductive Task where
  /-- A request is to be sent to a station. -/
  | start (destination : Mac) (request : ConfirmedRequest) (responder : Responder)
  /-- A responder is to get an outcome. -/
  | complete (responder : Responder) (outcome : Outcome)

namespace Task

/-- How far a task is from its end. -/
def weight : Task → Nat
  | .complete _ (.failure _) => 0
  | .start _ _ _ => 1
  | .complete _ (.ack _) => 2

/-- How many requests a task may come to hand to the link. -/
def allowance : Task → Nat
  | .complete _ (.failure _) => 0
  | .start _ _ _ | .complete _ (.ack _) => 1

theorem allowance_le_one (task : Task) : task.allowance ≤ 1 := by
  unfold allowance
  split <;> decide

end Task

namespace Engine

variable {σ : Type} [Link σ]

/-- What a procedure does itself, and the call with which it ends, if it makes one. -/
def advance (engine : Engine σ) : Task → Engine σ × Option Task
  | .start destination request responder =>
    match engine.takeId? with
    | none => (engine, some (.complete responder (.failure (.link noFreeId))))
    | some (id, worker) =>
      match Link.sendConfirmed destination id request engine.link with
      | (.error error, link) =>
        ({ engine with toWorker := worker, link := link },
          some (.complete responder (.failure (.link error.message))))
      | (.ok (), link) =>
        ({ engine with
            link := link
            toWorker :=
              { worker with
                pending := worker.pending ++ [⟨id, destination, engine.clock, responder⟩] } },
          none)
  | .complete (.ticket ticket) outcome =>
    ({ engine with desk := engine.desk.leave ticket outcome }, none)
  | .complete (.walk walk) outcome =>
    let (next, report) := walk.onReply outcome (engine.desk.report walk.report)
    ({ engine with desk := engine.desk.mapReport walk.report fun _ => report },
      next.map fun (request, following) => .start following.destination request (.walk following))

variable {engine middle : Engine σ} {task next : Task}

theorem snd_advance_complete (engine : Engine σ) (walk : Walk) (outcome : Outcome) :
    (engine.advance (.complete (.walk walk) outcome)).2 =
      (walk.onReply outcome (engine.desk.report walk.report)).1.map fun (request, following) =>
        .start following.destination request (.walk following) := rfl

/-- **Every call lowers the weight**, whatever the state of the engine is and whatever its link
does. -/
theorem weight_lt_of_advance (h : engine.advance task = (middle, some next)) :
    next.weight < task.weight := by
  cases task with
  | start destination request responder =>
    -- a start calls for a failure only
    rw [advance] at h
    split at h
    · cases h
      exact Nat.zero_lt_one
    · split at h
      · cases h
        exact Nat.zero_lt_one
      · cases h
  | complete responder outcome =>
    cases responder with
    | ticket ticket => cases h
    | walk walk =>
      have hnext := engine.snd_advance_complete walk outcome
      rw [h] at hnext
      obtain ⟨⟨request, following⟩, hreply, rfl⟩ := Option.map_eq_some_iff.mp hnext.symm
      cases outcome with
      | ack ack => exact Nat.one_lt_two
      | failure cause =>
        rw [walk.onReply_failure] at hreply
        cases hreply

/-- One call ends with the other. -/
def Calls (later earlier : Engine σ × Task) : Prop :=
  earlier.1.advance earlier.2 = (later.1, some later.2)

theorem wellFounded_calls : WellFounded (Calls (σ := σ)) :=
  Subrelation.wf weight_lt_of_advance (measure fun call : Engine σ × Task => call.2.weight).wf

/-- What a call does together with all calls that follow from it. -/
def run (engine : Engine σ) (task : Task) : Engine σ :=
  match _h : engine.advance task with
  | (after, none) => after
  | (middle, some next) => middle.run next
termination_by task.weight
decreasing_by exact weight_lt_of_advance _h

theorem run_of_none {after : Engine σ} (h : engine.advance task = (after, none)) :
    engine.run task = after := by
  rw [run]
  split <;> simp_all

theorem run_of_some (h : engine.advance task = (middle, some next)) :
    engine.run task = middle.run next := by
  rw [run]
  split <;> simp_all

/-! ### What the calls do together -/

theorem run_failure (engine : Engine σ) (responder : Responder) (cause : Failure) :
    engine.run (.complete responder (.failure cause)) = engine.fail responder cause := by
  rw [← complete_failure_eq_fail]
  apply run_of_none
  cases responder with
  | ticket ticket => rfl
  | walk walk => simp only [advance, complete, walk.onReply_failure, Option.map_none]

theorem run_start (engine : Engine σ) (destination : Mac) (request : ConfirmedRequest)
    (responder : Responder) :
    engine.run (.start destination request responder) =
      engine.start destination request responder := by
  rw [start]
  cases htake : engine.takeId? with
  | none =>
    have hcall : engine.advance (.start destination request responder) =
        (engine, some (.complete responder (.failure (.link noFreeId)))) := by
      simp only [advance, htake]
    rw [run_of_some hcall, run_failure]
  | some taken =>
    obtain ⟨id, worker⟩ := taken
    cases hsend : Link.sendConfirmed destination id request engine.link with
    | mk result link =>
      cases result with
      | error error =>
        have hcall : engine.advance (.start destination request responder) =
            ({ engine with toWorker := worker, link := link },
              some (.complete responder (.failure (.link error.message)))) := by
          simp only [advance, htake, hsend]
        simp only [run_of_some hcall, run_failure, hsend]
      | ok =>
        simp only [hsend]
        exact run_of_none (by simp only [advance, htake, hsend])

theorem run_complete (engine : Engine σ) (responder : Responder) (outcome : Outcome) :
    engine.run (.complete responder outcome) = engine.complete responder outcome := by
  cases responder with
  | ticket ticket => exact run_of_none rfl
  | walk walk =>
    rw [complete]
    cases hreply : walk.onReply outcome (engine.desk.report walk.report) with
    | mk next report =>
      cases next with
      | none => exact run_of_none (by simp only [advance, hreply, Option.map_none])
      | some going =>
        have hcall : engine.advance (.complete (.walk walk) outcome) =
            ({ engine with desk := engine.desk.mapReport walk.report fun _ => report },
              some (.start going.2.destination going.1 (.walk going.2))) := by
          simp only [advance, hreply, Option.map_some]
        simp only [run_of_some hcall, run_start]

/-! ### What the calls hand to the link -/

/-- What a procedure hands to the link itself is taken from its allowance, and what is left is
enough for the call with which it ends. -/
theorem exists_log_advance (engine : Engine (Recorded σ)) (task : Task) :
    ∃ sent : List Dispatch, (engine.advance task).1.link.log = engine.link.log ++ sent ∧
      sent.length + ((engine.advance task).2.map Task.allowance).getD 0 ≤ task.allowance := by
  cases task with
  | start destination request responder =>
    rw [advance]
    cases engine.takeId? with
    | none => exact ⟨[], (List.append_nil _).symm, Nat.zero_le _⟩
    | some taken =>
      obtain ⟨id, worker⟩ := taken
      have hsend : Link.sendConfirmed destination id request engine.link =
          Recorded.sendConfirmed destination id request engine.link := rfl
      simp only [hsend, Recorded.sendConfirmed]
      -- whether the link takes the request or not, only a failure may follow
      cases Link.sendConfirmed destination id request engine.link.link with
      | mk result link => cases result <;> exact ⟨_, rfl, Nat.le_refl _⟩
  | complete responder outcome =>
    cases responder with
    | ticket ticket => exact ⟨[], (List.append_nil _).symm, Nat.zero_le _⟩
    | walk walk =>
      refine ⟨[], (List.append_nil _).symm, ?_⟩
      rw [snd_advance_complete]
      cases outcome with
      | ack ack =>
        cases (walk.onReply (.ack ack) (engine.desk.report walk.report)).1 <;>
          simp [Task.allowance]
      | failure cause =>
        rw [walk.onReply_failure]
        exact Nat.le_refl _

/-- Along all calls no more is handed to the link than the first allows. -/
theorem exists_log_run (engine : Engine (Recorded σ)) (task : Task) :
    ∃ sent : List Dispatch, (engine.run task).link.log = engine.link.log ++ sent ∧
      sent.length ≤ task.allowance := by
  induction engine, task using run.induct with
  | case1 engine task after h =>
    obtain ⟨sent, hlog, hsent⟩ := engine.exists_log_advance task
    rw [h] at hlog hsent
    exact ⟨sent, by rw [run_of_none h, hlog], by simpa using hsent⟩
  | case2 engine task middle next h ih =>
    obtain ⟨sent, hlog, hsent⟩ := engine.exists_log_advance task
    obtain ⟨more, hmore, hleft⟩ := ih
    rw [h] at hlog hsent
    refine ⟨sent ++ more, by rw [run_of_some h, hmore, hlog, List.append_assoc], ?_⟩
    rw [Option.map_some, Option.getD_some] at hsent
    rw [List.length_append]
    omega

theorem exists_log_start (engine : Engine (Recorded σ)) (destination : Mac)
    (request : ConfirmedRequest) (responder : Responder) :
    ∃ sent, (engine.start destination request responder).link.log = engine.link.log ++ sent ∧
      sent.length ≤ 1 := by
  rw [← run_start]
  exact engine.exists_log_run (.start destination request responder)

theorem exists_log_completion (engine : Engine (Recorded σ)) (source : Mac) (id : InvokeId)
    (outcome : Outcome) :
    ∃ sent, (engine.completion source id outcome).link.log = engine.link.log ++ sent ∧
      sent.length ≤ 1 := by
  rw [completion]
  split
  · exact ⟨[], (List.append_nil _).symm, Nat.zero_le 1⟩
  · rename_i entry hentry
    split
    · obtain ⟨sent, hlog, hsent⟩ :=
        (engine.release id).exists_log_run (.complete entry.responder outcome)
      rw [run_complete] at hlog
      exact ⟨sent, hlog, Nat.le_trans hsent (Task.allowance_le_one _)⟩
    · exact ⟨[], (List.append_nil _).symm, Nat.zero_le 1⟩

/-- **Starting and completing come to an end.**  Whatever the state of an engine is and whatever its
link does with a request, the calls that follow from a start or from an outcome are finitely many,
and what they do together is what the engine does.  One command, and one completion that the link
brings, makes the engine hand at most one confirmed request to the link, taken or not; keeping a log
of them changes nothing. -/
theorem calls_end :
    WellFounded (Calls (σ := σ)) ∧
    (∀ engine : Engine σ,
      (∀ destination request responder, engine.run (.start destination request responder) =
        engine.start destination request responder) ∧
      ∀ responder outcome, engine.run (.complete responder outcome) =
        engine.complete responder outcome) ∧
    ∀ engine : Engine (Recorded σ),
      (∀ destination request responder,
        let command := Command.request destination request responder
        (engine.handle command).forget = engine.forget.handle command ∧
          ∃ sent, (engine.handle command).link.log = engine.link.log ++ sent ∧
            sent.length ≤ 1) ∧
      ∀ source id outcome,
        let indication := Indication.completion source id outcome
        (engine.indicate indication).forget = engine.forget.indicate indication ∧
          ∃ sent, (engine.indicate indication).link.log = engine.link.log ++ sent ∧
            sent.length ≤ 1 :=
  ⟨wellFounded_calls, fun engine => ⟨engine.run_start, engine.run_complete⟩, fun engine =>
    ⟨fun destination request responder =>
      ⟨forget_handle engine _, engine.exists_log_start destination request responder⟩,
    fun source id outcome =>
      ⟨forget_indicate engine _, engine.exists_log_completion source id outcome⟩⟩⟩

end Engine

end Fieldbus
