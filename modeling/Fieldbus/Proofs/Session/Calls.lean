import Fieldbus.Proofs.Result
import Fieldbus.Proofs.Session.Run
import Fieldbus.Session.Call

/-!
# Operations that leave the link to the engine

Reads, writes, enumerations, discoveries and announcements of a session leave its link where it is:
all they do about it is to hand a command to the engine that has it.  An operation that begins is
answered at once, or hands one request to the engine, or opens a window and hands over the command
about it.

## Main definitions

* `Call.window?`: the window of a call.
* `Operation.Demands`: the commands with which an operation may begin.
* `Session.Submits`: what an operation does that begins.
* `Session.Begins`: the same without what is demanded.
* `Session.Hands`: that one command at most is handed to the engine.
* `Session.LeavesLink`: what such an operation may do to a session.

## Main results

* `Session.submits_of_beginCall`, `Session.begins_of_beginCall`: operations begin in these ways
  only.
* `Session.beginCall_of_answered`: one that is answered at once leaves the session alone.
* `Session.hands_beginCall`, `Session.hands_attend`, `Session.hands_conclude`,
  `Session.hands_announce`: which commands are handed to the engine.
* `Session.Hands.leavesLink`: an operation that hands over a command does no more.
-/

namespace Fieldbus

/-- The window of a call, which only a discovery has. -/
def Call.window? : Call → Option WindowId
  | .discover discovery _ => some discovery.window
  | .read _ _ _ | .write _ | .enumerate _ | .answered _ => none

/-- The commands with which an operation may begin.  Its names are known by then, and its instance
number is one that an object can have. -/
inductive Operation.Demands : Operation → Command → Prop
  | read {path : PropertyPath} {resolved : Schema.Resolved} (hresolve : path.resolve = .ok resolved)
      (hnumber : path.number ≤ maxInstance) (address : Address) (mac : Mac) (ticket : Ticket) :
      Demands (.read address path)
        (.request mac
          (.read ⟨⟨resolved.type, path.number⟩, resolved.property, path.index⟩) (.ticket ticket))
  | write {path : PropertyPath} {resolved : Schema.Resolved} {text : String} {value : Atom}
      (hresolve : path.resolve = .ok resolved) (hnumber : path.number ≤ maxInstance)
      (hwritten : Session.writtenValue text resolved.datatype path.index = .ok value)
      (address : Address) (mac : Mac) (priority : Option UInt8) (ticket : Ticket) :
      Demands (.write address path text priority)
        (.request mac
          (.write ⟨⟨resolved.type, path.number⟩, resolved.property, path.index, value.encode,
            priority⟩) (.ticket ticket))
  | enumerate {device : UInt32} (hnumber : device ≤ maxInstance) (address : Address) (mac : Mac)
      (timeout : Nat) (report : WalkId) :
      Demands (.enumerate address device timeout)
        (.request mac (Walk.onDevice mac device report).firstRead
          (.walk (.onDevice mac device report)))
  | discover (timeout : Nat) (station : Option Mac) (low high : Option UInt32)
      (window : WindowId) :
      Demands (.discover timeout station low high)
        (.discover window (whoIsDestination station) (instanceRange low high).1
          (instanceRange low high).2)

namespace Session

variable {σ : Type}

/-! ### How an operation begins -/

/-- One request is handed to the engine; what changes on the desk is beside the windows. -/
def HandsRequest (before after : Session σ) : Prop :=
  ∃ desk mac request responder, desk.windows = before.desk.windows ∧
    submit? { before with desk := desk } (.request mac request responder) = some after

/-- An operation that has begun, as its call and the session that is left. -/
inductive Begins (before : Session σ) : Call → Session σ → Prop
  /-- The answer is found without the engine. -/
  | answered (answer : Answer) : Begins before (.answered answer) before
  /-- The call waits for what the engine is asked. -/
  | requests {call : Call} {after : Session σ} (hwaits : ∀ answer, call ≠ .answered answer)
      (hwindow : call.window? = none) (hhands : before.HandsRequest after) :
      Begins before call after
  /-- A window is opened, and the engine is to list it. -/
  | opens {capacity deadline : Nat} {destination : Destination} {low high : Option UInt32}
      {after : Session σ}
      (hsubmit : submit? { before with desk := (before.desk.openWindow capacity).2 }
        (.discover before.desk.windows.length destination low high) = some after) :
      Begins before (.discover ⟨before.desk.windows.length, deadline⟩ false) after

/-- What an operation does that begins, as its call and the session that is left: it is answered
without the engine, or it takes a ticket, or opens a report or a window, and hands over what it
demands. -/
inductive Submits (before : Session σ) (operation : Operation) : Call → Session σ → Prop
  | answered (answer : Answer) : Submits before operation (.answered answer) before
  | asks {mac : Mac} {request : ConfirmedRequest} {call : Call} {after : Session σ}
      (hwaits : ∀ answer, call ≠ .answered answer) (hwindow : call.window? = none)
      (hdemands : operation.Demands (.request mac request (.ticket before.desk.tickets)))
      (hsubmit : submit? { before with desk := before.desk.issue.2 }
        (.request mac request (.ticket before.desk.tickets)) = some after) :
      Submits before operation call after
  | walks (walking : Walking) {mac : Mac} {device : UInt32} {after : Session σ}
      (hdemands : operation.Demands
        (.request mac (Walk.onDevice mac device before.desk.reports.length).firstRead
          (.walk (.onDevice mac device before.desk.reports.length))))
      (hsubmit : submit? { before with desk := before.desk.openReport.2 }
        (.request mac (Walk.onDevice mac device before.desk.reports.length).firstRead
          (.walk (.onDevice mac device before.desk.reports.length))) = some after) :
      Submits before operation (.enumerate walking) after
  | opens (deadline : Nat) {capacity : Nat} {destination : Destination} {low high : Option UInt32}
      {after : Session σ}
      (hdemands : operation.Demands (.discover before.desk.windows.length destination low high))
      (hsubmit : submit? { before with desk := (before.desk.openWindow capacity).2 }
        (.discover before.desk.windows.length destination low high) = some after) :
      Submits before operation (.discover ⟨before.desk.windows.length, deadline⟩ false) after

/-- One command at most is handed to the engine; besides, the desk may change. -/
def Hands (asked : Command → Prop) (before after : Session σ) : Prop :=
  ∃ desk, after = { before with desk := desk } ∨
    ∃ command, asked command ∧ submit? { before with desk := desk } command = some after

namespace Hands

variable {asked : Command → Prop} {before after : Session σ}

theorem withDesk (asked : Command → Prop) (session : Session σ) (desk : Desk) :
    Hands asked session { session with desk := desk } := ⟨desk, .inl rfl⟩

theorem refl (asked : Command → Prop) (session : Session σ) : Hands asked session session :=
  withDesk asked session session.desk

theorem of_submit? {command : Command} (hasked : asked command)
    (h : before.submit? command = some after) : Hands asked before after :=
  ⟨before.desk, .inr ⟨command, hasked, h⟩⟩

theorem clock_eq (h : Hands asked before after) : after.clock = before.clock := by
  obtain ⟨desk, rfl | ⟨command, -, hsubmit⟩⟩ := h
  · rfl
  · obtain ⟨run, worker, -, -, rfl⟩ := exists_of_submit? hsubmit
    rfl

end Hands

section Begins

variable {before after : Session σ}

theorem submit?_of_transact {run : EngineRun} {mac : Mac} {request : ConfirmedRequest}
    {transaction : Transaction} (h : before.transact run mac request = .ok (transaction, after)) :
    submit? { before with desk := before.desk.issue.2 }
      (.request mac request (.ticket before.desk.tickets)) = some after := by
  simp only [transact] at h
  split at h
  · rename_i submitted hsubmit
    cases h
    exact hsubmit
  · cases h

theorem le_maxInstance_of_checkInstance {number : UInt32} {checked : Unit}
    (h : checkInstance number = .ok checked) : number ≤ maxInstance := by
  rw [checkInstance] at h
  split at h
  · assumption
  · cases h

theorem exists_submit?_of_beginRead {mac : Mac} {path : PropertyPath} {transaction : Transaction}
    (h : before.beginRead mac path = .ok (transaction, after)) : ∃ resolved,
      path.resolve = .ok resolved ∧ path.number ≤ maxInstance ∧
        submit? { before with desk := before.desk.issue.2 }
          (.request mac (.read ⟨⟨resolved.type, path.number⟩, resolved.property, path.index⟩)
            (.ticket before.desk.tickets)) = some after := by
  obtain ⟨run, -, hchecked⟩ := bind_eq_ok_iff.mp h
  obtain ⟨checked, hcheck, hresolved⟩ := bind_eq_ok_iff.mp hchecked
  obtain ⟨resolved, hresolve, htransact⟩ := bind_eq_ok_iff.mp hresolved
  exact ⟨resolved, hresolve, le_maxInstance_of_checkInstance hcheck, submit?_of_transact htransact⟩

theorem exists_submit?_of_beginWrite {mac : Mac} {path : PropertyPath} {text : String}
    {priority : Option UInt8} {transaction : Transaction}
    (h : before.beginWrite mac path text priority = .ok (transaction, after)) :
    ∃ resolved value, path.resolve = .ok resolved ∧ path.number ≤ maxInstance ∧
      writtenValue text resolved.datatype path.index = .ok value ∧
        submit? { before with desk := before.desk.issue.2 }
          (.request mac
            (.write ⟨⟨resolved.type, path.number⟩, resolved.property, path.index, value.encode,
              priority⟩) (.ticket before.desk.tickets)) = some after := by
  obtain ⟨run, -, hchecked⟩ := bind_eq_ok_iff.mp h
  dsimp only at hchecked
  split at hchecked
  · cases hchecked
  · rename_i hnumber
    obtain ⟨resolved, hresolve, hwritten⟩ := bind_eq_ok_iff.mp hchecked
    obtain ⟨value, hvalue, htransact⟩ := bind_eq_ok_iff.mp hwritten
    exact ⟨resolved, value, hresolve, UInt32.not_lt.mp hnumber, hvalue,
      submit?_of_transact htransact⟩

theorem exists_submit?_of_beginEnumeration {mac : Mac} {device : UInt32} {timeout : Nat}
    {walking : Walking} (h : before.beginEnumeration mac device timeout = .ok (walking, after)) :
    device ≤ maxInstance ∧ ∃ walk, walk = Walk.onDevice mac device before.desk.reports.length ∧
      submit? { before with desk := before.desk.openReport.2 }
        (.request mac walk.firstRead (.walk walk)) = some after := by
  obtain ⟨run, -, hchecked⟩ := bind_eq_ok_iff.mp h
  obtain ⟨checked, hcheck, hbegun⟩ := bind_eq_ok_iff.mp hchecked
  dsimp only at hbegun
  split at hbegun
  · rename_i submitted hsubmit
    cases hbegun
    exact ⟨le_maxInstance_of_checkInstance hcheck, _, rfl, hsubmit⟩
  · cases hbegun

theorem exists_submit?_of_beginDiscovery {timeout : Nat} {station : Option Mac}
    {low high : Option UInt32} {discovery : Discovery}
    (h : before.beginDiscovery timeout station low high = .ok (some (discovery, after))) :
    ∃ capacity deadline, discovery = ⟨before.desk.windows.length, deadline⟩ ∧
      submit? { before with desk := (before.desk.openWindow capacity).2 }
        (.discover before.desk.windows.length (whoIsDestination station)
          (instanceRange low high).1 (instanceRange low high).2) = some after := by
  obtain ⟨run, -, hbegun⟩ := bind_eq_ok_iff.mp h
  obtain ⟨submitted, hsubmit, heq⟩ := Option.map_eq_some_iff.mp (Except.ok.inj hbegun)
  cases heq
  exact ⟨_, _, rfl, hsubmit⟩

/-- How an operation begins, and which command it hands to the engine. -/
theorem submits_of_beginCall {operation : Operation} {call : Call}
    (h : before.beginCall operation = (call, after)) : before.Submits operation call after := by
  cases operation with
  | read address path =>
    rw [beginCall] at h
    split at h
    · cases h
      exact .answered _
    · split at h
      · cases h
        exact .answered _
      · rename_i hbegin
        cases h
        obtain ⟨resolved, hresolve, hnumber, hsubmit⟩ := exists_submit?_of_beginRead hbegin
        exact .asks nofun rfl (.read hresolve hnumber address _ _) hsubmit
  | write address path text priority =>
    rw [beginCall] at h
    split at h
    · cases h
      exact .answered _
    · split at h
      · cases h
        exact .answered _
      · rename_i hbegin
        cases h
        obtain ⟨resolved, value, hresolve, hnumber, hwritten, hsubmit⟩ :=
          exists_submit?_of_beginWrite hbegin
        exact .asks nofun rfl (.write hresolve hnumber hwritten address _ priority _) hsubmit
  | enumerate address device timeout =>
    rw [beginCall] at h
    split at h
    · cases h
      exact .answered _
    · split at h
      · cases h
        exact .answered _
      · rename_i hbegin
        cases h
        obtain ⟨hnumber, walk, rfl, hsubmit⟩ := exists_submit?_of_beginEnumeration hbegin
        exact .walks _ (.enumerate hnumber address _ timeout _) hsubmit
  | discover timeout station low high =>
    rw [beginCall] at h
    split at h
    · cases h
      exact .answered _
    · cases h
      exact .answered _
    · rename_i hbegin
      cases h
      obtain ⟨capacity, deadline, rfl, hsubmit⟩ := exists_submit?_of_beginDiscovery hbegin
      exact .opens deadline (.discover timeout station low high _) hsubmit

/-- Operations begin in these ways only. -/
theorem begins_of_beginCall {operation : Operation} {call : Call}
    (h : before.beginCall operation = (call, after)) : before.Begins call after := by
  cases submits_of_beginCall h with
  | answered answer => exact .answered answer
  | asks hwaits hwindow _ hsubmit =>
    exact .requests hwaits hwindow ⟨before.desk.issue.2, _, _, _, rfl, hsubmit⟩
  | walks _ _ hsubmit =>
    exact .requests nofun rfl ⟨before.desk.openReport.2, _, _, _, rfl, hsubmit⟩
  | opens _ _ hsubmit => exact .opens hsubmit

/-- An operation hands to the engine what it demands. -/
theorem hands_beginCall (session : Session σ) (operation : Operation) :
    session.Hands operation.Demands (session.beginCall operation).2 := by
  rcases hbegin : session.beginCall operation with ⟨call, after⟩
  cases submits_of_beginCall hbegin with
  | answered => exact .refl _ session
  | asks _ _ hdemands hsubmit => exact ⟨_, .inr ⟨_, hdemands, hsubmit⟩⟩
  | walks _ hdemands hsubmit => exact ⟨_, .inr ⟨_, hdemands, hsubmit⟩⟩
  | opens _ hdemands hsubmit => exact ⟨_, .inr ⟨_, hdemands, hsubmit⟩⟩

/-- An operation that is answered at once leaves the session as it is. -/
theorem beginCall_of_answered {operation : Operation} {answer : Answer}
    (h : (before.beginCall operation).1 = .answered answer) :
    before.beginCall operation = (.answered answer, before) := by
  rcases hbegin : before.beginCall operation with ⟨call, after⟩
  rw [hbegin] at h
  cases h
  cases begins_of_beginCall hbegin with
  | answered => rfl
  | requests hwaits => exact absurd rfl (hwaits answer)

end Begins

/-! ### The link and the engine -/

/-- An operation that leaves the link where it is, and hands at most commands to an engine that is
alive. -/
structure LeavesLink (before after : Session σ) : Prop where
  link : after.link = before.link
  holdsLink : after.holdsLink = before.holdsLink
  lifecycle : after.lifecycle = before.lifecycle ∨ ∃ run worker,
    before.lifecycle = .running run ∧ run.worker.isSome = true ∧
      after.lifecycle = .running { run with worker := some worker }

namespace LeavesLink

variable {before middle after : Session σ}

theorem trans (h : before.LeavesLink middle) (h' : middle.LeavesLink after) :
    before.LeavesLink after := by
  refine ⟨h'.link.trans h.link, h'.holdsLink.trans h.holdsLink, ?_⟩
  rcases h'.lifecycle with hsame | ⟨run, worker, hrun, halive, hafter⟩
  · rw [hsame]
    exact h.lifecycle
  · rcases h.lifecycle with hsame | ⟨first, other, hfirst, hfirstAlive, hmiddle⟩
    · exact .inr ⟨run, worker, hsame.symm.trans hrun, halive, hafter⟩
    · obtain rfl := Lifecycle.running.inj (hmiddle.symm.trans hrun)
      exact .inr ⟨first, worker, hfirst, hfirstAlive, hafter⟩

theorem lifecycle_eq (h : before.LeavesLink after) (hworker : before.worker? = none) :
    after.lifecycle = before.lifecycle := by
  rcases h.lifecycle with hsame | ⟨run, worker, hrun, halive, -⟩
  · exact hsame
  · rw [worker?_of_running hrun] at hworker
    rw [hworker] at halive
    cases halive

theorem withDesk (session : Session σ) (desk : Desk) :
    session.LeavesLink { session with desk := desk } := ⟨rfl, rfl, .inl rfl⟩

theorem of_submit? {command : Command} (h : before.submit? command = some after) :
    before.LeavesLink after := by
  obtain ⟨run, worker, hrun, hworker, rfl⟩ := exists_of_submit? h
  exact ⟨rfl, rfl, .inr ⟨run, _, hrun, by rw [hworker]; rfl, rfl⟩⟩

end LeavesLink

/-- What is handed to the engine is no matter of the link. -/
theorem Hands.leavesLink {asked : Command → Prop} {before after : Session σ}
    (h : before.Hands asked after) : before.LeavesLink after := by
  obtain ⟨desk, rfl | ⟨command, -, hsubmit⟩⟩ := h
  · exact .withDesk before desk
  · exact (LeavesLink.withDesk before desk).trans (.of_submit? hsubmit)

theorem leavesLink_beginCall (session : Session σ) (operation : Operation) :
    session.LeavesLink (session.beginCall operation).2 :=
  (session.hands_beginCall operation).leavesLink

/-- A caller that stops waiting may want to hear no more. -/
theorem hands_conclude (session : Session σ) (call : Call) :
    session.Hands (fun command => ∃ window, command = .endDiscovery window)
      (session.conclude call).2 := by
  cases call with
  | enumerate walking => exact .withDesk _ session _
  | discover discovery waits =>
    change Hands _ session (session.endDiscovery discovery)
    rw [endDiscovery]
    cases hsubmit : submit? { session with
        desk := session.desk.mapWindow discovery.window Window.close }
        (.endDiscovery discovery.window) with
    | none => exact .withDesk _ session _
    | some submitted => exact ⟨_, .inr ⟨_, ⟨_, rfl⟩, hsubmit⟩⟩
  | _ => exact .refl _ session

@[simp] theorem window?_collect (session : Session σ) (call : Call) :
    (session.collect call).1.window? = call.window? := by
  unfold collect
  split <;> rfl

/-- A caller that goes on waiting leaves the session as it is, or fetches from its window. -/
theorem collect_eq_self_or_fetch (session : Session σ) (call : Call) :
    (session.collect call).2 = session ∨ ∃ discovery : Discovery,
      call.window? = some discovery.window ∧
        (session.collect call).2 = session.fetch discovery := by
  unfold collect
  split
  · exact .inr ⟨_, rfl, rfl⟩
  · exact .inl rfl
  · exact .inl rfl

/-- A caller that attends to its call hands over no more than one that stops waiting. -/
theorem hands_attend (session : Session σ) (call : Call) :
    session.Hands (fun command => ∃ window, command = .endDiscovery window)
      (session.attend call).2 := by
  rw [attend]
  split
  · exact session.hands_conclude call
  · rcases session.collect_eq_self_or_fetch call with hsame | ⟨discovery, -, hfetched⟩
    · rw [hsame]
      exact .refl _ session
    · rw [hfetched]
      exact .withDesk _ session _

theorem leavesLink_conclude (session : Session σ) (call : Call) :
    session.LeavesLink (session.conclude call).2 := (session.hands_conclude call).leavesLink

theorem leavesLink_attend (session : Session σ) (call : Call) :
    session.LeavesLink (session.attend call).2 := (session.hands_attend call).leavesLink

theorem submit?_or_eq_of_announce {session after : Session σ} {announced : Bool}
    (h : session.announce = .ok (announced, after)) :
    session.submit? .announce = some after ∨ after = session := by
  obtain ⟨run, -, hannounced⟩ := bind_eq_ok_iff.mp h
  split at hannounced
  · rename_i submitted hsubmit
    cases hannounced
    exact .inl hsubmit
  · cases hannounced
    exact .inr rfl

/-- An announcement is all that is handed over to announce the local device. -/
theorem hands_announce (session : Session σ) :
    session.Hands (· = .announce) (session.announce.toOption.elim session Prod.snd) := by
  cases hannounce : session.announce with
  | error error => exact .refl _ session
  | ok announced =>
    rcases submit?_or_eq_of_announce hannounce with hsubmit | heq
    · exact .of_submit? rfl hsubmit
    · change Hands _ session announced.2
      rw [heq]
      exact .refl _ session

end Session

end Fieldbus
