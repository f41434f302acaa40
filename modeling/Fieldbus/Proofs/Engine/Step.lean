import Mathlib.Logic.Relation
import Fieldbus.Proofs.Engine.Service
import Fieldbus.Session.Enumeration

/-!
# Engines step by step

An engine does one thing at a time: it carries out a command, listens once, gives up one request,
or, when it stops, cancels one.  Between any two of these its callers may hand it commands, stop
waiting, or touch what they share with it, and time may pass.  A step is one of all these things, in
whatever order they come; an engine at work goes through steps, so what every step keeps holds at
every point of a run.

## Main definitions

* `Action`, `Engine.perform`: what happens around an engine.
* `Engine.Step`: one thing that happens, in the engine or around it.
* `Engine.Reaches`: what steps lead to.
* `Engine.launch`: an engine at its start.
-/

namespace Fieldbus

/-- What happens around an engine. -/
inductive Action where
  /-- A caller makes a request and takes a ticket for its outcome. -/
  | ask (destination : Mac) (request : ConfirmedRequest)
  /-- A caller starts a walk over the object list of a device and opens a report for it. -/
  | enumerate (destination : Mac) (device : UInt32)
  /-- A caller opens a discovery window. -/
  | discover (capacity : Nat) (destination : Destination) (low high : Option UInt32)
  /-- A caller closes a discovery window. -/
  | endDiscovery (window : WindowId)
  | announce
  | shutdown
  /-- The caller of a walk stops waiting for it. -/
  | abandon (report : WalkId)
  /-- A caller fetches the oldest record that waits in a window. -/
  | fetch (window : WindowId)
  /-- Callers put records into the cache, or clear it. -/
  | refill (cache : DeviceCache)
  /-- Time passes. -/
  | pass (milliseconds : Nat)
  deriving DecidableEq, Repr

/-- What happens to an engine at work. -/
inductive Event where
  | act (action : Action)
  /-- The engine carries out the oldest command. -/
  | obey
  /-- The engine listens for one indication and takes it in. -/
  | listen
  /-- The engine gives up a request that has waited too long. -/
  | giveUp (entry : Pending)
  /-- The engine, about to stop, fails a request that waits. -/
  | cancel (entry : Pending)
  deriving DecidableEq, Repr

namespace Engine

variable {σ : Type}

/-- The engine with one more command. -/
def accept (engine : Engine σ) (command : Command) : Engine σ :=
  { engine with toWorker := engine.submit command }

/-- The engine after something has happened around it. -/
def perform (engine : Engine σ) : Action → Engine σ
  | .ask destination request =>
    let (ticket, desk) := engine.desk.issue
    accept { engine with desk := desk } (.request destination request (.ticket ticket))
  | .enumerate destination device =>
    let (report, desk) := engine.desk.openReport
    let walk := Walk.onDevice destination device report
    accept { engine with desk := desk } (.request destination walk.firstRead (.walk walk))
  | .discover capacity destination low high =>
    let (window, desk) := engine.desk.openWindow capacity
    accept { engine with desk := desk } (.discover window destination low high)
  | .endDiscovery window =>
    accept { engine with desk := engine.desk.mapWindow window Window.close } (.endDiscovery window)
  | .announce => engine.accept .announce
  | .shutdown => engine.accept .shutdown
  | .abandon report =>
    { engine with desk := engine.desk.mapReport report WalkReport.abandon }
  | .fetch window => { engine with desk := engine.desk.mapWindow window Window.fetch }
  | .refill cache => { engine with cache := cache }
  | .pass milliseconds => { engine with clock := engine.clock + milliseconds }

/-- The engine without a request that waited under an id. -/
def release (engine : Engine σ) (id : InvokeId) : Engine σ :=
  { engine with toWorker := engine.drop id }

/-- One thing that happens, in an engine or around it.  Which request is given up or cancelled
first is left open. -/
inductive Step [Link σ] : Engine σ → Event → Engine σ → Prop
  | act (engine : Engine σ) (action : Action) :
      Step engine (.act action) (engine.perform action)
  | obey {engine : Engine σ} {command : Command} {rest : List Command}
      (hqueue : engine.commands = command :: rest) (hcommand : command ≠ .shutdown) :
      Step engine .obey (handle { engine with commands := rest } command)
  | listen {engine after : Engine σ} (hlisten : engine.listen = .ok after) :
      Step engine .listen after
  | giveUp {engine : Engine σ} {entry : Pending} (hentry : entry ∈ engine.pending)
      (hoverdue : engine.isOverdue entry = true) :
      Step engine (.giveUp entry) (engine.giveUp entry)
  | cancel {engine : Engine σ} {entry : Pending} (hentry : entry ∈ engine.pending) :
      Step engine (.cancel entry) ((engine.release entry.id).cancel entry)

/-- What a step leads to, if the engine can make it. -/
def next? [Link σ] (engine : Engine σ) : Event → Option (Engine σ)
  | .act action => some (engine.perform action)
  | .obey =>
    match engine.commands with
    | [] => none
    | command :: rest =>
      if command = .shutdown then none else some (handle { engine with commands := rest } command)
  | .listen => engine.listen.toOption
  | .giveUp entry =>
    if entry ∈ engine.pending ∧ engine.isOverdue entry = true then some (engine.giveUp entry)
    else none
  | .cancel entry =>
    if entry ∈ engine.pending then some ((engine.release entry.id).cancel entry) else none

/-- Steps can be computed. -/
theorem step_iff_next?_eq_some [Link σ] {before after : Engine σ} {event : Event} :
    Step before event after ↔ before.next? event = some after := by
  constructor
  · intro h
    cases h with
    | act action => rfl
    | obey hqueue hcommand => simp [next?, hqueue, hcommand]
    | listen hlisten => simp [next?, hlisten, Except.toOption]
    | giveUp hentry hoverdue => simp [next?, hentry, hoverdue]
    | cancel hentry => simp [next?, hentry]
  · intro h
    cases event with
    | act action =>
      cases h
      exact .act before action
    | obey =>
      simp only [next?] at h
      split at h
      · cases h
      · rename_i command rest hqueue
        obtain ⟨hcommand, hafter⟩ := Option.ite_none_left_eq_some.mp h
        cases hafter
        exact .obey hqueue hcommand
    | listen =>
      cases hlisten : before.listen with
      | error shared => simp [next?, hlisten, Except.toOption] at h
      | ok heard =>
        obtain rfl : heard = after := by simpa [next?, hlisten, Except.toOption] using h
        exact .listen hlisten
    | giveUp entry =>
      obtain ⟨⟨hentry, hoverdue⟩, hafter⟩ := Option.ite_none_right_eq_some.mp h
      cases hafter
      exact .giveUp hentry hoverdue
    | cancel entry =>
      obtain ⟨hentry, hafter⟩ := Option.ite_none_right_eq_some.mp h
      cases hafter
      exact .cancel hentry

/-- Steps lead from one engine to another. -/
def Reaches [Link σ] : Engine σ → Engine σ → Prop :=
  Relation.ReflTransGen fun before after => ∃ event, Step before event after

/-- An engine at its start: it has nothing to do, and what outlives engines is as it was. -/
def launch (shared : Shared σ) (identity : LocalDevice) (timing : Timing) : Engine σ :=
  { toShared := shared, toWorker := { identity := identity, timing := timing } }

/-! ### What an indication is about -/

variable [Link σ] {engine : Engine σ}

/-- The client whom a step deals with: that of the command that is carried out, or of the request
whose answer is heard or that is ended. -/
def addressee? (engine : Engine σ) : Event → Option Client
  | .act _ => none
  | .obey => engine.commands.head?.bind Command.client?
  | .listen =>
    match (Link.receive engine.link).1 with
    | .heard (.completion source id _) =>
      (engine.pending? id).bind fun entry =>
        if entry.destination = source then some entry.responder.client else none
    | _ => none
  | .giveUp entry => some entry.responder.client
  | .cancel entry => some entry.responder.client

/-- The outcome that a step brings for the request it deals with. -/
def outcome? (engine : Engine σ) : Event → Option Outcome
  | .listen =>
    match (Link.receive engine.link).1 with
    | .heard (.completion _ _ outcome) => some outcome
    | _ => none
  | .giveUp _ => some (.failure .timeout)
  | .cancel _ => some (.failure .stopped)
  | .act _ | .obey => none

/-- What an engine that listens takes in. -/
theorem listen_cases {after : Engine σ} (h : engine.listen = .ok after) :
    (∃ link, Link.receive engine.link = (.nothing, link) ∧ after = { engine with link := link }) ∨
      (∃ error link, Link.receive engine.link = (.failed error, link) ∧
        after = { engine with
          link := link
          clock := engine.clock + engine.timing.pollInterval.toNat }) ∨
      ∃ indication link, Link.receive engine.link = (.heard indication, link) ∧
        after = indicate { engine with link := link } indication := by
  rw [listen] at h
  cases hreceive : Link.receive engine.link with
  | mk reception link =>
    rw [hreceive] at h
    cases reception with
    | nothing => exact .inl ⟨link, rfl, (Except.ok.inj h).symm⟩
    | heard indication => exact .inr (.inr ⟨indication, link, rfl, (Except.ok.inj h).symm⟩)
    | failed error => exact .inr (.inl ⟨error, link, rfl, (Except.ok.inj h).symm⟩)
    | broken => cases h

/-- What a step does that deals with a client: it starts the client's request, or brings an outcome
for the one that waits. -/
theorem Step.cases_of_addressee?_eq_some {before after : Engine σ} {event : Event} {client : Client}
    (hstep : Step before event after) (haddressee : before.addressee? event = some client) :
    (∃ destination request responder rest, responder.client = client ∧
      before.commands = .request destination request responder :: rest ∧
      before.outcome? event = none ∧
      after = Engine.start { before with commands := rest } destination request responder) ∨
    ∃ entry outcome link, entry ∈ before.pending ∧ entry.responder.client = client ∧
      before.outcome? event = some outcome ∧
      (link = before.link ∨ link = (Link.receive before.link).2) ∧
      (after = Engine.complete { before.release entry.id with link := link } entry.responder
          outcome ∨
        outcome = .failure .stopped ∧
          after = Engine.cancel { before.release entry.id with link := link } entry) := by
  cases hstep with
  | act action => cases haddressee
  | @obey command rest hqueue hcommand =>
    have hclient : command.client? = some client := by
      simpa [addressee?, hqueue] using haddressee
    cases command with
    | request destination request responder =>
      exact .inl ⟨destination, request, responder, rest, Option.some.inj hclient, hqueue, rfl, rfl⟩
    | _ => cases hclient
  | listen hlisten =>
    right
    rcases listen_cases hlisten with ⟨link, hreceive, rfl⟩ | ⟨error, link, hreceive, rfl⟩ |
      ⟨indication, link, hreceive, rfl⟩
    · simp [addressee?, hreceive] at haddressee
    · simp [addressee?, hreceive] at haddressee
    · cases indication with
      | iAm source announcement => simp [addressee?, hreceive] at haddressee
      | completion source id outcome =>
        simp only [addressee?, hreceive] at haddressee
        obtain ⟨entry, hfound, hmatch⟩ := Option.bind_eq_some_iff.mp haddressee
        obtain ⟨hentry, rfl⟩ := Worker.mem_of_pending? hfound
        split at hmatch
        · rename_i hsource
          refine ⟨entry, outcome, link, hentry, Option.some.inj hmatch, ?_, .inr ?_, .inl ?_⟩
          · rw [outcome?, hreceive]
          · rw [hreceive]
          · let heard : Engine σ := { before with link := link }
            have hanswered : heard.completion source entry.id outcome =
                (heard.release entry.id).complete entry.responder outcome := by
              rw [completion, show heard.pending? entry.id = some entry from hfound]
              exact if_pos hsource
            exact hanswered
        · cases hmatch
  | @giveUp entry hentry hoverdue =>
    exact .inr ⟨entry, .failure .timeout, before.link, hentry, Option.some.inj haddressee, rfl,
      .inl rfl, .inl rfl⟩
  | @cancel entry hentry =>
    exact .inr ⟨entry, .failure .stopped, before.link, hentry, Option.some.inj haddressee, rfl,
      .inl rfl, .inr ⟨rfl, rfl⟩⟩

end Engine

end Fieldbus
