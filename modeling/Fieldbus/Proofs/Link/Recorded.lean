import Fieldbus.Proofs.Engine.Step
import Fieldbus.Proofs.Link.View

/-!
# Links with a log

A link can be made to keep a log of the confirmed requests handed to it, with what came of each.
The log is only looked at from outside: an engine over the link does with the log what it does
without it, so what is proved of the log says what the engine sends over any link.

## Main definitions

* `Recorded`: a link with a log.
* `Engine.forget`: the engine over the link itself.

## Main results

* `Engine.Step.exists_recorded`, `Engine.Reaches.exists_recorded`: every step and every run of an
  engine is one of the engine with a log.
-/

namespace Fieldbus

/-- A confirmed request handed to a link. -/
structure Dispatch where
  destination : Mac
  id : InvokeId
  request : ConfirmedRequest
  /-- Whether the link took it. -/
  taken : Bool
  deriving DecidableEq, Repr

/-- A link with a log of the confirmed requests handed to it, the oldest first. -/
structure Recorded (σ : Type) where
  link : σ
  log : List Dispatch := []
  deriving DecidableEq, Repr

namespace Recorded

variable {σ : Type} [Link σ]

/-- Sends a confirmed request and logs it. -/
def sendConfirmed (destination : Mac) (id : InvokeId) (request : ConfirmedRequest)
    (recorded : Recorded σ) : Except LinkError Unit × Recorded σ :=
  let (result, link) := Link.sendConfirmed destination id request recorded.link
  (result, ⟨link, recorded.log ++ [⟨destination, id, request, result.toBool⟩]⟩)

/-- An operation of the link that is not logged. -/
def unlogged {α : Type} (recorded : Recorded σ) (operation : σ → α × σ) : α × Recorded σ :=
  let (result, link) := operation recorded.link
  (result, { recorded with link := link })

instance : Link (Recorded σ) where
  connect parameters recorded := recorded.unlogged (Link.connect parameters)
  disconnect recorded := { recorded with link := Link.disconnect recorded.link }
  sendUnconfirmed destination request recorded :=
    recorded.unlogged (Link.sendUnconfirmed destination request)
  sendConfirmed := sendConfirmed
  receive recorded := recorded.unlogged Link.receive

theorem isView_link : Link.IsView (Recorded.link : Recorded σ → σ) where
  connect _ _ := rfl
  disconnect _ := rfl
  sendUnconfirmed _ _ _ := rfl
  sendConfirmed _ _ _ _ := rfl
  receive _ := rfl

theorem log_receive (recorded : Recorded σ) : (Link.receive recorded).2.log = recorded.log := rfl

end Recorded

namespace Engine

variable {σ : Type}

/-- The engine over the link itself. -/
def forget (engine : Engine (Recorded σ)) : Engine σ :=
  { toShared := ⟨engine.link.link, engine.clock, engine.cache, engine.desk⟩
    toWorker := engine.toWorker }

variable [Link σ]

theorem forget_complete (engine : Engine (Recorded σ)) (responder : Responder)
    (outcome : Outcome) :
    (engine.complete responder outcome).forget = engine.forget.complete responder outcome :=
  (mapLink_complete Recorded.isView_link engine responder outcome).symm

theorem forget_indicate (engine : Engine (Recorded σ)) (indication : Indication) :
    (engine.indicate indication).forget = engine.forget.indicate indication :=
  (mapLink_indicate Recorded.isView_link engine indication).symm

theorem forget_handle (engine : Engine (Recorded σ)) (command : Command) :
    (engine.handle command).forget = engine.forget.handle command :=
  (mapLink_handle Recorded.isView_link engine command).symm

/-- **Recording changes nothing.**  Every step of an engine is a step of the engine with a log. -/
theorem Step.exists_recorded {before after : Engine σ} {event : Event}
    (hstep : Step before event after) {recorded : Engine (Recorded σ)}
    (h : recorded.forget = before) :
    ∃ later, Step recorded event later ∧ later.forget = after := by
  subst h
  cases hstep with
  | act action =>
    refine ⟨recorded.perform action, .act recorded action, ?_⟩
    cases action <;> rfl
  | @obey command rest hqueue hcommand =>
    exact ⟨_, .obey hqueue hcommand, forget_handle { recorded with commands := rest } command⟩
  | listen hlisten =>
    have hlink : recorded.forget.link = recorded.link.link := rfl
    have hreceived : Link.receive recorded.link =
        recorded.link.unlogged Link.receive := rfl
    rcases listen_cases hlisten with ⟨link, hreceive, rfl⟩ | ⟨error, link, hreceive, rfl⟩ |
      ⟨indication, link, hreceive, rfl⟩
    all_goals
      rw [hlink] at hreceive
      rw [Recorded.unlogged, hreceive] at hreceived
    · exact ⟨_, .listen (by rw [Engine.listen, hreceived]), rfl⟩
    · exact ⟨_, .listen (by rw [Engine.listen, hreceived]), rfl⟩
    · exact ⟨_, .listen (by rw [Engine.listen, hreceived]), forget_indicate _ _⟩
  | @giveUp entry hentry hoverdue =>
    exact ⟨_, .giveUp hentry hoverdue, forget_complete (recorded.release entry.id) _ _⟩
  | @cancel entry hentry =>
    refine ⟨_, .cancel hentry, ?_⟩
    obtain ⟨id, destination, sentAt, responder⟩ := entry
    cases responder <;> rfl

/-- Every run of an engine is a run of the engine with a log. -/
theorem Reaches.exists_recorded {before after : Engine σ} (h : before.Reaches after)
    {recorded : Engine (Recorded σ)} (hforget : recorded.forget = before) :
    ∃ later, recorded.Reaches later ∧ later.forget = after := by
  induction h with
  | refl => exact ⟨recorded, .refl, hforget⟩
  | tail _ hstep ih =>
    obtain ⟨middle, hreaches, hmiddle⟩ := ih
    obtain ⟨event, hstep⟩ := hstep
    obtain ⟨later, hlater, hforget⟩ := hstep.exists_recorded hmiddle
    exact ⟨later, .tail hreaches ⟨event, hlater⟩, hforget⟩

end Engine

end Fieldbus
