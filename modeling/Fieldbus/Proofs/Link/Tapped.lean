import Mathlib.Logic.Relation
import Fieldbus.Proofs.Link.View

/-!
# Links with a tap

Everything that is done with a link can be listened in on: when it is opened and with which
parameters, when it is closed, and every request that is handed to it, whether or not the link takes
it.  The tap is only looked at from outside, so what is proved of it says how any link is used.

## Main definitions

* `Message`, `LinkUse`: a request handed to a link, and anything that is done with one.
* `Link.Sends`: what sending allowed messages and listening make of a link.
* `Tapped`: a link with a log of all that was done with it.

## Main results

* `Tapped.isView_link`: the tap makes no difference.
* `Tapped.exists_log_of_sends`: where allowed messages are sent only, the log grows by these.
-/

namespace Fieldbus

/-- A request that is handed to a link, with where it is to go. -/
inductive Message where
  | unconfirmed (destination : Destination) (request : UnconfirmedRequest)
  | confirmed (destination : Mac) (id : InvokeId) (request : ConfirmedRequest)
  deriving DecidableEq, Repr

/-- What is done with a link, listening apart. -/
inductive LinkUse where
  /-- The link joined the segment. -/
  | opened (parameters : LinkParameters)
  /-- The link left the segment. -/
  | closed
  /-- A request was handed to the link, which may have refused it. -/
  | sent (message : Message)
  deriving DecidableEq, Repr

namespace Link

variable {σ : Type} [Link σ] {allowed : Message → Prop}

/-- What sending one allowed message or listening once makes of a link. -/
inductive Passes (allowed : Message → Prop) : σ → σ → Prop
  | sendUnconfirmed {destination : Destination} {request : UnconfirmedRequest}
      (h : allowed (.unconfirmed destination request)) (link : σ) :
      Passes allowed link (Link.sendUnconfirmed destination request link).2
  | sendConfirmed {destination : Mac} {id : InvokeId} {request : ConfirmedRequest}
      (h : allowed (.confirmed destination id request)) (link : σ) :
      Passes allowed link (Link.sendConfirmed destination id request link).2
  | receive (link : σ) : Passes allowed link (Link.receive link).2

/-- What sending allowed messages and listening make of a link. -/
def Sends (allowed : Message → Prop) : σ → σ → Prop := Relation.ReflTransGen (Passes allowed)

end Link

/-- A link with a log of what was done with it, the oldest first; that it did not open is not
logged. -/
structure Tapped (σ : Type) where
  link : σ
  log : List LinkUse := []
  deriving DecidableEq, Repr

namespace Tapped

variable {σ : Type} [Link σ]

/-- Joins the segment, and logs it if the link opened. -/
def connect (parameters : LinkParameters) (tapped : Tapped σ) : Except LinkError Unit × Tapped σ :=
  match Link.connect parameters tapped.link with
  | (.ok (), link) => (.ok (), ⟨link, tapped.log ++ [.opened parameters]⟩)
  | (.error error, link) => (.error error, ⟨link, tapped.log⟩)

/-- Sends a message by an operation of the link, and logs it. -/
def send (message : Message) (operation : σ → Except LinkError Unit × σ) (tapped : Tapped σ) :
    Except LinkError Unit × Tapped σ :=
  let (result, link) := operation tapped.link
  (result, ⟨link, tapped.log ++ [.sent message]⟩)

/-- Listens for one indication, which is not logged. -/
def receive (tapped : Tapped σ) : Reception × Tapped σ :=
  let (reception, link) := Link.receive tapped.link
  (reception, { tapped with link := link })

instance : Link (Tapped σ) where
  connect := connect
  disconnect tapped := ⟨Link.disconnect tapped.link, tapped.log ++ [.closed]⟩
  sendUnconfirmed destination request :=
    send (.unconfirmed destination request) (Link.sendUnconfirmed destination request)
  sendConfirmed destination id request :=
    send (.confirmed destination id request) (Link.sendConfirmed destination id request)
  receive := receive

/-- A link with a tap does what it does without. -/
theorem isView_link : Link.IsView (Tapped.link : Tapped σ → σ) where
  connect parameters tapped := by
    change _ = Prod.map id Tapped.link (connect parameters tapped)
    rw [connect]
    split <;> rename_i hconnect <;> exact hconnect
  disconnect _ := rfl
  sendUnconfirmed _ _ _ := rfl
  sendConfirmed _ _ _ _ := rfl
  receive _ := rfl

variable {tapped after : Tapped σ}

theorem log_of_connect_ok {parameters : LinkParameters}
    (h : Link.connect parameters tapped = (.ok (), after)) :
    after.log = tapped.log ++ [.opened parameters] := by
  change connect parameters tapped = _ at h
  rw [connect] at h
  split at h <;> cases h
  rfl

theorem log_of_connect_error {parameters : LinkParameters} {error : LinkError}
    (h : Link.connect parameters tapped = (.error error, after)) : after.log = tapped.log := by
  change connect parameters tapped = _ at h
  rw [connect] at h
  split at h <;> cases h
  rfl

/-- Where allowed messages are sent only, the log grows by such messages. -/
theorem exists_log_of_sends {allowed : Message → Prop} (h : Link.Sends allowed tapped after) :
    ∃ messages : List Message, after.log = tapped.log ++ messages.map .sent ∧
      ∀ message ∈ messages, allowed message := by
  induction h with
  | refl => exact ⟨[], (List.append_nil _).symm, nofun⟩
  | @tail middle _ _ hpasses ih =>
    obtain ⟨messages, hlog, hallowed⟩ := ih
    have hmore : ∀ message, allowed message → ∃ more : List Message,
        middle.log ++ [.sent message] = tapped.log ++ more.map .sent ∧
          ∀ message ∈ more, allowed message := fun message hmessage =>
      ⟨messages ++ [message], by simp [hlog], by
        simpa [or_imp, forall_and] using ⟨hallowed, hmessage⟩⟩
    cases hpasses with
    | sendUnconfirmed hmessage => exact hmore _ hmessage
    | sendConfirmed hmessage => exact hmore _ hmessage
    | receive => exact ⟨messages, hlog, hallowed⟩

end Tapped

end Fieldbus
