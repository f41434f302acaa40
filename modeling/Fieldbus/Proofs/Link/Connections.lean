import Fieldbus.Proofs.Engine.Traffic

/-!
# Connections of links

An engine at work sends over its link and listens to it, and does not join or leave the segment; it
leaves when it stops, and then once.  To say how often a link was opened and closed it can be made
to keep a log of its connections.  The log is only looked at from outside.

## Main definitions

* `Link.Carries`: what sending and listening make of a link.
* `Logged`: a link with a log of its connections.

## Main results

* `Engine.carries_of_turn_running`, `Engine.carries_of_turn_crashed`: an engine that does not stop
  only sends and listens.
* `Engine.exists_carries_of_turn_stopped`: an engine that stops leaves the segment at its end.
* `Logged.log_of_carries`: neither sending nor listening is a connection.
-/

namespace Fieldbus

namespace Link

variable {σ : Type} [Link σ]

/-- What sending or listening once makes of a link. -/
inductive Uses : σ → σ → Prop
  | sendUnconfirmed (destination : Destination) (request : UnconfirmedRequest) (link : σ) :
      Uses link (Link.sendUnconfirmed destination request link).2
  | sendConfirmed (destination : Mac) (id : InvokeId) (request : ConfirmedRequest) (link : σ) :
      Uses link (Link.sendConfirmed destination id request link).2
  | receive (link : σ) : Uses link (Link.receive link).2

/-- What sending and listening make of a link. -/
def Carries : σ → σ → Prop := Relation.ReflTransGen Uses

theorem Sends.carries {allowed : Message → Prop} {before after : σ}
    (h : Sends allowed before after) : Carries before after := by
  refine Relation.ReflTransGen.mono (fun link next hpasses => ?_) _ _ h
  cases hpasses with
  | sendUnconfirmed => exact .sendUnconfirmed _ _ link
  | sendConfirmed => exact .sendConfirmed _ _ _ link
  | receive => exact .receive link

end Link

namespace Engine

/-! ### Turns -/

variable {σ : Type} [Link σ] {engine after : Engine σ} {shared : Shared σ}

theorem obeyAll_fst_of_mem {commands : List Command} (h : .shutdown ∈ commands)
    (engine : Engine σ) : (obeyAll commands engine).1 = true := by
  induction commands generalizing engine with
  | nil => exact absurd h List.not_mem_nil
  | cons command rest ih =>
    cases command with
    | shutdown => rfl
    | _ => exact ih ((List.mem_cons.mp h).resolve_left nofun) _

theorem exists_turn_eq_stopped (h : .shutdown ∈ engine.commands) :
    ∃ shared, engine.turn = .stopped shared := by
  rcases engine.turn_cases with ⟨obeyed, -, hturn⟩ | ⟨obeyed, hobey, -⟩
  · exact ⟨_, hturn⟩
  · have hgoes : (obeyAll engine.commands { engine with commands := [] }).1 = false :=
      congrArg Prod.fst hobey
    rw [obeyAll_fst_of_mem h] at hgoes
    cases hgoes

/-- What an engine leaves, whatever it sends. -/
theorem leaves_turn_anything (engine : Engine σ) : engine.Leaves (fun _ => True) engine.turn :=
  leaves_turn (.of_all (fun _ => trivial) _)

/-- An engine that goes on only sends and listens. -/
theorem carries_of_turn_running (h : engine.turn = .running after) :
    Link.Carries engine.link after.link := by
  have hleaves := engine.leaves_turn_anything
  rw [h] at hleaves
  cases hleaves with
  | running hsends => exact hsends.link.carries

/-- An engine that crashes only sends and listens before. -/
theorem carries_of_turn_crashed (h : engine.turn = .crashed shared) :
    Link.Carries engine.link shared.link := by
  have hleaves := engine.leaves_turn_anything
  rw [h] at hleaves
  cases hleaves with
  | crashed hsends => exact hsends.carries

/-- An engine that stops only sends before, and then leaves the segment. -/
theorem exists_carries_of_turn_stopped (h : engine.turn = .stopped shared) :
    ∃ last, Link.Carries engine.link last ∧ shared.link = Link.disconnect last := by
  have hleaves := engine.leaves_turn_anything
  rw [h] at hleaves
  cases hleaves with
  | stopped hsends hlink => exact ⟨_, hsends.carries, hlink⟩

end Engine

/-! ### Links with a log of their connections -/

/-- What a link does to be part of a segment. -/
inductive Connection where
  /-- The link joined the segment. -/
  | opened
  /-- The link left the segment. -/
  | closed
  deriving DecidableEq, Repr

/-- A link with a log of its connections, the oldest first; that it did not open is not logged. -/
structure Logged (σ : Type) where
  link : σ
  log : List Connection := []
  deriving DecidableEq, Repr

namespace Logged

variable {σ : Type} [Link σ]

/-- Joins the segment, and logs it if the link opened. -/
def connect (parameters : LinkParameters) (logged : Logged σ) : Except LinkError Unit × Logged σ :=
  match Link.connect parameters logged.link with
  | (.ok (), link) => (.ok (), ⟨link, logged.log ++ [.opened]⟩)
  | (.error error, link) => (.error error, ⟨link, logged.log⟩)

/-- An operation of the link that is no connection. -/
def unlogged {α : Type} (logged : Logged σ) (operation : σ → α × σ) : α × Logged σ :=
  let (result, link) := operation logged.link
  (result, { logged with link := link })

instance : Link (Logged σ) where
  connect := connect
  disconnect logged := ⟨Link.disconnect logged.link, logged.log ++ [.closed]⟩
  sendUnconfirmed destination request logged :=
    logged.unlogged (Link.sendUnconfirmed destination request)
  sendConfirmed destination id request logged :=
    logged.unlogged (Link.sendConfirmed destination id request)
  receive logged := logged.unlogged Link.receive

/-- A link with a log does what it does without. -/
theorem isView_link : Link.IsView (Logged.link : Logged σ → σ) where
  connect parameters logged := by
    change _ = Prod.map id Logged.link (connect parameters logged)
    rw [connect]
    split <;> rename_i hconnect <;> exact hconnect
  disconnect _ := rfl
  sendUnconfirmed _ _ _ := rfl
  sendConfirmed _ _ _ _ := rfl
  receive _ := rfl

theorem of_connect_ok {parameters : LinkParameters} {logged after : Logged σ}
    (h : Link.connect parameters logged = (.ok (), after)) :
    after.log = logged.log ++ [.opened] ∧
      Link.connect parameters logged.link = (.ok (), after.link) := by
  change connect parameters logged = _ at h
  rw [connect] at h
  split at h
  · rename_i link hconnect
    cases h
    exact ⟨rfl, hconnect⟩
  · cases h

theorem of_connect_error {parameters : LinkParameters} {logged after : Logged σ} {error : LinkError}
    (h : Link.connect parameters logged = (.error error, after)) :
    after.log = logged.log ∧ Link.connect parameters logged.link = (.error error, after.link) := by
  change connect parameters logged = _ at h
  rw [connect] at h
  split at h
  · cases h
  · rename_i cause link hconnect
    cases h
    exact ⟨rfl, hconnect⟩

theorem connect_fst (parameters : LinkParameters) (logged : Logged σ) :
    (Link.connect parameters logged).1 = (Link.connect parameters logged.link).1 := by
  change (connect parameters logged).1 = _
  rw [connect]
  split <;> rename_i hconnect <;> rw [hconnect]

/-- Neither sending nor listening is a connection. -/
theorem log_of_carries {logged after : Logged σ} (h : Link.Carries logged after) :
    after.log = logged.log := by
  induction h with
  | refl => rfl
  | tail _ huses ih =>
    rw [← ih]
    cases huses <;> rfl

end Logged

end Fieldbus
