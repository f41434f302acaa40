import Fieldbus.Proofs.Session.Enumeration
import Fieldbus.Proofs.Session.View

/-!
# What happens to sessions

A session is started and shut down, used for operations, and works or crashes with its engine, in
any order and as often as anybody likes.  A history is one of these things after the other.

## Main definitions

* `Session.Happening`, `Session.happen`: what happens to a session, and what it makes of it.
* `Session.crashes`: whether an engine crashes.
* `Session.after`: the session after a history.
* `Session.Calm`: histories without a crash.

## Main results

* `Session.mapLink_after`: a history goes over a link as over the one it is seen as.
-/

namespace Fieldbus.Session

/-- What happens to a session, one thing after the other. -/
inductive Happening where
  | start (config : Config)
  | shutdown
  /-- The engine, if there is one alive, works for one turn. -/
  | turn
  /-- The engine, if there is one alive, crashes, and leaves the cache and the desk as they may be. -/
  | crash (cache : DeviceCache) (desk : Desk)
  | announce
  | begin (operation : Operation)
  | attend (call : Call)
  /-- A caller stops waiting. -/
  | conclude (call : Call)
  /-- Callers put records into the cache, or clear it. -/
  | refill (cache : DeviceCache)
  /-- Time passes. -/
  | pass (milliseconds : Nat)

variable {σ : Type} [Link σ]

/-- The session after something has happened. -/
def happen (session : Session σ) : Happening → Session σ
  | .start config => (session.ensureStarted config).2
  | .shutdown => session.shutdown
  | .turn => session.turn
  | .crash cache desk =>
    match session.worker? with
    | none => session
    | some _ => Session.withWorker { session with cache := cache, desk := desk } none
  | .announce => session.announce.toOption.elim session Prod.snd
  | .begin operation => (session.beginCall operation).2
  | .attend call => (session.attend call).2
  | .conclude call => (session.conclude call).2
  | .refill cache => { session with cache := cache }
  | .pass milliseconds => { session with clock := session.clock + milliseconds }

/-- The session after one thing after the other has happened. -/
def after (session : Session σ) (history : List Happening) : Session σ :=
  history.foldl happen session

theorem after_concat (session : Session σ) (history : List Happening) (happening : Happening) :
    session.after (history ++ [happening]) = (session.after history).happen happening := by
  rw [after, List.foldl_append]
  rfl

/-- Whether the engine of a session crashes in what happens. -/
def crashes (session : Session σ) : Happening → Bool
  | .crash _ _ => session.worker?.isSome
  | .turn =>
    match session.alive?.map Engine.turn with
    | some (.crashed _) => true
    | _ => false
  | _ => false

/-- Whether no engine of a session crashes in a history. -/
def Calm (session : Session σ) (history : List Happening) : Prop :=
  ∀ earlier happening later, history = earlier ++ happening :: later →
    (session.after earlier).crashes happening = false

/-- A history without a crash has none first and none later. -/
theorem calm_cons_iff {session : Session σ} {happening : Happening} {rest : List Happening} :
    session.Calm (happening :: rest) ↔
      session.crashes happening = false ∧ (session.happen happening).Calm rest := by
  constructor
  · intro hcalm
    refine ⟨hcalm [] happening rest rfl, fun earlier other later hsplit => ?_⟩
    exact hcalm (happening :: earlier) other later (by rw [hsplit, List.cons_append])
  · rintro ⟨hfirst, hcalm⟩ earlier other later hsplit
    cases earlier with
    | nil =>
      obtain ⟨rfl, -⟩ := List.cons.inj hsplit
      exact hfirst
    | cons first earlier =>
      obtain ⟨rfl, rfl⟩ := List.cons.inj hsplit
      exact hcalm earlier other later rfl

theorem calm_nil (session : Session σ) : session.Calm [] :=
  fun _ _ _ hsplit =>
    absurd hsplit.symm (List.append_ne_nil_of_right_ne_nil _ (List.cons_ne_nil _ _))

section View

variable {τ : Type} {view : τ → σ} [Link τ]

theorem mapLink_happen (h : Link.IsView view) (session : Session τ) (happening : Happening) :
    (session.mapLink view).happen happening = (session.happen happening).mapLink view := by
  cases happening with
  | start config => exact congrArg Prod.snd (mapLink_ensureStarted h session config)
  | shutdown => exact mapLink_shutdown h session
  | turn => exact mapLink_turn h session
  | crash cache desk =>
    rw [happen, happen, mapLink_worker?]
    cases session.worker? with
    | none => rfl
    | some worker => exact mapLink_withWorker { session with cache := cache, desk := desk } none
  | announce =>
    rw [happen, happen, mapLink_announce]
    cases session.announce <;> rfl
  | begin operation => exact congrArg Prod.snd (mapLink_beginCall session operation)
  | attend call => exact congrArg Prod.snd (mapLink_attend session call)
  | conclude call => exact congrArg Prod.snd (mapLink_conclude session call)
  | refill cache => rfl
  | pass milliseconds => rfl

/-- **What a link carries besides makes no difference to the life of a session.** -/
theorem mapLink_after (h : Link.IsView view) (session : Session τ) (history : List Happening) :
    (session.mapLink view).after history = (session.after history).mapLink view := by
  induction history generalizing session with
  | nil => rfl
  | cons happening rest ih =>
    rw [after, List.foldl_cons, mapLink_happen h]
    exact ih (session.happen happening)

end View

end Fieldbus.Session
