import Fieldbus.Proofs.Link.View
import Fieldbus.Session.Call

/-!
# Sessions over links seen as other links

What a link carries besides makes no difference to the session that owns it, as it makes none to an
engine: every operation of the session does over the one link what it does over the other, and says
the same.

## Main definitions

* `Session.mapLink`: the session over the link as it is seen.

## Main results

* `Session.mapLink_ensureStarted`, `Session.mapLink_turn`, `Session.mapLink_shutdown`: the operations
  that use the link.
* `Session.mapLink_beginCall`, `Session.mapLink_attend`, `Session.mapLink_conclude`,
  `Session.mapLink_announce`: the operations that leave it to the engine.
-/

namespace Fieldbus.Session

variable {τ σ : Type} {view : τ → σ}

/-- A session over the link as it is seen. -/
def mapLink (view : τ → σ) (session : Session τ) : Session σ :=
  { toShared := session.toShared.mapLink view
    holdsLink := session.holdsLink
    lifecycle := session.lifecycle }

@[simp] theorem mapLink_run? (session : Session τ) :
    (session.mapLink view).run? = session.run? := rfl

@[simp] theorem mapLink_worker? (session : Session τ) :
    (session.mapLink view).worker? = session.worker? := rfl

@[simp] theorem mapLink_engine (session : Session τ) :
    (session.mapLink view).engine = session.engine := rfl

@[simp] theorem mapLink_locate (session : Session τ) (address : Address) :
    (session.mapLink view).locate address = session.locate address := by
  cases address <;> rfl

/-! ### Operations that leave the link to the engine -/

theorem mapLink_withWorker (session : Session τ) (worker : Option Worker) :
    (session.mapLink view).withWorker worker = (session.withWorker worker).mapLink view := by
  obtain ⟨shared, holdsLink, lifecycle⟩ := session
  cases lifecycle <;> rfl

theorem mapLink_submit? (session : Session τ) (command : Command) :
    (session.mapLink view).submit? command =
      (session.submit? command).map (mapLink view) := by
  rw [submit?, submit?, mapLink_worker?, Option.map_map]
  exact congrArg (session.worker?.map ·) (funext fun worker => mapLink_withWorker session _)

theorem submit?_mapLink_withDesk {session : Session τ} {seen : Session σ}
    (h : session.mapLink view = seen) (desk : Desk) (command : Command) :
    submit? { seen with desk := desk } command =
      (submit? { session with desk := desk } command).map (mapLink view) := by
  subst h
  exact mapLink_submit? { session with desk := desk } command

theorem mapLink_transact (session : Session τ) (run : EngineRun) (mac : Mac)
    (request : ConfirmedRequest) :
    (session.mapLink view).transact run mac request =
      Prod.map id (mapLink view) <$> session.transact run mac request := by
  have hdesk : (session.mapLink view).desk = session.desk := rfl
  simp only [transact, hdesk, submit?_mapLink_withDesk rfl]
  cases submit? { session with desk := session.desk.issue.2 } _ <;> rfl

theorem mapLink_beginRead (session : Session τ) (mac : Mac) (path : PropertyPath) :
    (session.mapLink view).beginRead mac path =
      Prod.map id (mapLink view) <$> session.beginRead mac path := by
  simp only [beginRead, mapLink_engine, mapLink_transact, map_bind]

theorem mapLink_beginWrite (session : Session τ) (mac : Mac) (path : PropertyPath) (text : String)
    (priority : Option UInt8) :
    (session.mapLink view).beginWrite mac path text priority =
      Prod.map id (mapLink view) <$> session.beginWrite mac path text priority := by
  simp only [beginWrite, mapLink_engine, mapLink_transact, map_bind]
  by_cases hlarge : maxInstance < path.number
  · simp only [hlarge, if_true]
    rfl
  · simp only [hlarge, if_false, map_bind]

theorem mapLink_beginEnumeration (session : Session τ) (mac : Mac) (device : UInt32)
    (timeout : Nat) :
    (session.mapLink view).beginEnumeration mac device timeout =
      Prod.map id (mapLink view) <$> session.beginEnumeration mac device timeout := by
  have hdesk : (session.mapLink view).desk = session.desk := rfl
  simp only [beginEnumeration, mapLink_engine, hdesk, submit?_mapLink_withDesk rfl, map_bind]
  cases submit? { session with desk := session.desk.openReport.2 } _ <;> rfl

theorem mapLink_beginDiscovery (session : Session τ) (timeout : Nat) (station : Option Mac)
    (low high : Option UInt32) :
    (session.mapLink view).beginDiscovery timeout station low high =
      Option.map (Prod.map id (mapLink view)) <$>
        session.beginDiscovery timeout station low high := by
  have hdesk : (session.mapLink view).desk = session.desk := rfl
  simp only [beginDiscovery, mapLink_engine, hdesk, submit?_mapLink_withDesk rfl, map_bind,
    map_pure, Option.map_map]
  rfl

theorem mapLink_announce (session : Session τ) :
    (session.mapLink view).announce = Prod.map id (mapLink view) <$> session.announce := by
  simp only [announce, mapLink_engine, mapLink_submit?, map_bind]
  cases session.submit? .announce <;> rfl

/-- To begin an operation is the same over the link as it is seen. -/
theorem mapLink_beginCall (session : Session τ) (operation : Operation) :
    (session.mapLink view).beginCall operation =
      Prod.map id (mapLink view) (session.beginCall operation) := by
  cases operation with
  | read address path =>
    rw [beginCall, beginCall, mapLink_locate]
    cases session.locate address with
    | error error => rfl
    | ok mac =>
      dsimp only
      rw [mapLink_beginRead]
      cases session.beginRead mac path <;> rfl
  | write address path text priority =>
    rw [beginCall, beginCall, mapLink_locate]
    cases session.locate address with
    | error error => rfl
    | ok mac =>
      dsimp only
      rw [mapLink_beginWrite]
      cases session.beginWrite mac path text priority <;> rfl
  | enumerate address device timeout =>
    rw [beginCall, beginCall, mapLink_locate]
    cases session.locate address with
    | error error => rfl
    | ok mac =>
      dsimp only
      rw [mapLink_beginEnumeration]
      cases session.beginEnumeration mac device timeout <;> rfl
  | discover timeout station low high =>
    rw [beginCall, beginCall, mapLink_beginDiscovery]
    cases session.beginDiscovery timeout station low high with
    | error error => rfl
    | ok begun => cases begun <;> rfl

theorem mapLink_endDiscovery (session : Session τ) (discovery : Discovery) :
    (session.mapLink view).endDiscovery discovery =
      (session.endDiscovery discovery).mapLink view := by
  have hdesk : (session.mapLink view).desk = session.desk := rfl
  simp only [endDiscovery, hdesk, submit?_mapLink_withDesk rfl]
  cases submit? { session with desk := session.desk.mapWindow discovery.window Window.close } _ <;>
    rfl

/-- To stop waiting is the same over the link as it is seen. -/
theorem mapLink_conclude (session : Session τ) (call : Call) :
    (session.mapLink view).conclude call = Prod.map id (mapLink view) (session.conclude call) := by
  cases call with
  | discover discovery waits => rw [conclude, mapLink_endDiscovery]; rfl
  | _ => rfl

theorem mapLink_collect (session : Session τ) (call : Call) :
    (session.mapLink view).collect call = Prod.map id (mapLink view) (session.collect call) := by
  unfold collect
  split <;> rfl

theorem mapLink_isDue (session : Session τ) (call : Call) :
    (session.mapLink view).isDue call = session.isDue call := by
  unfold isDue
  split <;> rfl

/-- To attend to an operation is the same over the link as it is seen. -/
theorem mapLink_attend (session : Session τ) (call : Call) :
    (session.mapLink view).attend call = Prod.map id (mapLink view) (session.attend call) := by
  simp only [attend, mapLink_collect, mapLink_isDue, mapLink_conclude]
  split <;> rfl

/-! ### Operations that use the link -/

variable [Link τ] [Link σ]

/-- A session starts over a link as over the one it is seen as. -/
theorem mapLink_ensureStarted (h : Link.IsView view) (session : Session τ) (config : Config) :
    (session.mapLink view).ensureStarted config =
      Prod.map id (mapLink view) (session.ensureStarted config) := by
  rw [ensureStarted, ensureStarted, mapLink_run?]
  cases session.run? with
  | some run => rfl
  | none =>
    rw [if_neg nofun, if_neg nofun]
    cases config.resolve with
    | error cause => rfl
    | ok resolved =>
      obtain ⟨parameters, identity⟩ := resolved
      have hholds : (session.mapLink view).holdsLink = session.holdsLink := rfl
      dsimp only
      rw [hholds]
      cases session.holdsLink with
      | false => rfl
      | true =>
        have hlink : (session.mapLink view).claim.link = view session.claim.link := rfl
        rw [if_pos rfl, if_pos rfl, launch, launch, hlink, h.connect]
        cases Link.connect parameters session.claim.link with
        | mk result link => cases result <;> rfl

/-- A session lets its engine work over a link as over the one it is seen as. -/
theorem mapLink_turn (h : Link.IsView view) (session : Session τ) :
    (session.mapLink view).turn = session.turn.mapLink view := by
  rw [turn, turn, mapLink_worker?]
  cases session.worker? with
  | none => rfl
  | some worker =>
    have hturn : Engine.turn { (session.mapLink view).toShared with toWorker := worker } =
        (Engine.turn { session.toShared with toWorker := worker }).mapLink view :=
      Engine.mapLink_turn h { session.toShared with toWorker := worker }
    dsimp only
    rw [hturn]
    cases Engine.turn { session.toShared with toWorker := worker } with
    | running engine =>
      exact mapLink_withWorker { session with toShared := engine.toShared } _
    | stopped shared => rfl
    | crashed shared => exact mapLink_withWorker { session with toShared := shared } none

/-- A session shuts down over a link as over the one it is seen as. -/
theorem mapLink_shutdown (h : Link.IsView view) (session : Session τ) :
    (session.mapLink view).shutdown = session.shutdown.mapLink view := by
  rw [shutdown, shutdown, mapLink_submit?]
  cases session.submit? .shutdown with
  | none => rfl
  | some submitted => exact mapLink_turn h submitted

end Fieldbus.Session
