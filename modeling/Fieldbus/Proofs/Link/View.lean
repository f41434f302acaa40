import Fieldbus.Engine.Run

/-!
# Links seen as other links

A link may carry more than another and for the rest do the same, such as one that keeps a log.  What
it carries besides makes no difference to an engine: it does the same over the one link as over the
other.

## Main definitions

* `Link.IsView`: a way to see the states of a link as those of another that does the same.
* `Engine.mapLink`: the engine over the link as it is seen.

## Main results

* `Engine.mapLink_turn`: an engine does in a turn over a link what it does over the link it is seen
  as.
-/

namespace Fieldbus

variable {τ σ : Type}

/-- A way to see the states of a link as those of another that does the same. -/
structure Link.IsView [Link τ] [Link σ] (view : τ → σ) : Prop where
  connect : ∀ parameters link,
    Link.connect parameters (view link) = Prod.map id view (Link.connect parameters link)
  disconnect : ∀ link, Link.disconnect (view link) = view (Link.disconnect link)
  sendUnconfirmed : ∀ destination request link,
    Link.sendUnconfirmed destination request (view link) =
      Prod.map id view (Link.sendUnconfirmed destination request link)
  sendConfirmed : ∀ destination number request link,
    Link.sendConfirmed destination number request (view link) =
      Prod.map id view (Link.sendConfirmed destination number request link)
  receive : ∀ link, Link.receive (view link) = Prod.map id view (Link.receive link)

/-- What outlives an engine, over the link as it is seen. -/
def Shared.mapLink (view : τ → σ) (shared : Shared τ) : Shared σ :=
  { shared with link := view shared.link }

namespace Engine

/-- An engine over the link as it is seen. -/
def mapLink (view : τ → σ) (engine : Engine τ) : Engine σ :=
  { toShared := engine.toShared.mapLink view, toWorker := engine.toWorker }

/-- What a turn leaves, over the link as it is seen. -/
def Turn.mapLink (view : τ → σ) : Turn τ → Turn σ
  | .running engine => .running (engine.mapLink view)
  | .stopped shared => .stopped (shared.mapLink view)
  | .crashed shared => .crashed (shared.mapLink view)

variable {view : τ → σ}

theorem mapLink_fail (engine : Engine τ) (responder : Responder) (cause : Failure) :
    (engine.mapLink view).fail responder cause = (engine.fail responder cause).mapLink view := by
  cases responder <;> rfl

theorem mapLink_cancel (engine : Engine τ) (entry : Pending) :
    (engine.mapLink view).cancel entry = (engine.cancel entry).mapLink view := by
  obtain ⟨id, destination, sentAt, responder⟩ := entry
  cases responder <;> rfl

theorem mapLink_foldl_cancel (entries : List Pending) (engine : Engine τ) :
    entries.foldl cancel (engine.mapLink view) = (entries.foldl cancel engine).mapLink view := by
  induction entries generalizing engine with
  | nil => rfl
  | cons entry rest ih => rw [List.foldl_cons, List.foldl_cons, mapLink_cancel, ih]

theorem mapLink_hear (engine : Engine τ) (source : Option Mac) (announcement : Announcement) :
    (engine.mapLink view).hear source announcement =
      (engine.hear source announcement).mapLink view := by
  rw [hear, hear]
  split <;> rfl

variable [Link τ] [Link σ]

theorem mapLink_start (h : Link.IsView view) (engine : Engine τ) (destination : Mac)
    (request : ConfirmedRequest) (responder : Responder) :
    (engine.mapLink view).start destination request responder =
      (engine.start destination request responder).mapLink view := by
  have htake : (engine.mapLink view).takeId? = engine.takeId? := rfl
  have hlink : (engine.mapLink view).link = view engine.link := rfl
  rw [start, start, htake]
  cases engine.takeId? with
  | none => exact mapLink_fail _ _ _
  | some taken =>
    obtain ⟨id, worker⟩ := taken
    dsimp only
    rw [hlink, h.sendConfirmed]
    cases Link.sendConfirmed destination id request engine.link with
    | mk result link =>
      cases result with
      | error error =>
        exact mapLink_fail { engine with toWorker := worker, link := link } responder _
      | ok => rfl

theorem mapLink_complete (h : Link.IsView view) (engine : Engine τ) (responder : Responder)
    (outcome : Outcome) :
    (engine.mapLink view).complete responder outcome =
      (engine.complete responder outcome).mapLink view := by
  cases responder with
  | ticket ticket => rfl
  | walk walk =>
    have hdesk : (engine.mapLink view).desk = engine.desk := rfl
    rw [complete, complete, hdesk]
    rcases walk.onReply outcome (engine.desk.report walk.report) with ⟨next, report⟩
    let reported : Engine τ :=
      { engine with desk := engine.desk.mapReport walk.report fun _ => report }
    cases next with
    | none => rfl
    | some following => exact mapLink_start h reported _ _ _

theorem mapLink_indicate (h : Link.IsView view) (engine : Engine τ) (indication : Indication) :
    (engine.mapLink view).indicate indication = (engine.indicate indication).mapLink view := by
  cases indication with
  | iAm source announcement => exact mapLink_hear engine source announcement
  | completion source id outcome =>
    have hpending : (engine.mapLink view).pending? id = engine.pending? id := rfl
    rw [indicate, indicate, completion, completion, hpending]
    cases engine.pending? id with
    | none => rfl
    | some entry =>
      dsimp only
      split
      · exact mapLink_complete h { engine with toWorker := engine.drop id } _ _
      · rfl

theorem mapLink_broadcast (h : Link.IsView view) (engine : Engine τ) (destination : Destination)
    (request : UnconfirmedRequest) :
    (engine.mapLink view).broadcast destination request =
      (engine.broadcast destination request).mapLink view := by
  have hlink : (engine.mapLink view).link = view engine.link := rfl
  rw [broadcast, hlink, h.sendUnconfirmed]
  rfl

theorem mapLink_handle (h : Link.IsView view) (engine : Engine τ) (command : Command) :
    (engine.mapLink view).handle command = (engine.handle command).mapLink view := by
  cases command with
  | announce => exact mapLink_broadcast h engine _ _
  | discover window destination low high =>
    exact mapLink_broadcast h { engine with listeners := engine.listeners ++ [window] } _ _
  | endDiscovery window => rfl
  | request destination request responder => exact mapLink_start h engine _ _ _
  | shutdown => rfl

theorem mapLink_obeyAll (h : Link.IsView view) (commands : List Command) (engine : Engine τ) :
    obeyAll commands (engine.mapLink view) =
      Prod.map id (mapLink view) (obeyAll commands engine) := by
  induction commands generalizing engine with
  | nil => rfl
  | cons command rest ih =>
    cases command with
    | shutdown => rfl
    | _ => rw [obeyAll, obeyAll, mapLink_handle h, ih] <;> exact nofun

theorem mapLink_listen (h : Link.IsView view) (engine : Engine τ) :
    (engine.mapLink view).listen =
      match engine.listen with
      | .ok heard => .ok (heard.mapLink view)
      | .error shared => .error (shared.mapLink view) := by
  have hlink : (engine.mapLink view).link = view engine.link := rfl
  rw [listen, listen, hlink, h.receive]
  cases Link.receive engine.link with
  | mk reception link =>
    cases reception with
    | heard indication =>
      exact congrArg Except.ok (mapLink_indicate h { engine with link := link } indication)
    | _ => rfl

theorem mapLink_expire (h : Link.IsView view) (engine : Engine τ) :
    (engine.mapLink view).expire = engine.expire.mapLink view := by
  have hoverdue : (engine.mapLink view).pending.filter (engine.mapLink view).isOverdue =
      engine.pending.filter engine.isOverdue := rfl
  rw [expire, expire, hoverdue]
  generalize engine.pending.filter engine.isOverdue = entries
  induction entries generalizing engine with
  | nil => rfl
  | cons entry rest ih =>
    have hgiven : (engine.mapLink view).giveUp entry = (engine.giveUp entry).mapLink view :=
      mapLink_complete h { engine with toWorker := engine.drop entry.id } _ _
    rw [List.foldl_cons, List.foldl_cons, hgiven, ih _ rfl]

theorem mapLink_stop (h : Link.IsView view) (engine : Engine τ) :
    (engine.mapLink view).stop = engine.stop.mapLink view := by
  have hpending : (engine.mapLink view).pending = engine.pending := rfl
  rw [stop, stop, hpending, mapLink_foldl_cancel]
  exact congrArg (fun link => { (engine.pending.foldl cancel engine).toShared with link := link })
    (h.disconnect _)

/-- **An engine does not see what a link carries besides.** -/
theorem mapLink_turn (h : Link.IsView view) (engine : Engine τ) :
    (engine.mapLink view).turn = engine.turn.mapLink view := by
  have hobey : (engine.mapLink view).obey = Prod.map id (mapLink view) engine.obey :=
    mapLink_obeyAll h engine.commands { engine with commands := [] }
  rw [turn, turn, hobey]
  cases engine.obey with
  | mk stopped obeyed =>
    cases stopped with
    | true => exact congrArg Turn.stopped (mapLink_stop h obeyed)
    | false =>
      dsimp only [Prod.map, id]
      rw [mapLink_listen h]
      cases obeyed.listen with
      | ok heard => exact congrArg Turn.running (mapLink_expire h heard)
      | error shared => rfl

end Engine

end Fieldbus
