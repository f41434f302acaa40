import Fieldbus.Engine.Transaction

/-!
# Running an engine

An engine works in turns.  In each it carries out the commands that wait, listens to the link for
one indication, and gives up the requests that have waited too long.  A shutdown ends its work:
whatever still waits fails, and commands behind it are never looked at.
-/

namespace Fieldbus.Engine

variable {σ : Type}

/-- Sends an unconfirmed request; whether the link took it makes no difference. -/
def broadcast [Link σ] (engine : Engine σ) (destination : Destination)
    (request : UnconfirmedRequest) : Engine σ :=
  { engine with link := (Link.sendUnconfirmed destination request engine.link).2 }

/-- How an engine announces its local device. -/
def announcement (engine : Engine σ) : Announcement :=
  ⟨engine.identity.id, engine.identity.maxApdu, engine.identity.segmentation,
    engine.identity.vendor⟩

/-- Carries out one command; a shutdown is not one to be carried out. -/
def handle [Link σ] (engine : Engine σ) : Command → Engine σ
  | .announce => engine.broadcast .broadcast (.iAm engine.announcement)
  | .discover window destination low high =>
    Engine.broadcast { engine with listeners := engine.listeners ++ [window] } destination
      (.whoIs low high)
  | .endDiscovery window =>
    { engine with listeners := engine.listeners.filter fun id => id ≠ window }
  | .request destination request responder => engine.start destination request responder
  | .shutdown => engine

/-- The record of a device that announced itself from a station. -/
def recordOf (source : Option Mac) (announcement : Announcement) : DeviceRecord :=
  ⟨announcement.id.number, announcement.maxApdu, announcement.segmentation.text,
    announcement.vendor, source⟩

/-- Takes in that a device announced itself: the cache and all windows learn of it.  Windows that
want no more are forgotten, and announcements of other objects than devices mean nothing. -/
def hear (engine : Engine σ) (source : Option Mac) (announcement : Announcement) : Engine σ :=
  if announcement.id.type = .device then
    let record := recordOf source announcement
    let wanting := engine.listeners.filter engine.desk.isWanted
    { engine with
      cache := engine.cache.put record
      listeners := wanting
      desk := engine.desk.deliver wanting record }
  else engine

/-- Takes in one indication. -/
def indicate [Link σ] (engine : Engine σ) : Indication → Engine σ
  | .iAm source announcement => engine.hear source announcement
  | .completion source id outcome => engine.completion source id outcome

/-- Fails a request that waits when the engine stops.  The report of a walk keeps the cause even if
its caller no longer waits. -/
def cancel (engine : Engine σ) (entry : Pending) : Engine σ :=
  match entry.responder with
  | .ticket ticket => { engine with desk := engine.desk.leave ticket (.failure .stopped) }
  | .walk walk =>
    { engine with
      desk := engine.desk.mapReport walk.report fun report => report.abort (.failure .stopped) }

/-- Stops an engine: all that waits fails, and the link is left.  Returns what outlives it. -/
def stop [Link σ] (engine : Engine σ) : Shared σ :=
  let shared := (engine.pending.foldl cancel engine).toShared
  { shared with link := Link.disconnect shared.link }

/-- Carries out commands up to a shutdown.  Returns whether there was one. -/
def obeyAll [Link σ] : List Command → Engine σ → Bool × Engine σ
  | [], engine => (false, engine)
  | .shutdown :: _, engine => (true, engine)
  | command :: rest, engine => obeyAll rest (engine.handle command)

/-- Carries out the commands that wait, up to a shutdown.  Returns whether there was one. -/
def obey [Link σ] (engine : Engine σ) : Bool × Engine σ :=
  obeyAll engine.commands { engine with commands := [] }

/-- What a turn leaves. -/
inductive Turn (σ : Type) where
  | running (engine : Engine σ)
  | stopped (shared : Shared σ)
  /-- The link broke down, and the engine with it. -/
  | crashed (shared : Shared σ)

/-- Listens for one indication and takes it in.  After a failure to listen the engine pauses; when
the link breaks down, only what outlives the engine is left. -/
def listen [Link σ] (engine : Engine σ) : Except (Shared σ) (Engine σ) :=
  let (reception, link) := Link.receive engine.link
  let engine := { engine with link := link }
  match reception with
  | .nothing => .ok engine
  | .heard indication => .ok (engine.indicate indication)
  | .failed _ =>
    .ok { engine with clock := engine.clock + engine.timing.pollInterval.toNat }
  | .broken => .error engine.toShared

/-- One turn. -/
def turn [Link σ] (engine : Engine σ) : Turn σ :=
  match engine.obey with
  | (true, engine) => .stopped engine.stop
  | (false, engine) =>
    match engine.listen with
    | .ok engine => .running engine.expire
    | .error shared => .crashed shared

end Fieldbus.Engine
