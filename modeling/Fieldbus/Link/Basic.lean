import Fieldbus.Device.Station
import Fieldbus.Link.Answer
import Fieldbus.Link.Parameters

/-!
# Links

A link carries requests to the other stations of a segment and brings back what is heard there.
Here it is a type of states with operations on them, so that whatever a link may do, at whatever
time, is some state of some link.
-/

namespace Fieldbus

/-- Why a link could not do what it was asked. -/
inductive LinkError where
  | noInterface (interface reason : String)
  | send (reason : String)
  | receive (reason : String)
  | closed
  deriving DecidableEq, Repr

/-- The message that states the cause. -/
def LinkError.message : LinkError → String
  | .noInterface interface reason => "Failed to open interface " ++ interface ++ ": " ++ reason
  | .send reason => "Send failed: " ++ reason
  | .receive reason => "Receive failed: " ++ reason
  | .closed => "Link closed"

/-- What a link hears. -/
inductive Indication where
  /-- A device announced itself. -/
  | iAm (source : Option Mac) (announcement : Announcement)
  /-- The station `source` answered the request with the given id, or the link gave it up. -/
  | completion (source : Mac) (id : InvokeId) (outcome : Outcome)
  deriving DecidableEq, Repr

/-- What comes of listening for a while. -/
inductive Reception where
  | nothing
  | heard (indication : Indication)
  | failed (error : LinkError)
  /-- The link broke down, and with it whoever was listening. -/
  | broken
  deriving DecidableEq, Repr

/-- The operations of a link with states in `σ`. -/
class Link (σ : Type) where
  /-- Joins the segment. -/
  connect : LinkParameters → σ → Except LinkError Unit × σ
  /-- Leaves the segment. -/
  disconnect : σ → σ
  sendUnconfirmed : Destination → UnconfirmedRequest → σ → Except LinkError Unit × σ
  sendConfirmed : Mac → InvokeId → ConfirmedRequest → σ → Except LinkError Unit × σ
  /-- Listens for one indication. -/
  receive : σ → Reception × σ

end Fieldbus
