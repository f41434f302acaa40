import Fieldbus.Device.Segmentation
import Fieldbus.Object.Identifier
import Fieldbus.Object.Property

/-!
# Requests

What is sent over a link.  An unconfirmed request is answered by whoever feels addressed, or by
nobody.  A confirmed request is answered by the station it is sent to, and carries an invoke id by
which the answer is told from others.  Property values travel as octets.
-/

namespace Fieldbus

/-- The number that pairs an answer with its confirmed request. -/
abbrev InvokeId := UInt8

/-- What a device says of itself when it announces itself. -/
structure Announcement where
  id : ObjectIdentifier
  /-- The longest message that the device accepts. -/
  maxApdu : UInt32
  segmentation : Segmentation
  vendor : UInt32
  deriving DecidableEq, Repr

/-- A request that nobody has to answer. -/
inductive UnconfirmedRequest where
  /-- Asks the devices with numbers from `low` to `high` to announce themselves; without limits, all
  devices. -/
  | whoIs (low high : Option UInt32)
  | iAm (announcement : Announcement)
  deriving DecidableEq, Repr

/-- Asks for a property, or for one element of it. -/
structure ReadRequest where
  object : ObjectIdentifier
  property : Property
  index : Option UInt32
  deriving DecidableEq, Repr

/-- Sets a property, or one element of it. -/
structure WriteRequest where
  object : ObjectIdentifier
  property : Property
  index : Option UInt32
  octets : List UInt8
  /-- The slot of a commanded value that is written. -/
  priority : Option UInt8
  deriving DecidableEq, Repr

/-- A request that the addressed station answers. -/
inductive ConfirmedRequest where
  | read (request : ReadRequest)
  | write (request : WriteRequest)
  deriving DecidableEq, Repr

end Fieldbus
