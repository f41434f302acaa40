import Fieldbus.Device.Station

/-!
# Link parameters

What a link needs to know to join its segment.
-/

namespace Fieldbus

/-- The parameters that a link is opened with. -/
structure LinkParameters where
  /-- The address of the local station. -/
  mac : Mac
  /-- The serial interface. -/
  interface : String
  baudrate : UInt32
  /-- The highest address that is polled for a master. -/
  maxMasters : UInt8
  /-- How many frames the station sends before it passes the token on. -/
  maxInfoFrames : UInt8
  deriving DecidableEq, Repr

end Fieldbus
