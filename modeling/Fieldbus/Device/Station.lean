import Fieldbus.Text.Numeral

/-!
# Stations

The addresses of the stations on one segment, and where a request may be sent.
-/

namespace Fieldbus

/-- The address of a station on its segment. -/
abbrev Mac := UInt8

/-- The address that stands for all stations. -/
def broadcastMac : Mac := 255

/-- Where an unconfirmed request is sent. -/
inductive Destination where
  /-- To every station. -/
  | broadcast
  /-- To one station of the local segment. -/
  | station (mac : Mac)
  deriving DecidableEq, Repr

/-- The text of a destination. -/
def Destination.text : Destination → String
  | .broadcast => "*:*"
  | .station mac => Text.decimal mac.toNat

end Fieldbus
