import Fieldbus.Device.Station
import Fieldbus.Device.Segmentation

/-!
# Device records

What is known of a device from its last announcement.
-/

namespace Fieldbus

/-- A device as it announced itself. -/
structure DeviceRecord where
  /-- The instance number of the device object. -/
  device : UInt32
  /-- The longest message that the device accepts. -/
  maxApdu : UInt32
  /-- The name of the segmentation capability. -/
  segmentation : String
  vendor : UInt32
  /-- The station that the announcement came from. -/
  mac : Option Mac
  deriving DecidableEq, Repr

end Fieldbus
