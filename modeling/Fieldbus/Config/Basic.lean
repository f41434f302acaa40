import Fieldbus.Device.Segmentation
import Fieldbus.Link.Parameters
import Fieldbus.Object.Identifier
import Fieldbus.Text.Blank
import Fieldbus.Text.Quoted

/-!
# Configuration

The settings of a session: how the link is opened, who the local device is, and how long things may
take.  Resolving checks the settings, in a fixed order, and turns them into link parameters and a
local identity.
-/

namespace Fieldbus

open Fieldbus.Text

/-- The settings of the link. -/
structure LinkSettings where
  /-- The address of the local station. -/
  address : Option UInt32 := none
  interface : Option String := none
  baudrate : UInt32 := 38400
  maxMasters : UInt32 := 127
  maxInfoFrames : UInt32 := 1
  deriving DecidableEq, Repr

/-- The settings of the local device. -/
structure DeviceSettings where
  name : String := "MSTP-Client"
  instanceNumber : UInt32 := 599
  maxApdu : UInt32 := 1024
  segmentation : String := "no segmentation"
  vendor : UInt32 := 15
  deriving DecidableEq, Repr

/-- How long things may take, and how many announcements may wait. -/
structure Timing where
  /-- After how many milliseconds a confirmed request has failed. -/
  apduTimeout : UInt64 := 10000
  /-- How many announcements may wait in a discovery window. -/
  queueCapacity : UInt64 := 256
  /-- How many milliseconds the engine waits for the link at a time. -/
  pollInterval : UInt64 := 100
  deriving DecidableEq, Repr

/-- The settings of a session. -/
structure Config where
  link : LinkSettings := {}
  device : DeviceSettings := {}
  timing : Timing := {}
  deriving DecidableEq, Repr

/-- The identity that a local device announces. -/
structure LocalDevice where
  id : ObjectIdentifier
  name : String
  maxApdu : UInt32
  segmentation : Segmentation
  vendor : UInt32
  deriving DecidableEq, Repr

/-- Why settings are refused. -/
inductive ConfigError where
  | missingAddress
  | missingInterface
  /-- The address is no address of a single station. -/
  | address (value : UInt32)
  | maxMasters (value : UInt32)
  | maxInfoFrames (value : UInt32)
  | zeroBaudrate
  | instanceNumber (value : UInt32)
  | zeroApduTimeout
  | zeroPollInterval
  | segmentation (name : String)
  /-- A variable of the environment whose text is no number of the setting's range. -/
  | notANumber (source setting text : String)
  /-- A document that is not well formed, or has a value of a wrong kind. -/
  | malformed
  deriving DecidableEq, Repr

namespace ConfigError

/-- The message about a setting with an invalid value. -/
def invalidValue (setting reason : String) : String :=
  "Invalid value for '" ++ setting ++ "': " ++ reason

/-- The message that states the cause. -/
def message : ConfigError → String
  | .missingAddress => "Missing 'address' in the [mstp] configuration"
  | .missingInterface => "Missing 'interface' in the [mstp] configuration"
  | .address value =>
    invalidValue "address" ("MS/TP MAC must be 0..=254, got " ++ decimal value.toNat)
  | .maxMasters value =>
    invalidValue "max_masters" ("must be at most 127, got " ++ decimal value.toNat)
  | .maxInfoFrames value =>
    invalidValue "max_info_frames" ("must be 1..=255, got " ++ decimal value.toNat)
  | .zeroBaudrate => invalidValue "baudrate" "must be non-zero"
  | .instanceNumber value =>
    invalidValue "objectIdentifier"
      ("instance " ++ decimal value.toNat ++ " exceeds " ++ decimal maxInstance.toNat)
  | .zeroApduTimeout => invalidValue "apdu_timeout_ms" "must be non-zero"
  | .zeroPollInterval => invalidValue "poll_interval_ms" "must be non-zero"
  | .segmentation name =>
    invalidValue "segmentationSupported" ("unknown segmentation " ++ quoted name)
  | .notANumber source setting text =>
    invalidValue setting (source ++ " is not a number: " ++ quoted text)
  | .malformed => "The configuration is not well formed"

end ConfigError

namespace Config

/-- Settings for a local station on an interface; all others have their defaults. -/
def forStation (address : Mac) (interface : String) : Config :=
  { link := { address := some address.toUInt32, interface := some interface } }

/-- Whether a text has characters other than blanks. -/
def isFilled (text : String) : Bool := !(trim text.toList).isEmpty

/-- The address that is set. -/
def address (config : Config) : Except ConfigError UInt32 :=
  match config.link.address with
  | some address => .ok address
  | none => .error .missingAddress

/-- The interface that is set. -/
def interface (config : Config) : Except ConfigError String :=
  match config.link.interface.filter isFilled with
  | some interface => .ok interface
  | none => .error .missingInterface

/-- Refuses with an error unless a condition holds. -/
def require (condition : Bool) (error : ConfigError) : Except ConfigError Unit :=
  if condition then .ok () else .error error

/-- The segmentation that is set. -/
def segmentation (config : Config) : Except ConfigError Segmentation :=
  match Segmentation.ofName? config.device.segmentation with
  | some segmentation => .ok segmentation
  | none => .error (.segmentation config.device.segmentation)

/-- Checks the settings and splits them into link parameters and local identity.  The first setting
in the order of the checks that is not valid is the one refused. -/
def resolve (config : Config) : Except ConfigError (LinkParameters × LocalDevice) := do
  let address ← config.address
  let interface ← config.interface
  require (address < 255) (.address address)
  require (config.link.maxMasters ≤ 127) (.maxMasters config.link.maxMasters)
  require (1 ≤ config.link.maxInfoFrames && config.link.maxInfoFrames ≤ 255)
    (.maxInfoFrames config.link.maxInfoFrames)
  require (config.link.baudrate != 0) .zeroBaudrate
  require (config.device.instanceNumber ≤ maxInstance)
    (.instanceNumber config.device.instanceNumber)
  require (config.timing.apduTimeout != 0) .zeroApduTimeout
  require (config.timing.pollInterval != 0) .zeroPollInterval
  let segmentation ← config.segmentation
  return ({ mac := address.toUInt8
            interface := interface
            baudrate := config.link.baudrate
            maxMasters := config.link.maxMasters.toUInt8
            maxInfoFrames := config.link.maxInfoFrames.toUInt8 },
          { id := ⟨.device, config.device.instanceNumber⟩
            name := config.device.name
            maxApdu := config.device.maxApdu
            segmentation := segmentation
            vendor := config.device.vendor })

end Config

end Fieldbus
