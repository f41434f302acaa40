import Fieldbus.Config.Basic
import Fieldbus.Toml.Reader

/-!
# Settings from a document

A document has three tables of settings.  Each table and most settings go by several names, of
which a document may use one; what has another name is passed over, and what is missing has its
default.  A table may also be written as an array of its settings in order.
-/

namespace Fieldbus.Config

/-- A setting as a document gives it. -/
abbrev Setting := Option Toml

/-- The value given under one of several names; `none` if there are two. -/
def named? (names : List String) (members : List (String × Toml)) : Option Setting :=
  match members.filter fun member => names.contains member.1 with
  | [] => some none
  | [member] => some (some member.2)
  | _ => none

/-- The values of a table's settings, whose names are given in order. -/
def settings? (names : List (List String)) : Toml → Option (List Setting)
  | .table members => names.mapM fun aliases => named? aliases members
  | .array items => some ((List.range names.length).map fun i => items[i]?)
  | .datetime => some (names.map fun _ => none)
  | _ => none

/-- The number that a setting gives, at most `bound`, or its default. -/
def natural? (bound default : Nat) : Setting → Option Nat
  | none => some default
  | some (.integer n) => if 0 ≤ n ∧ n ≤ bound then some n.toNat else none
  | some _ => none

/-- The 32-bit number that a setting gives, or its default. -/
def word? (default : UInt32) (setting : Setting) : Option UInt32 :=
  (natural? 4294967295 default.toNat setting).map UInt32.ofNat

/-- The 64-bit number that a setting gives, or its default. -/
def longWord? (default : UInt64) (setting : Setting) : Option UInt64 :=
  (natural? 18446744073709551615 default.toNat setting).map UInt64.ofNat

/-- The text that a setting gives, or its default. -/
def text? (default : String) : Setting → Option String
  | none => some default
  | some (.string text) => some text
  | some _ => none

/-- The names of the settings of the link. -/
def linkNames : List (List String) :=
  [["address", "_address", "mstp_address"], ["interface", "_interface", "port", "serial_port"],
   ["baudrate", "_baudrate", "baud"], ["max_masters", "_max_masters", "maxmasters"],
   ["max_info_frames", "_maxinfo", "maxinfo", "maxinfoframes"]]

/-- The names of the settings of the local device. -/
def deviceNames : List (List String) :=
  [["objectName", "object_name"], ["objectIdentifier", "device_id"],
   ["maxApduLengthAccepted", "max_apdu"], ["segmentationSupported", "segmentation"],
   ["vendorIdentifier", "vendor_id"]]

/-- The names of the settings of timing. -/
def timingNames : List (List String) :=
  [["apdu_timeout_ms"], ["discovery_queue_capacity"], ["poll_interval_ms"]]

/-- The settings of the link in a document. -/
def linkSettings? (value : Setting) : Option LinkSettings := do
  let default : LinkSettings := {}
  match ← settings? linkNames (value.getD (.table [])) with
  | [address, interface, baudrate, maxMasters, maxInfoFrames] =>
    let address ← match address with
      | none => some none
      | setting => (word? 0 setting).map some
    let interface ← match interface with
      | none => some none
      | setting => (text? "" setting).map some
    return { address := address
             interface := interface
             baudrate := ← word? default.baudrate baudrate
             maxMasters := ← word? default.maxMasters maxMasters
             maxInfoFrames := ← word? default.maxInfoFrames maxInfoFrames }
  | _ => none

/-- The settings of the local device in a document. -/
def deviceSettings? (value : Setting) : Option DeviceSettings := do
  let default : DeviceSettings := {}
  match ← settings? deviceNames (value.getD (.table [])) with
  | [name, instanceNumber, maxApdu, segmentation, vendor] =>
    return { name := ← text? default.name name
             instanceNumber := ← word? default.instanceNumber instanceNumber
             maxApdu := ← word? default.maxApdu maxApdu
             segmentation := ← text? default.segmentation segmentation
             vendor := ← word? default.vendor vendor }
  | _ => none

/-- The settings of timing in a document. -/
def timing? (value : Setting) : Option Timing := do
  let default : Timing := {}
  match ← settings? timingNames (value.getD (.table [])) with
  | [apduTimeout, queueCapacity, pollInterval] =>
    return { apduTimeout := ← longWord? default.apduTimeout apduTimeout
             queueCapacity := ← longWord? default.queueCapacity queueCapacity
             pollInterval := ← longWord? default.pollInterval pollInterval }
  | _ => none

/-- The settings that the tables of a document give. -/
def ofMembers? (members : List (String × Toml)) : Option Config := do
  let link ← linkSettings? (← named? ["mstp", "MSTP", "BACpypes"] members)
  let device ← deviceSettings? (← named? ["device", "Device"] members)
  let timing ← timing? (← named? ["timing"] members)
  return ⟨link, device, timing⟩

/-- The settings that a document gives. -/
def ofToml (text : String) : Except ConfigError Config :=
  match (Toml.document? text).bind ofMembers? with
  | some config => .ok config
  | none => .error .malformed

end Fieldbus.Config
