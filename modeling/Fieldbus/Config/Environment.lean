import Fieldbus.Config.Basic

/-!
# Settings from the environment

Variables of the environment that replace settings.  Numbers may have blanks around them; a
variable that is there has to have a number.
-/

namespace Fieldbus.Config

open Fieldbus.Text

/-- The variables of an environment. -/
abbrev Environment := List (String × String)

/-- The number that a variable gives a setting, or `none` where there is no such variable. -/
def Environment.number? (environment : Environment) (source setting : String) :
    Except ConfigError (Option UInt32) :=
  match environment.lookup source with
  | none => .ok none
  | some text =>
    match natural? 4294967295 (trim text.toList) with
    | some n => .ok (some (UInt32.ofNat n))
    | none => .error (.notANumber source setting text)

/-- The default settings with those replaced that the environment gives. -/
def ofEnvironment (environment : Environment) : Except ConfigError Config := do
  let config : Config := {}
  let address ← environment.number? "MSTP_ADDRESS" "address"
  let interface := environment.lookup "MSTP_INTERFACE"
  let baudrate ← environment.number? "MSTP_BAUDRATE" "baudrate"
  let maxMasters ← environment.number? "MSTP_MAX_MASTERS" "max_masters"
  let maxInfoFrames ← environment.number? "MSTP_MAX_INFO_FRAMES" "max_info_frames"
  let name := environment.lookup "MSTP_DEVICE_NAME"
  let instanceNumber ← environment.number? "MSTP_DEVICE_ID" "objectIdentifier"
  return { link := { address := address
                     interface := interface
                     baudrate := baudrate.getD config.link.baudrate
                     maxMasters := maxMasters.getD config.link.maxMasters
                     maxInfoFrames := maxInfoFrames.getD config.link.maxInfoFrames }
           device := { name := name.getD config.device.name
                       instanceNumber := instanceNumber.getD config.device.instanceNumber } }

end Fieldbus.Config
