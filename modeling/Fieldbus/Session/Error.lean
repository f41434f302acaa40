import Fieldbus.Config.Basic
import Fieldbus.Link.Basic
import Fieldbus.Literal.Write
import Fieldbus.Text.Duration
import Fieldbus.Walk.Report

/-!
# Errors of a session

Why a session cannot be started, and why an operation of a session has no result.
-/

namespace Fieldbus

open Fieldbus.Text

/-- Why a session cannot be started. -/
inductive StartError where
  | config (error : ConfigError)
  /-- The link was lost with an engine that crashed. -/
  | linkLost
  | link (error : LinkError)
  deriving DecidableEq, Repr

/-- The message that states the cause. -/
def StartError.message : StartError → String
  | .config error => error.message
  | .linkLost => "Failed to launch protocol engine: link is no longer available"
  | .link error => "Failed to launch protocol engine: " ++ error.message

/-- Why a text cannot be written. -/
inductive WriteError where
  | literal (error : Literal.CastError)
  /-- The object has an instance number that no object identifier can carry. -/
  | instanceNumber (number : UInt32)
  deriving DecidableEq, Repr

/-- The message about an instance number that no object identifier can carry. -/
def instanceMessage (number : UInt32) : String :=
  "Object instance " ++ decimal number.toNat ++ " exceeds the 22-bit limit (" ++
    decimal maxInstance.toNat ++ ")"

/-- The message that states the cause. -/
def WriteError.message : WriteError → String
  | .literal error => error.message
  | .instanceNumber number => instanceMessage number

/-- Why an operation of a session has no result. -/
inductive ClientError where
  | notStarted
  | unknownProperty (typeName property : String)
  | instanceNumber (number : UInt32)
  /-- The station of the device is not known. -/
  | unknownDevice (device : UInt32)
  | cast (error : WriteError)
  | transport (failure : Failure)
  | protocol (error : ReplyError)
  /-- A walk did not end within a number of nanoseconds. -/
  | enumerationTimeout (nanoseconds : Nat)
  | enumerationAborted (error : WalkError)
  deriving DecidableEq, Repr

/-- The message that states the cause. -/
def ClientError.message : ClientError → String
  | .notStarted => "Session not started; call ensure_started() first"
  | .unknownProperty typeName property =>
    "Invalid property '" ++ property ++ "' for object type '" ++ typeName ++ "'"
  | .instanceNumber number => instanceMessage number
  | .unknownDevice device =>
    "Device " ++ decimal device.toNat ++ " not found in cache. Run discovery first."
  | .cast error => "Value cast error: " ++ error.message
  | .transport cause => "Transport error: " ++ cause.message
  | .protocol error => "Protocol error: " ++ error.message
  | .enumerationTimeout nanoseconds =>
    "Object enumeration timed out after " ++ duration nanoseconds
  | .enumerationAborted error => "Object enumeration aborted: " ++ error.message

end Fieldbus
