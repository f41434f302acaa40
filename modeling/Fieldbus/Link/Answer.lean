import Fieldbus.Link.Request
import Fieldbus.Text.Numeral

/-!
# Answers

What comes of a confirmed request: an acknowledgement or a failure.
-/

namespace Fieldbus

open Fieldbus.Text

/-- The kinds of acknowledgement. -/
inductive AckKind where
  | simple
  | readProperty
  | complex
  deriving DecidableEq, Repr

/-- The name of a kind of acknowledgement. -/
def AckKind.text : AckKind → String
  | .simple => "Simple-ACK"
  | .readProperty => "ReadProperty-ACK"
  | .complex => "Complex-ACK"

/-- The answer to a read: what was read, as the station names it, and its octets. -/
structure ReadAck where
  object : ObjectIdentifier
  property : Property
  index : Option UInt32
  octets : List UInt8
  deriving DecidableEq, Repr

/-- The answer of a station that has done what it was asked. -/
inductive Ack where
  | simple
  | read (ack : ReadAck)
  /-- The result of some other service. -/
  | other (service : UInt8)
  deriving DecidableEq, Repr

/-- The kind of an acknowledgement. -/
def Ack.kind : Ack → AckKind
  | .simple => .simple
  | .read _ => .readProperty
  | .other _ => .complex

/-- Why a confirmed request has no acknowledgement. -/
inductive Failure where
  /-- The station could not do what it was asked. -/
  | error (group code : UInt32)
  /-- The station did not accept the request. -/
  | reject (reason : UInt8)
  | abort (reason : UInt8)
  | timeout
  /-- The link did not carry the request. -/
  | link (reason : String)
  /-- The engine stopped before there was an answer. -/
  | stopped
  deriving DecidableEq, Repr

/-- The message that states the cause. -/
def Failure.message : Failure → String
  | .error group code =>
    "error response (class " ++ decimal group.toNat ++ ", code " ++ decimal code.toNat ++ ")"
  | .reject reason => "request rejected (reason " ++ decimal reason.toNat ++ ")"
  | .abort reason => "request aborted (reason " ++ decimal reason.toNat ++ ")"
  | .timeout => "no response before timeout"
  | .link reason => "link error: " ++ reason
  | .stopped => "engine stopped"

/-- What comes of a confirmed request. -/
inductive Outcome where
  | ack (ack : Ack)
  | failure (failure : Failure)
  deriving DecidableEq, Repr

end Fieldbus
