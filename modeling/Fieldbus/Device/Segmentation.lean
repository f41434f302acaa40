import Fieldbus.Name

/-!
# Segmentation

Whether a device can send and receive messages in several segments.
-/

namespace Fieldbus

/-- The segmentation capability that a device announces. -/
inductive Segmentation where
  | both
  | transmit
  | receive
  | none
  deriving DecidableEq, Repr

namespace Segmentation

/-- The enumeration value on the wire. -/
def code : Segmentation → Nat
  | .both => 0
  | .transmit => 1
  | .receive => 2
  | .none => 3

/-- The capability with the given enumeration value. -/
def ofCode? : Nat → Option Segmentation
  | 0 => some .both
  | 1 => some .transmit
  | 2 => some .receive
  | 3 => some .none
  | _ => Option.none

/-- The canonical name. -/
def text : Segmentation → String
  | .both => "segmentedBoth"
  | .transmit => "segmentedTransmit"
  | .receive => "segmentedReceive"
  | .none => "noSegmentation"

/-- The folded names of each capability: the canonical one and a short one. -/
def foldedNames : List (String × Segmentation) :=
  [("segmentedboth", .both), ("both", .both), ("segmentedtransmit", .transmit),
   ("transmit", .transmit), ("segmentedreceive", .receive), ("receive", .receive),
   ("nosegmentation", .none), ("none", .none)]

/-- The capability that a name stands for, in any spelling. -/
def ofName? (name : String) : Option Segmentation :=
  (foldedNames.find? fun entry => entry.1.toList = Name.fold name).map Prod.snd

end Segmentation

end Fieldbus
