import Fieldbus.Reply

/-!
# Reports of walks

What a walk has found so far, kept where the caller that waits for it can see it.  Once the walk is
finished nothing changes any more; a caller that no longer wants to wait marks the report as
abandoned, and then nothing is added to it.
-/

namespace Fieldbus

open Fieldbus.Text

/-- Why a walk ended before its end. -/
inductive WalkError where
  | failure (failure : Failure)
  | reply (error : ReplyError)
  /-- The list has more elements than there are indices. -/
  | lengthOutOfRange (count : UInt64)
  /-- The length of the list is no number. -/
  | lengthOfType (typeName : String)
  /-- An element of the list is no object identifier. -/
  | elementOfType (typeName : String)
  deriving DecidableEq, Repr

/-- The message that states the cause. -/
def WalkError.message : WalkError → String
  | .failure cause => cause.message
  | .reply cause => cause.message
  | .lengthOutOfRange count =>
    "object list length " ++ decimal count.toNat ++ " out of range"
  | .lengthOfType typeName => "object list length is " ++ typeName
  | .elementOfType typeName => "object list element is " ++ typeName

/-- What a walk has found so far. -/
structure WalkReport where
  /-- The objects found, in the order of the list. -/
  objects : List ObjectReference := []
  /-- The first cause that ended the walk early. -/
  error : Option WalkError := none
  finished : Bool := false
  /-- Whether the caller no longer waits. -/
  abandoned : Bool := false
  deriving DecidableEq, Repr

namespace WalkReport

/-- The report with more objects. -/
def extend (report : WalkReport) (objects : List ObjectReference) : WalkReport :=
  { report with objects := report.objects ++ objects }

/-- The report of a walk that is over. -/
def finish (report : WalkReport) : WalkReport := { report with finished := true }

/-- The report of a walk that is over for a cause; an earlier cause stays. -/
def abort (report : WalkReport) (cause : WalkError) : WalkReport :=
  { report with error := report.error <|> some cause, finished := true }

/-- The report once its caller stops waiting. -/
def abandon (report : WalkReport) : WalkReport :=
  { report with abandoned := report.abandoned || !report.finished }

end WalkReport

end Fieldbus
