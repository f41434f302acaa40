import Fieldbus.Session.Property

/-!
# Enumeration

An enumeration walks over the object list of a device and waits for the walk to end, up to a
deadline.  What was found before the end, a failure or the deadline is kept.
-/

namespace Fieldbus

/-- What an enumeration yields. -/
structure Enumeration where
  objects : List ObjectReference
  /-- Why not every object was found. -/
  error : Option ClientError
  deriving DecidableEq, Repr

namespace Enumeration

/-- The enumeration that found nothing for a cause. -/
def failed (error : ClientError) : Enumeration := ⟨[], some error⟩

/-- Whether every object was found. -/
def isComplete (enumeration : Enumeration) : Bool := enumeration.error.isNone

/-- What the report of a walk yields once its caller no longer waits; the time it waited is given
in nanoseconds. -/
def ofReport (report : WalkReport) (nanoseconds : Nat) : Enumeration :=
  ⟨report.objects,
    if report.finished then report.error.map .enumerationAborted
    else some (.enumerationTimeout nanoseconds)⟩

end Enumeration

/-- What the caller of an enumeration holds while the walk is under way. -/
structure Walking where
  report : WalkId
  /-- How many milliseconds the caller waits. -/
  timeout : Nat
  /-- The time at which the caller stops waiting. -/
  deadline : Nat
  deriving DecidableEq, Repr

namespace Session

variable {σ : Type}

/-- Begins a walk over the object list of a device at a station. -/
def beginEnumeration (session : Session σ) (mac : Mac) (device : UInt32) (timeout : Nat) :
    Except ClientError (Walking × Session σ) := do
  let _ ← session.engine
  checkInstance device
  let (report, desk) := session.desk.openReport
  let walk := Walk.onDevice mac device report
  let opened := { session with desk := desk }
  match opened.submit? (.request mac walk.firstRead (.walk walk)) with
  | some session => return (⟨report, timeout, session.clock + timeout⟩, session)
  | none => throw (.enumerationAborted (.failure .stopped))

/-- Whether there is nothing to wait for any more: the walk is finished, or the time is up. -/
def isOver (session : Session σ) (walking : Walking) : Bool :=
  (session.desk.report walking.report).finished || decide (walking.deadline ≤ session.clock)

/-- Stops waiting for a walk.  A walk that is not finished is abandoned. -/
def endEnumeration (session : Session σ) (walking : Walking) : Enumeration × Session σ :=
  let report := session.desk.report walking.report
  (.ofReport report (1000000 * walking.timeout),
    { session with desk := session.desk.mapReport walking.report WalkReport.abandon })

end Session

end Fieldbus
