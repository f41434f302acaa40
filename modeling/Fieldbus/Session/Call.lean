import Fieldbus.Session.Discovery
import Fieldbus.Session.Enumeration

/-!
# Calls

The operations of a session that wait for the engine.  A call is begun, then attended to whenever
the engine has worked or time has passed, until it has its answer.
-/

namespace Fieldbus

/-- An operation that waits for the engine.  Times are in milliseconds. -/
inductive Operation where
  | read (address : Address) (path : PropertyPath)
  | write (address : Address) (path : PropertyPath) (text : String) (priority : Option UInt8)
  | enumerate (address : Address) (device : UInt32) (timeout : Nat)
  | discover (timeout : Nat) (station : Option Mac) (low high : Option UInt32)
  deriving DecidableEq, Repr

/-- What an operation yields. -/
inductive Answer where
  | reading (result : Except ClientError Reading)
  | written (result : Except ClientError Unit)
  | enumeration (result : Enumeration)
  | devices (result : Except ClientError (List DeviceRecord))

/-- An operation under way. -/
inductive Call where
  | read (mac : Mac) (path : PropertyPath) (transaction : Transaction)
  | write (transaction : Transaction)
  | enumerate (walking : Walking)
  /-- A discovery, and whether its caller waits for a record, having seen that time is left. -/
  | discover (discovery : Discovery) (waits : Bool)
  | answered (answer : Answer)

/-- The time at which a call ends at the latest. -/
def Call.deadline? : Call → Option Nat
  | .read _ _ transaction => some transaction.deadline
  | .write transaction => some transaction.deadline
  | .enumerate walking => some walking.deadline
  | .discover discovery _ => some discovery.deadline
  | .answered _ => none

namespace Session

variable {σ : Type}

/-- Begins an operation. -/
def beginCall (session : Session σ) : Operation → Call × Session σ
  | .read address path =>
    match session.locate address with
    | .error error => (.answered (.reading (.error error)), session)
    | .ok mac =>
      match session.beginRead mac path with
      | .error error => (.answered (.reading (.error error)), session)
      | .ok (transaction, session) => (.read mac path transaction, session)
  | .write address path text priority =>
    match session.locate address with
    | .error error => (.answered (.written (.error error)), session)
    | .ok mac =>
      match session.beginWrite mac path text priority with
      | .error error => (.answered (.written (.error error)), session)
      | .ok (transaction, session) => (.write transaction, session)
  | .enumerate address device timeout =>
    match session.locate address with
    | .error error => (.answered (.enumeration (.failed error)), session)
    | .ok mac =>
      match session.beginEnumeration mac device timeout with
      | .error error => (.answered (.enumeration (.failed error)), session)
      | .ok (walking, session) => (.enumerate walking, session)
  | .discover timeout station low high =>
    match session.beginDiscovery timeout station low high with
    | .error error => (.answered (.devices (.error error)), session)
    | .ok none => (.answered (.devices (.ok [])), session)
    | .ok (some (discovery, session)) => (.discover discovery false, session)

/-- What a caller gets who stops waiting now. -/
def conclude (session : Session σ) : Call → Answer × Session σ
  | .read mac path transaction =>
    let outcome := (session.outcome? transaction).getD (.failure .timeout)
    (.reading (Reading.ofOutcome mac path outcome), session)
  | .write transaction =>
    let outcome := (session.outcome? transaction).getD (.failure .timeout)
    (.written (writeResult outcome), session)
  | .enumerate walking =>
    let (enumeration, session) := session.endEnumeration walking
    (.enumeration enumeration, session)
  | .discover discovery _ =>
    (.devices (.ok (session.found discovery)), session.endDiscovery discovery)
  | .answered answer => (answer, session)

/-- Whether a caller has nothing to wait for any more.  The caller of a discovery that waits for a
record gets one that is there whatever the time is; before it waits again it looks at the clock, and
leaves what is there if its time is up. -/
def isDue (session : Session σ) : Call → Bool
  | .read _ _ transaction => (session.outcome? transaction).isSome
  | .write transaction => (session.outcome? transaction).isSome
  | .enumerate walking => session.isOver walking
  | .discover discovery true =>
    (session.oldest? discovery).isNone &&
      (decide (discovery.deadline ≤ session.clock) || !session.mayHear discovery)
  | .discover discovery false => decide (discovery.deadline ≤ session.clock)
  | .answered _ => false

/-- What a caller does that has something to wait for.  The caller of a discovery waits for a
record, and when one is there fetches it, one at a time. -/
def collect (session : Session σ) : Call → Call × Session σ
  | .discover discovery true =>
    (.discover discovery (session.oldest? discovery).isNone, session.fetch discovery)
  | .discover discovery false => (.discover discovery true, session)
  | call => (call, session)

/-- Attends to a call, which has its answer once there is nothing to wait for any more. -/
def attend (session : Session σ) (call : Call) : Call × Session σ :=
  if session.isDue call then
    let (answer, session) := session.conclude call
    (.answered answer, session)
  else session.collect call

end Session

end Fieldbus
