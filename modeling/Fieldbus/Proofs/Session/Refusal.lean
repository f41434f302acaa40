import Fieldbus.Proofs.Session.Calls
import Fieldbus.Proofs.Session.Reading

/-!
# Operations that are refused

What can be found wrong with an operation without asking the station is found before the session
is touched: the session is not running, an instance number is too great, a name is not known, the
station of a device has not been heard, or a text is no value of the datatype.  A read or a write
that passes all this hands one command to the engine, and the request in it is what was asked for.

## Main definitions

* `ClientError.IsLocal`: the errors that are found without asking a station.
* `Answer.error?`: why an operation has no result.
* `Session.Asks`: the session after a request has been handed to the engine, and nothing else.

## Main results

* `Session.not_isLocal_of_conclude`: no operation that has begun ends with such an error.
* `Session.refused_or_asked`: a refused operation touches nothing, and an accepted read or write
  asks for exactly what it says.
-/

namespace Fieldbus

/-- The errors that are found without asking a station. -/
def ClientError.IsLocal : ClientError → Prop
  | .notStarted | .unknownProperty _ _ | .instanceNumber _ | .unknownDevice _ | .cast _ => True
  | .transport _ | .protocol _ | .enumerationTimeout _ | .enumerationAborted _ => False

/-- Why an operation has no result, or not all of it. -/
def Answer.error? : Answer → Option ClientError
  | .reading (.error error) | .written (.error error) | .devices (.error error) => some error
  | .enumeration found => found.error
  | .reading (.ok _) | .written (.ok _) | .devices (.ok _) => none

/-! ### What comes from the engine -/

variable {mac : Mac} {path : PropertyPath} {error : ClientError}

theorem Reading.not_isLocal_of_ofOutcome {outcome : Outcome}
    (h : Reading.ofOutcome mac path outcome = .error error) : ¬ error.IsLocal := by
  cases outcome with
  | failure cause =>
    cases h
    exact id
  | ack ack =>
    cases ack with
    | read ack =>
      simp only [ofOutcome] at h
      split at h
      · cases h
      · cases h
        exact id
    | _ =>
      cases h
      exact id

theorem not_isLocal_of_writeResult {outcome : Outcome} (h : writeResult outcome = .error error) :
    ¬ error.IsLocal := by
  cases outcome with
  | failure cause =>
    cases h
    exact id
  | ack ack =>
    cases ack with
    | simple => cases h
    | _ =>
      cases h
      exact id

theorem Enumeration.not_isLocal_of_ofReport {report : WalkReport} {nanoseconds : Nat}
    (h : (Enumeration.ofReport report nanoseconds).error = some error) : ¬ error.IsLocal := by
  rw [ofReport] at h
  dsimp only at h
  split at h
  · obtain ⟨cause, -, rfl⟩ := Option.map_eq_some_iff.mp h
    exact id
  · cases h
    exact id

namespace Session

variable {σ : Type} {session : Session σ}

/-- An operation that has begun does not end with an error that could have been found before. -/
theorem not_isLocal_of_conclude {call : Call} (hbegun : ∀ answer, call ≠ .answered answer)
    (h : (session.conclude call).1.error? = some error) : ¬ error.IsLocal := by
  cases call with
  | read mac path transaction =>
    rw [conclude] at h
    generalize hresult : Reading.ofOutcome mac path _ = result at h
    cases result with
    | ok reading => cases h
    | error found =>
      cases h
      exact Reading.not_isLocal_of_ofOutcome hresult
  | write transaction =>
    rw [conclude] at h
    generalize hresult : writeResult _ = result at h
    cases result with
    | ok written => cases h
    | error found =>
      cases h
      exact not_isLocal_of_writeResult hresult
  | enumerate walking => exact Enumeration.not_isLocal_of_ofReport h
  | discover discovery waits => cases h
  | answered answer => exact absurd rfl (hbegun answer)

/-! ### What is found before -/

/-- The session after a request has been handed to its engine for the holder of a ticket.  Nothing
else has changed. -/
def Asks (before : Session σ) (mac : Mac) (request : ConfirmedRequest) (transaction : Transaction)
    (after : Session σ) : Prop :=
  ∃ run worker, before.lifecycle = .running run ∧ run.worker = some worker ∧
    transaction.ticket = before.desk.tickets ∧
    after =
      { before with
        desk := { before.desk with tickets := before.desk.tickets + 1 }
        lifecycle := .running
          { run with
            worker := some
              { worker with
                commands := worker.commands ++
                  [.request mac request (.ticket transaction.ticket)] } } }

theorem exists_asks_of_transact {worker : Worker} (hworker : session.worker? = some worker)
    (run : EngineRun) (mac : Mac) (request : ConfirmedRequest) : ∃ transaction after,
      session.transact run mac request = .ok (transaction, after) ∧
        session.Asks mac request transaction after := by
  obtain ⟨current, hrun, halive⟩ := exists_running_of_worker? hworker
  have hsubmit := @submit?_of_running _ { session with desk := session.desk.issue.2 } _ _ hrun
    halive (.request mac request (.ticket session.desk.issue.1))
  refine ⟨⟨session.desk.tickets, session.clock + 2 * run.timing.apduTimeout.toNat⟩, _, ?_, current,
    worker, hrun, halive, rfl, rfl⟩
  simp only [transact, hsubmit]
  rfl

theorem exists_engine_of_worker? {worker : Worker} (h : session.worker? = some worker) :
    ∃ run, session.engine = .ok run := by
  obtain ⟨run, hrun, -⟩ := exists_running_of_worker? h
  refine ⟨run, ?_⟩
  rw [engine, run?, hrun]

theorem PropertyPath.resolve_eq_ok {path : PropertyPath} {resolved : Schema.Resolved}
    (h : Schema.resolve? path.typeName path.property = some resolved) :
    path.resolve = .ok resolved := by
  rw [PropertyPath.resolve, h]

variable {worker : Worker} {address : Address} {resolved : Schema.Resolved}

/-- A read whose object can exist and whose names are known asks for what they stand for. -/
theorem exists_asks_of_read (hworker : session.worker? = some worker)
    (hlocate : session.locate address = .ok mac) (hnumber : path.number ≤ maxInstance)
    (hresolve : Schema.resolve? path.typeName path.property = some resolved) :
    ∃ transaction begun,
      session.beginCall (.read address path) = (.read mac path transaction, begun) ∧
        session.Asks mac (.read ⟨⟨resolved.type, path.number⟩, resolved.property, path.index⟩)
          transaction begun := by
  obtain ⟨run, hengine⟩ := exists_engine_of_worker? hworker
  obtain ⟨transaction, begun, htransact, hasks⟩ := exists_asks_of_transact hworker run mac
    (.read ⟨⟨resolved.type, path.number⟩, resolved.property, path.index⟩)
  have hbegin : session.beginRead mac path = .ok (transaction, begun) := by
    refine bind_eq_ok_iff.mpr ⟨run, hengine, bind_eq_ok_iff.mpr ⟨(), if_pos hnumber, ?_⟩⟩
    exact bind_eq_ok_iff.mpr ⟨resolved, PropertyPath.resolve_eq_ok hresolve, htransact⟩
  refine ⟨transaction, begun, ?_, hasks⟩
  simp only [beginCall, hlocate, hbegin]

/-- A write whose object can exist, whose names are known and whose text is a value asks for the
value to be written, at the priority given. -/
theorem exists_asks_of_write (hworker : session.worker? = some worker)
    (hlocate : session.locate address = .ok mac) (hnumber : path.number ≤ maxInstance)
    (hresolve : Schema.resolve? path.typeName path.property = some resolved)
    {text : String} {value : Atom}
    (hvalue : Literal.write text resolved.datatype path.index = .ok value)
    (priority : Option UInt8) :
    ∃ transaction begun,
      session.beginCall (.write address path text priority) = (.write transaction, begun) ∧
        session.Asks mac (.write ⟨⟨resolved.type, path.number⟩, resolved.property, path.index,
          value.encode, priority⟩) transaction begun := by
  obtain ⟨run, hengine⟩ := exists_engine_of_worker? hworker
  obtain ⟨transaction, begun, htransact, hasks⟩ := exists_asks_of_transact hworker run mac
    (.write ⟨⟨resolved.type, path.number⟩, resolved.property, path.index, value.encode, priority⟩)
  have hwritten : writtenValue text resolved.datatype path.index = .ok value := by
    rw [writtenValue, hvalue]
  have hbegin : session.beginWrite mac path text priority = .ok (transaction, begun) := by
    refine bind_eq_ok_iff.mpr ⟨run, hengine, ?_⟩
    dsimp only
    rw [if_neg (UInt32.not_lt.mpr hnumber)]
    refine bind_eq_ok_iff.mpr ⟨resolved, PropertyPath.resolve_eq_ok hresolve, ?_⟩
    exact bind_eq_ok_iff.mpr ⟨value, hwritten, htransact⟩
  refine ⟨transaction, begun, ?_, hasks⟩
  simp only [beginCall, hlocate, hbegin]

/-- **Refused operations touch nothing, and accepted ones ask for what they say.**  Whenever an
operation ends with an error that is found without asking a station, it was answered when it was to
begin, and neither then nor at its end was the session touched.  As long as the engine is alive,
every read and every write to a station that can be located, of an object that can exist, with names
that are known and, to be written, a text that is a value, hands exactly one request to the engine:
for the object type, the instance number, the property and the index that were given, and to be
written the octets of the value and the priority as it was given. -/
theorem refused_or_asked (session : Session σ) :
    (∀ operation (later : Session σ) error,
      (later.conclude (session.beginCall operation).1).1.error? = some error → error.IsLocal →
        ∃ answer, session.beginCall operation = (.answered answer, session) ∧
          later.conclude (.answered answer) = (answer, later) ∧ answer.error? = some error) ∧
    ∀ worker, session.worker? = some worker →
      ∀ address mac, session.locate address = .ok mac →
      ∀ (path : PropertyPath) resolved, path.number ≤ maxInstance →
        Schema.resolve? path.typeName path.property = some resolved →
        (∃ transaction begun,
          session.beginCall (.read address path) = (.read mac path transaction, begun) ∧
            session.Asks mac
              (.read ⟨⟨resolved.type, path.number⟩, resolved.property, path.index⟩)
              transaction begun) ∧
        ∀ text value, Literal.write text resolved.datatype path.index = .ok value →
          ∀ priority, ∃ transaction begun,
            session.beginCall (.write address path text priority) = (.write transaction, begun) ∧
              session.Asks mac
                (.write ⟨⟨resolved.type, path.number⟩, resolved.property, path.index, value.encode,
                  priority⟩) transaction begun := by
  constructor
  · intro operation later error herror hlocal
    cases hcall : (session.beginCall operation).1 with
    | answered answer =>
      rw [hcall] at herror
      exact ⟨answer, beginCall_of_answered hcall, rfl, herror⟩
    | _ =>
      rw [hcall] at herror
      exact absurd hlocal (not_isLocal_of_conclude (fun _ heq => by cases heq) herror)
  · intro worker hworker address mac hlocate path resolved hnumber hresolve
    exact ⟨exists_asks_of_read hworker hlocate hnumber hresolve, fun text value hvalue priority =>
      exists_asks_of_write hworker hlocate hnumber hresolve hvalue priority⟩

/-- A read before the start and a write to a device that was not heard are refused; a write to a
station is asked for. -/
theorem refused_or_asked_oneReply :
    let idle := onLink ({} : Simulation.Segment)
    let live := oneReply (isSeven 1)
    (∃ answer, idle.beginCall (.read (.station 4) (stateOf 1)) = (.answered answer, idle) ∧
        answer.error? = some .notStarted) ∧
      (∃ answer, live.beginCall (.write (.device 8) (stateOf 1) "7" none) =
          (.answered answer, live) ∧ answer.error? = some (.unknownDevice 8)) ∧
      ∃ transaction begun,
        live.beginCall (.write (.station 4) (stateOf 1) "7" (some 8)) =
            (.write transaction, begun) ∧
          live.Asks 4 (.write ⟨⟨.multiStateValue, 1⟩, ⟨85⟩, none, (Atom.unsigned 7).encode, some 8⟩)
            transaction begun := by
  intro idle live
  refine ⟨?_, ?_, ?_⟩
  · obtain ⟨answer, hbegin, -, herror⟩ := (refused_or_asked idle).1
      (.read (.station 4) (stateOf 1)) idle .notStarted rfl trivial
    exact ⟨answer, hbegin, herror⟩
  · obtain ⟨answer, hbegin, -, herror⟩ := (refused_or_asked live).1
      (.write (.device 8) (stateOf 1) "7" none) live (.unknownDevice 8) rfl trivial
    exact ⟨answer, hbegin, herror⟩
  · obtain ⟨-, hwrites⟩ := (refused_or_asked live).2 _ rfl (.station 4) 4 rfl (stateOf 1)
      ⟨.multiStateValue, ⟨85⟩, .unsigned⟩ (by decide) rfl
    exact hwrites "7" (.unsigned 7) rfl (some 8)

end Session

end Fieldbus
