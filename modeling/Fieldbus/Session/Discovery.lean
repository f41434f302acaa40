import Fieldbus.Session.Basic

/-!
# Discovery

A discovery asks the devices of the segment to announce themselves, and gathers the announcements
for as long as its window is open.  It ends when its time is up or the engine is gone, and yields
the last record of each device that its caller has fetched, in ascending order.
-/

namespace Fieldbus

/-- The range of a Who-Is: a missing end is opened up where the other is given, and no end exceeds
the greatest instance number. -/
def instanceRange (low high : Option UInt32) : Option UInt32 × Option UInt32 :=
  match low, high with
  | none, none => (none, none)
  | low, high =>
    (some (min (low.getD 0) maxInstance), some (min (high.getD maxInstance) maxInstance))

/-- Where a Who-Is for one station goes; the broadcast address is no station. -/
def whoIsDestination : Option Mac → Destination
  | some mac => if mac = broadcastMac then .broadcast else .station mac
  | none => .broadcast

/-- The last record of each device, in ascending order of the devices. -/
def latestRecords (records : List DeviceRecord) : List DeviceRecord :=
  records.foldl (fun found record => DeviceCache.insertRecord record found) []

/-- What the caller of a discovery holds while its window is open. -/
structure Discovery where
  window : WindowId
  /-- The time at which the window closes. -/
  deadline : Nat
  deriving DecidableEq, Repr

namespace Session

variable {σ : Type}

/-- Begins a discovery.  There is none where the engine is gone. -/
def beginDiscovery (session : Session σ) (timeout : Nat) (station : Option Mac)
    (low high : Option UInt32) : Except ClientError (Option (Discovery × Session σ)) := do
  let run ← session.engine
  let (low, high) := instanceRange low high
  let (window, desk) := session.desk.openWindow run.timing.queueCapacity.toNat
  let opened := { session with desk := desk }
  return (opened.submit? (.discover window (whoIsDestination station) low high)).map fun session =>
    (⟨window, session.clock + timeout⟩, session)

/-- Whether more records may come into the window of a discovery. -/
def mayHear (session : Session σ) (discovery : Discovery) : Bool :=
  session.worker?.any fun worker => worker.holdsWindow discovery.window

/-- The oldest record that waits in the window of a discovery. -/
def oldest? (session : Session σ) (discovery : Discovery) : Option DeviceRecord :=
  (session.desk.window? discovery.window).bind fun window => window.waiting.head?

/-- Fetches the oldest record that waits in a window. -/
def fetch (session : Session σ) (discovery : Discovery) : Session σ :=
  { session with desk := session.desk.mapWindow discovery.window Window.fetch }

/-- The records that the caller of a discovery has got. -/
def found (session : Session σ) (discovery : Discovery) : List DeviceRecord :=
  latestRecords
    (((session.desk.window? discovery.window).map Window.fetched).getD [])

/-- Closes the window of a discovery, and lets the engine know. -/
def endDiscovery (session : Session σ) (discovery : Discovery) : Session σ :=
  let closed :=
    { session with desk := session.desk.mapWindow discovery.window Window.close }
  (closed.submit? (.endDiscovery discovery.window)).getD closed

end Session

end Fieldbus
