import Fieldbus.Device.Record
import Fieldbus.Walk.Basic

/-!
# The desk

Where an engine leaves what it has for its callers, and where they fetch it: the outcomes of their
requests under the tickets they hold, the reports of their walks, and the announcements heard while
their discovery windows are open.
-/

namespace Fieldbus

/-- The number under which the outcome of a request is left. -/
abbrev Ticket := Nat

/-- The number of a discovery window. -/
abbrev WindowId := Nat

/-- A discovery window. -/
structure Window where
  /-- How many records may wait; there is always room for one. -/
  capacity : Nat
  /-- The records that wait, the oldest first. -/
  waiting : List DeviceRecord := []
  /-- The records that the caller has fetched, the oldest first. -/
  fetched : List DeviceRecord := []
  /-- Whether the caller still wants records. -/
  wanted : Bool := true
  deriving DecidableEq, Repr

namespace Window

/-- The window with one more record, if there is room for it. -/
def deliver (window : Window) (record : DeviceRecord) : Window :=
  if window.waiting.length < window.capacity then
    { window with waiting := window.waiting ++ [record] }
  else window

/-- The window whose caller has fetched the oldest record that waited, if there was one. -/
def fetch (window : Window) : Window :=
  match window.waiting with
  | [] => window
  | record :: rest => { window with waiting := rest, fetched := window.fetched ++ [record] }

/-- The window of a caller that wants no more. -/
def close (window : Window) : Window := { window with wanted := false }

end Window

/-- What an engine leaves for its callers. -/
structure Desk where
  /-- How many tickets are given out. -/
  tickets : Nat := 0
  /-- The outcomes left, each under its ticket. -/
  outcomes : List (Ticket × Outcome) := []
  reports : List WalkReport := []
  windows : List Window := []
  deriving DecidableEq, Repr

namespace Desk

/-- A new ticket. -/
def issue (desk : Desk) : Ticket × Desk :=
  (desk.tickets, { desk with tickets := desk.tickets + 1 })

/-- The desk with an outcome left under a ticket. -/
def leave (desk : Desk) (ticket : Ticket) (outcome : Outcome) : Desk :=
  { desk with outcomes := desk.outcomes ++ [(ticket, outcome)] }

/-- The outcome left under a ticket. -/
def outcome? (desk : Desk) (ticket : Ticket) : Option Outcome :=
  (desk.outcomes.find? fun entry => entry.1 = ticket).map Prod.snd

/-- A new report. -/
def openReport (desk : Desk) : WalkId × Desk :=
  (desk.reports.length, { desk with reports := desk.reports ++ [{}] })

/-- The report with a number. -/
def report (desk : Desk) (id : WalkId) : WalkReport := desk.reports.getD id {}

/-- The desk with a report changed. -/
def mapReport (desk : Desk) (id : WalkId) (change : WalkReport → WalkReport) : Desk :=
  { desk with reports := desk.reports.modify id change }

/-- A report that is changed is the only one that changes. -/
theorem report_mapReport_of_ne {id other : WalkId} (h : other ≠ id) (desk : Desk)
    (change : WalkReport → WalkReport) :
    (desk.mapReport id change).report other = desk.report other := by
  simp [report, mapReport, List.getD, Ne.symm h]

/-- A new window. -/
def openWindow (desk : Desk) (capacity : Nat) : WindowId × Desk :=
  (desk.windows.length, { desk with windows := desk.windows ++ [{ capacity := max capacity 1 }] })

/-- The window with a number. -/
def window? (desk : Desk) (id : WindowId) : Option Window := desk.windows[id]?

/-- Whether the caller of a window still wants records. -/
def isWanted (desk : Desk) (id : WindowId) : Bool := (desk.window? id).any Window.wanted

/-- The desk with a window changed. -/
def mapWindow (desk : Desk) (id : WindowId) (change : Window → Window) : Desk :=
  { desk with windows := desk.windows.modify id change }

/-- The desk with a record delivered to each of some windows. -/
def deliver (desk : Desk) (windows : List WindowId) (record : DeviceRecord) : Desk :=
  windows.foldl (fun desk id => desk.mapWindow id fun window => window.deliver record) desk

end Desk

end Fieldbus
