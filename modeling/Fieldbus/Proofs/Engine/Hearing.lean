import Mathlib.Logic.Function.Iterate
import Fieldbus.Proofs.Engine.Turn

/-!
# What an engine does for a window

An engine knows a discovery window from the commands about it that wait and from its list of
windows that hear of announcements.  Nothing else that it does has to do with windows: requests come
and go without a trace in them, and a record is delivered only when a device has announced itself,
once to each window for every time that it is listed.

## Main definitions

* `Command.window?`: the window that a command is about.
* `Ear`, `Worker.ear`: what an engine knows of a window.
* `Engine.announced?`: the record of the device whose announcement is heard next.
* `Engine.KeepsWindows`: what leaves all windows alone.

## Main results

* `Desk.window?_deliver`: what a delivery does to a window.
* `Engine.KeepsWindows.of_start`, `Engine.KeepsWindows.of_completion`,
  `Engine.KeepsWindows.of_expire`, `Engine.windows_stop`: requests leave all windows alone.
* `Engine.ear_handle_of_ne`: a command about another window leaves a window alone.
* `Engine.listen_announced`: what an engine does that hears of a device.
-/

namespace Fieldbus

/-! ### Windows on the desk -/

namespace Desk

variable (desk : Desk)

theorem window?_mapWindow_self (id : WindowId) (change : Window → Window) :
    (desk.mapWindow id change).window? id = (desk.window? id).map change := by
  rw [window?, mapWindow, List.getElem?_modify_eq]
  rfl

theorem window?_mapWindow_of_ne {id other : WindowId} (h : other ≠ id) (change : Window → Window) :
    (desk.mapWindow id change).window? other = desk.window? other := by
  rw [window?, mapWindow, List.getElem?_modify_ne _ _ (Ne.symm h)]
  rfl

theorem length_windows_mapWindow (id : WindowId) (change : Window → Window) :
    (desk.mapWindow id change).windows.length = desk.windows.length :=
  List.length_modify ..

theorem length_windows_deliver (windows : List WindowId) (record : DeviceRecord) :
    (desk.deliver windows record).windows.length = desk.windows.length := by
  rw [deliver]
  induction windows generalizing desk with
  | nil => rfl
  | cons id rest ih => rw [List.foldl_cons, ih, length_windows_mapWindow]

/-- A record is delivered to a window as often as the window is listed. -/
theorem window?_deliver (windows : List WindowId) (record : DeviceRecord) (id : WindowId) :
    (desk.deliver windows record).window? id =
      (desk.window? id).map (fun window => window.deliver record)^[windows.count id] := by
  rw [deliver]
  induction windows generalizing desk with
  | nil => simp
  | cons first rest ih =>
    rw [List.foldl_cons, ih]
    by_cases hfirst : first = id
    · subst hfirst
      rw [window?_mapWindow_self, List.count_cons_self, Function.iterate_succ, Option.map_map]
    · rw [window?_mapWindow_of_ne desk (Ne.symm hfirst), List.count_cons_of_ne hfirst]

end Desk

/-! ### What an engine knows of a window -/

/-- The window that a command is about. -/
def Command.window? : Command → Option WindowId
  | .discover window _ _ _ | .endDiscovery window => some window
  | .announce | .request _ _ _ | .shutdown => none

/-- What an engine knows of a window. -/
structure Ear where
  /-- The commands about the window that wait, the oldest first. -/
  commands : List Command
  /-- How often the window is listed to hear of announcements. -/
  count : Nat
  deriving DecidableEq, Repr

/-- Nothing known of a window. -/
def Ear.deaf : Ear := ⟨[], 0⟩

/-- What the engine knows of a window. -/
def Worker.ear (worker : Worker) (window : WindowId) : Ear :=
  ⟨worker.commands.filter fun command => command.window? = some window,
    worker.listeners.count window⟩

theorem Worker.ear_submit_of_ne (worker : Worker) {command : Command} {window : WindowId}
    (h : command.window? ≠ some window) :
    (worker.submit command).ear window = worker.ear window := by
  rw [ear, submit, List.filter_append, List.filter_cons_of_neg (by simpa using h), List.filter_nil,
    List.append_nil]
  rfl

theorem Worker.ear_submit_self (worker : Worker) {command : Command} {window : WindowId}
    (h : command.window? = some window) :
    (worker.submit command).ear window =
      ⟨(worker.ear window).commands ++ [command], (worker.ear window).count⟩ := by
  rw [ear, submit, List.filter_append, List.filter_cons_of_pos (by simpa using h), List.filter_nil]
  rfl

namespace Engine

variable {σ : Type}

/-- What leaves all windows alone, and what is known of them. -/
structure KeepsWindows (before after : Engine σ) : Prop where
  commands : after.commands = before.commands
  listeners : after.listeners = before.listeners
  windows : after.desk.windows = before.desk.windows

namespace KeepsWindows

variable {before middle after engine : Engine σ}

theorem refl (engine : Engine σ) : engine.KeepsWindows engine := ⟨rfl, rfl, rfl⟩

theorem trans (h : before.KeepsWindows middle) (h' : middle.KeepsWindows after) :
    before.KeepsWindows after :=
  ⟨h'.commands.trans h.commands, h'.listeners.trans h.listeners, h'.windows.trans h.windows⟩

theorem ear_eq (h : before.KeepsWindows after) (window : WindowId) :
    after.ear window = before.ear window := by
  rw [Worker.ear, Worker.ear, h.commands, h.listeners]

theorem of_fail (engine : Engine σ) (responder : Responder) (cause : Failure) :
    engine.KeepsWindows (engine.fail responder cause) := by
  cases responder <;> exact ⟨rfl, rfl, rfl⟩

variable [Link σ]

theorem of_start (engine : Engine σ) (destination : Mac) (request : ConfirmedRequest)
    (responder : Responder) : engine.KeepsWindows (engine.start destination request responder) := by
  rcases engine.start_cases destination request responder with
    ⟨cursor, link, cause, heq⟩ | ⟨id, cursor, link, -, heq⟩
  · rw [heq]
    have hfail := of_fail { engine with cursor := cursor, link := link } responder cause
    exact ⟨hfail.commands, hfail.listeners, hfail.windows⟩
  · rw [heq]
    exact ⟨rfl, rfl, rfl⟩

theorem of_complete (engine : Engine σ) (responder : Responder) (outcome : Outcome) :
    engine.KeepsWindows (engine.complete responder outcome) := by
  cases responder with
  | ticket ticket => exact ⟨rfl, rfl, rfl⟩
  | walk walk =>
    rw [complete]
    dsimp only
    split
    · exact ⟨rfl, rfl, rfl⟩
    · have hstart := of_start
        { engine with
          desk := engine.desk.mapReport walk.report fun _ =>
            (walk.onReply outcome (engine.desk.report walk.report)).2 }
      exact ⟨(hstart ..).commands, (hstart ..).listeners, (hstart ..).windows⟩

theorem of_completion (engine : Engine σ) (source : Mac) (id : InvokeId) (outcome : Outcome) :
    engine.KeepsWindows (engine.completion source id outcome) := by
  rw [completion]
  split
  · exact refl engine
  · split
    · rename_i entry _ _
      have hcomplete := of_complete (engine.release id) entry.responder outcome
      exact ⟨hcomplete.commands, hcomplete.listeners, hcomplete.windows⟩
    · exact refl engine

theorem of_giveUp (engine : Engine σ) (entry : Pending) :
    engine.KeepsWindows (engine.giveUp entry) := by
  have hcomplete := of_complete (engine.release entry.id) entry.responder (.failure .timeout)
  exact ⟨hcomplete.commands, hcomplete.listeners, hcomplete.windows⟩

theorem of_foldl_giveUp (entries : List Pending) (engine : Engine σ) :
    engine.KeepsWindows (entries.foldl giveUp engine) := by
  induction entries generalizing engine with
  | nil => exact refl engine
  | cons entry rest ih => exact (of_giveUp engine entry).trans (ih _)

theorem of_expire (engine : Engine σ) : engine.KeepsWindows engine.expire :=
  of_foldl_giveUp _ engine

end KeepsWindows

theorem windows_foldl_cancel (entries : List Pending) (engine : Engine σ) :
    (entries.foldl cancel engine).desk.windows = engine.desk.windows := by
  induction entries generalizing engine with
  | nil => rfl
  | cons entry rest ih =>
    have hcancel : (engine.cancel entry).desk.windows = engine.desk.windows := by
      rw [cancel]
      split <;> rfl
    exact (ih _).trans hcancel

variable [Link σ]

/-- An engine that stops leaves the windows as they are. -/
theorem windows_stop (engine : Engine σ) : engine.stop.desk.windows = engine.desk.windows :=
  windows_foldl_cancel engine.pending engine

/-! ### Carrying out a command -/

theorem windows_handle (engine : Engine σ) (command : Command) :
    (engine.handle command).desk.windows = engine.desk.windows := by
  cases command with
  | request destination request responder => exact (KeepsWindows.of_start ..).windows
  | _ => rfl

/-- A command that is not about a window leaves what is known of the window as it is. -/
theorem ear_handle_of_ne {engine : Engine σ} {command : Command} {rest : List Command}
    {window : WindowId} (hqueue : engine.commands = command :: rest)
    (hne : command.window? ≠ some window) :
    (handle { engine with commands := rest } command).ear window = engine.ear window := by
  have hcommands : (handle { engine with commands := rest } command).commands = rest :=
    commands_handle { engine with commands := rest } command
  have hlisteners : (handle { engine with commands := rest } command).listeners.count window =
      engine.listeners.count window := by
    cases command with
    | announce => rfl
    | discover other destination low high =>
      have hother : other ≠ window := fun heq => hne (congrArg some heq)
      change (engine.listeners ++ [other]).count window = _
      rw [List.count_append, List.count_singleton, if_neg (by simpa using hother), Nat.add_zero]
    | endDiscovery other =>
      have hother : window ≠ other := fun heq => hne (congrArg some heq.symm)
      exact List.count_filter (by simpa using hother)
    | request destination request responder =>
      have hkeeps := KeepsWindows.of_start { engine with commands := rest } destination request
        responder
      exact congrArg (List.count window) hkeeps.listeners
    | shutdown => rfl
  rw [Worker.ear, Worker.ear, hcommands, hlisteners, hqueue,
    List.filter_cons_of_neg (by simpa using hne)]

/-- An engine that knows nothing of a window learns nothing of it from the commands that wait. -/
theorem ear_handle_of_deaf {engine : Engine σ} {command : Command} {rest : List Command}
    {window : WindowId} (hqueue : engine.commands = command :: rest)
    (hdeaf : engine.ear window = .deaf) :
    (handle { engine with commands := rest } command).ear window = .deaf := by
  have hcommands := (Ear.mk.inj hdeaf).1
  rw [hqueue] at hcommands
  have hne : command.window? ≠ some window := fun heq =>
    List.filter_eq_nil_iff.mp hcommands command List.mem_cons_self (decide_eq_true heq)
  rw [ear_handle_of_ne hqueue hne, hdeaf]

/-! ### Listening -/

/-- The record of the device whose announcement is heard next. -/
def announced? (engine : Engine σ) : Option DeviceRecord :=
  match (Link.receive engine.link).1 with
  | .heard (.iAm source announcement) =>
    if announcement.id.type = .device then some (recordOf source announcement) else none
  | _ => none

theorem KeepsWindows.of_listen {engine after : Engine σ} (h : engine.listen = .ok after)
    (hnone : engine.announced? = none) : engine.KeepsWindows after := by
  rcases listen_cases h with ⟨link, hreceive, rfl⟩ | ⟨error, link, hreceive, rfl⟩ |
    ⟨indication, link, hreceive, rfl⟩
  · exact ⟨rfl, rfl, rfl⟩
  · exact ⟨rfl, rfl, rfl⟩
  · cases indication with
    | iAm source announcement =>
      have hother : announcement.id.type ≠ .device := fun hdevice => by
        simp [announced?, hreceive, hdevice] at hnone
      rw [indicate, hear, if_neg hother]
      exact ⟨rfl, rfl, rfl⟩
    | completion source id outcome =>
      have hkeeps := of_completion { engine with link := link } source id outcome
      exact ⟨hkeeps.commands, hkeeps.listeners, hkeeps.windows⟩

/-- An engine that hears of a device forgets the windows that are not wanted any more, and delivers
the record to the others on its list. -/
theorem listen_announced {engine after : Engine σ} {record : DeviceRecord}
    (h : engine.listen = .ok after) (hsome : engine.announced? = some record) :
    after.commands = engine.commands ∧
      after.listeners = engine.listeners.filter engine.desk.isWanted ∧
      after.desk = engine.desk.deliver (engine.listeners.filter engine.desk.isWanted) record := by
  rcases listen_cases h with ⟨link, hreceive, rfl⟩ | ⟨error, link, hreceive, rfl⟩ |
    ⟨indication, link, hreceive, rfl⟩
  · simp [announced?, hreceive] at hsome
  · simp [announced?, hreceive] at hsome
  · cases indication with
    | iAm source announcement =>
      simp only [announced?, hreceive] at hsome
      obtain ⟨hdevice, hrecord⟩ := Option.ite_none_right_eq_some.mp hsome
      cases hrecord
      rw [indicate, hear, if_pos hdevice]
      exact ⟨rfl, rfl, rfl⟩
    | completion source id outcome => simp [announced?, hreceive] at hsome

theorem ear_listen_of_wanted {engine after : Engine σ} {record : DeviceRecord} {window : WindowId}
    (h : engine.listen = .ok after) (hsome : engine.announced? = some record)
    (hwanted : engine.desk.isWanted window = true) : after.ear window = engine.ear window := by
  obtain ⟨hcommands, hlisteners, -⟩ := listen_announced h hsome
  rw [Worker.ear, Worker.ear, hcommands, hlisteners, List.count_filter hwanted]

theorem ear_listen_of_deaf {engine after : Engine σ} {record : DeviceRecord} {window : WindowId}
    (h : engine.listen = .ok after) (hsome : engine.announced? = some record)
    (hdeaf : engine.ear window = .deaf) : after.ear window = .deaf := by
  obtain ⟨hcommands, hlisteners, -⟩ := listen_announced h hsome
  obtain ⟨hnone, hcount⟩ := Ear.mk.inj hdeaf
  have hunlisted : after.listeners.count window = 0 := by
    rw [hlisteners]
    exact List.count_eq_zero.mpr fun hmem =>
      List.count_eq_zero.mp hcount (List.mem_filter.mp hmem).1
  rw [Worker.ear, hcommands, hnone, hunlisted]
  rfl

/-- The record of the device is delivered to a window that is wanted as often as it is listed. -/
theorem window?_listen_of_wanted {engine after : Engine σ} {record : DeviceRecord}
    {window : WindowId} (h : engine.listen = .ok after) (hsome : engine.announced? = some record)
    (hwanted : engine.desk.isWanted window = true) :
    after.desk.window? window = (engine.desk.window? window).map
      (fun window => window.deliver record)^[(engine.ear window).count] := by
  obtain ⟨-, -, hdelivered⟩ := listen_announced h hsome
  rw [hdelivered, Desk.window?_deliver, List.count_filter hwanted]
  rfl

/-- When the link breaks down nothing is heard, and the desk is as it was. -/
theorem listen_error {engine : Engine σ} {shared : Shared σ} (h : engine.listen = .error shared) :
    engine.announced? = none ∧ shared.desk = engine.desk := by
  rw [listen] at h
  cases hreceive : Link.receive engine.link with
  | mk reception link =>
    rw [hreceive] at h
    cases reception with
    | broken =>
      cases h
      exact ⟨by simp [announced?, hreceive], rfl⟩
    | _ => cases h

end Engine

end Fieldbus
