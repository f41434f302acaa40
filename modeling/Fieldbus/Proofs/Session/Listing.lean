import Fieldbus.Proofs.Session.Heard
import Fieldbus.Proofs.Session.Ownership

/-!
# Windows are listed once

A window is listed by the engine that carries out the command of its discovery.  The command is
handed over once, when the discovery begins, to the engine that is there, and is gone when it has
been carried out.  So in no scene is a window listed twice, and a record that is delivered comes
into each window once.

## Main definitions

* `Ear.listings`: how often a window is listed, with what waits to list it.
* `Scene.ListsOnce`: no window is listed twice, or will be.

## Main results

* `Scene.ListsOnce.proceed`: no moment lists a window twice.
* `Scene.window?_listen`: what comes into the windows when a device is heard.
-/

namespace Fieldbus

/-- How often a window is listed, with the commands that wait to list it. -/
def Ear.listings (ear : Ear) (window : WindowId) : Nat :=
  ear.commands.countP (Command.opens window) + ear.count

@[simp]
theorem Ear.listings_mk (commands : List Command) (count : Nat) (window : WindowId) :
    Ear.listings ⟨commands, count⟩ window = commands.countP (Command.opens window) + count := rfl

theorem Worker.listings_submit (worker : Worker) (command : Command) (window : WindowId) :
    ((worker.submit command).ear window).listings window =
      (worker.ear window).listings window + if command.opens window then 1 else 0 := by
  by_cases hwindow : command.window? = some window
  · rw [ear_submit_self worker hwindow, Ear.listings_mk, List.countP_append, List.countP_singleton,
      Ear.listings, Nat.add_right_comm]
  · have hcloses : ¬command.opens window = true := fun hopens =>
      hwindow (Command.window?_of_opens hopens)
    rw [ear_submit_of_ne worker hwindow, if_neg hcloses, Nat.add_zero]

namespace Engine

variable {σ : Type} [Link σ]

theorem count_listeners_handle_le (engine : Engine σ) {command : Command} {window : WindowId}
    (hwindow : command.window? = some window) :
    (engine.handle command).listeners.count window ≤
      engine.listeners.count window + if command.opens window then 1 else 0 := by
  cases command with
  | discover opened destination low high =>
    obtain rfl : opened = window := Option.some.inj hwindow
    change (engine.listeners ++ [opened]).count opened ≤ _
    simp [Command.opens]
  | endDiscovery closed =>
    change (engine.listeners.filter fun id => id ≠ closed).count window ≤ _
    exact List.Sublist.count_le window List.filter_sublist
  | _ => cases hwindow

/-- A command that is carried out lists no window that it was not to list. -/
theorem listings_handle_le {engine : Engine σ} {command : Command} {rest : List Command}
    (hqueue : engine.commands = command :: rest) (window : WindowId) :
    ((handle { engine with commands := rest } command).ear window).listings window ≤
      (engine.ear window).listings window := by
  by_cases hwindow : command.window? = some window
  · have hcommands : (handle { engine with commands := rest } command).commands = rest :=
      commands_handle { engine with commands := rest } command
    have hcount := count_listeners_handle_le { engine with commands := rest } hwindow
    rw [Worker.ear, Worker.ear, hcommands, hqueue, List.filter_cons_of_pos (by simpa using hwindow),
      Ear.listings_mk, Ear.listings_mk, List.countP_cons]
    dsimp only at hcount
    omega
  · rw [ear_handle_of_ne hqueue hwindow]

end Engine

namespace Session

variable {σ : Type} {before after : Session σ}

theorem listings_of_submit? {command : Command} (h : before.submit? command = some after)
    (window : WindowId) :
    (after.ear window).listings window =
      (before.ear window).listings window + if command.opens window then 1 else 0 := by
  obtain ⟨run, worker, hrun, halive, rfl⟩ := exists_of_submit? h
  rw [ear_of_running rfl rfl, ear_of_running hrun halive]
  exact worker.listings_submit command window

theorem listings_beginCall_le (session : Session σ) (operation : Operation) (window : WindowId) :
    ((session.beginCall operation).2.ear window).listings window ≤
      (session.ear window).listings window + 1 := by
  rcases hbegin : session.beginCall operation with ⟨call, after⟩
  cases begins_of_beginCall hbegin with
  | answered => exact Nat.le_succ _
  | requests _ _ hhands =>
    obtain ⟨desk, mac, request, responder, -, hsubmit⟩ := hhands
    exact (listings_of_submit? hsubmit window).le.trans (Nat.le_succ _)
  | opens hsubmit =>
    refine (listings_of_submit? hsubmit window).le.trans (Nat.add_le_add_left ?_ _)
    split <;> omega

theorem listings_attend (session : Session σ) (call : Call) (window : WindowId) :
    ((session.attend call).2.ear window).listings window =
      (session.ear window).listings window := by
  obtain ⟨desk, heq | ⟨command, ⟨closed, rfl⟩, hsubmit⟩⟩ := session.hands_attend call
  · rw [heq]
    rfl
  · exact listings_of_submit? hsubmit window

end Session

namespace Scene

variable {σ : Type}

/-- No window is listed twice, or will be once the commands that wait have been carried out. -/
def ListsOnce (scene : Scene σ) : Prop :=
  ∀ window, (scene.session.ear window).listings window ≤ 1

namespace ListsOnce

variable [Link σ] {scene : Scene σ}

theorem work (h : scene.ListsOnce) (work : Work) : (scene.proceed (.work work)).ListsOnce := by
  intro window
  refine le_trans ?_ (h window)
  change ((scene.session.work work).ear window).listings window ≤ _
  cases halive : scene.session.alive? with
  | none =>
    rw [Session.work, halive]
  | some engine =>
    rw [Session.work_of_alive? halive, Session.ear_of_alive? halive]
    have haffects := engine.affects_work work
    generalize engine.work work = turn at haffects
    cases haffects with
    | keeps hkeeps => rw [Session.ear_settle_running halive, hkeeps.ear_eq]
    | obeys hqueue =>
      rw [Session.ear_settle_running halive]
      exact Engine.listings_handle_le hqueue window
    | hears hannounced hlisten =>
      obtain ⟨hcommands, hlisteners, -⟩ := Engine.listen_announced hlisten hannounced
      rw [Session.ear_settle_running halive, Worker.ear, hcommands, hlisteners]
      exact Nat.add_le_add_left (List.Sublist.count_le window List.filter_sublist) _
    | stops => exact Nat.zero_le _
    | crashes =>
      rw [Session.ear_settle_crashed]
      exact Nat.zero_le _

/-- **No moment lists a window twice.** -/
theorem proceed (h : scene.ListsOnce) (hsound : scene.Sound) (moment : Moment) :
    (scene.proceed moment).ListsOnce := by
  by_cases hwork : ∃ work, moment = .work work
  · obtain ⟨work, rfl⟩ := hwork
    exact h.work work
  · have hspares := scene.sparesBut_proceed fun work heq => hwork ⟨work, heq⟩
    intro window
    by_cases hown : scene.own? moment = some window
    · cases moment with
      | begin operation =>
        -- the window of a call that begins is a new one, of which nothing was known
        obtain ⟨hnew, -⟩ := Session.window?_beginCall hown
        have hlisted := scene.session.listings_beginCall_le operation window
        rwa [hsound.fresh window hnew.ge] at hlisted
      | attend number =>
        rw [Scene.proceed]
        split
        · exact h window
        · exact (Session.listings_attend _ _ window).trans_le (h window)
      | _ => cases hown
    · rw [hspares.ear window hown]
      exact h window

end ListsOnce

theorem listsOnce_onLink (link : σ) : (onLink link).ListsOnce := fun _ => Nat.zero_le _

variable [Link σ] {scene : Scene σ} {engine : Engine σ}

/-- The record of a device that is heard comes once into each window that is listed and wanted, and
no other window changes. -/
theorem ListsOnce.window?_listen (h : scene.ListsOnce) {record : DeviceRecord}
    (halive : scene.session.alive? = some engine) (hannounced : engine.announced? = some record)
    {id : WindowId} {window : Window} (hwindow : scene.session.desk.window? id = some window) :
    (scene.proceed (.work .listen)).session.desk.window? id =
      some (if id ∈ engine.listeners ∧ window.wanted = true then window.deliver record
        else window) := by
  have hdesk := Session.desk_of_alive? halive
  have hwanted : engine.desk.isWanted id = window.wanted := by
    rw [Desk.isWanted, hdesk, hwindow]
    rfl
  have hnext : (scene.proceed (.work .listen)).session =
      scene.session.settle (engine.work .listen) := Session.work_of_alive? halive .listen
  rw [hnext, Engine.work]
  cases hlisten : engine.listen with
  | error shared => cases (Engine.listen_error hlisten).1.symm.trans hannounced
  | ok after =>
    obtain ⟨-, -, hdelivered⟩ := Engine.listen_announced hlisten hannounced
    rw [Session.desk_settle_running, hdelivered, Desk.window?_deliver, hdesk, hwindow]
    by_cases hlisted : id ∈ engine.listeners ∧ window.wanted = true
    · have hcount : engine.listeners.count id = 1 := by
        have honce := h id
        rw [Session.ear_of_alive? halive, Ear.listings] at honce
        have hpositive : 0 < engine.listeners.count id := List.count_pos_iff.mpr hlisted.1
        change _ + engine.listeners.count id ≤ 1 at honce
        omega
      rw [if_pos hlisted, ← hdesk, List.count_filter (hwanted.trans hlisted.2), hcount]
      rfl
    · have hcount : (engine.listeners.filter engine.desk.isWanted).count id = 0 := by
        rw [List.count_eq_zero, List.mem_filter, hwanted]
        exact hlisted
      rw [if_neg hlisted, ← hdesk, hcount]
      rfl

end Scene

end Fieldbus
