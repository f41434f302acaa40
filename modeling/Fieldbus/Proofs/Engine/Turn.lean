import Fieldbus.Proofs.Engine.Accounting

/-!
# Turns as steps

An engine works in turns, and what one turn does is a row of steps: the commands that wait are
carried out one after the other, one indication is taken in, and the overdue requests are given up
one after the other.  The end of an engine is such a row too, as far as the desk is concerned: each
request that still waits is cancelled.

## Main results

* `Engine.reaches_of_turn_running`: a turn that leaves the engine running is a row of steps.
* `Engine.reaches_of_turn_stopped`: an engine that stops has reached a shutdown.
* `Engine.exists_reaches_drained`: what a stopped engine leaves is what steps can leave.
-/

namespace Fieldbus

/-- The commands that wait behind a shutdown. -/
def behindShutdown (commands : List Command) : List Command :=
  (commands.dropWhile fun command => command ≠ .shutdown).tail

namespace Engine

variable {σ : Type}

/-! ### Commands that wait meanwhile -/

theorem fail_withCommands (engine : Engine σ) (commands : List Command) (responder : Responder)
    (cause : Failure) :
    Engine.fail { engine with commands := commands } responder cause =
      { engine.fail responder cause with commands := commands } := by
  cases responder <;> rfl

variable [Link σ]

theorem start_withCommands (engine : Engine σ) (commands : List Command) (destination : Mac)
    (request : ConfirmedRequest) (responder : Responder) :
    Engine.start { engine with commands := commands } destination request responder =
      { engine.start destination request responder with commands := commands } := by
  rw [start, start]
  cases hfree : firstFree engine.isBusy invokeIds engine.cursor with
  | none =>
    have hnone : engine.takeId? = none := by rw [Worker.takeId?, hfree, Option.map_none]
    have hnone' : Worker.takeId? { engine.toWorker with commands := commands } = none :=
      Option.map_eq_none_iff.mpr hfree
    simp only [hnone, hnone', fail_withCommands]
  | some id =>
    have hsome : engine.takeId? = some (id, { engine.toWorker with cursor := id + 1 }) := by
      rw [Worker.takeId?, hfree, Option.map_some]
    have hsome' : Worker.takeId? { engine.toWorker with commands := commands } =
        some (id, { engine.toWorker with commands := commands, cursor := id + 1 }) :=
      Option.map_eq_some_iff.mpr ⟨id, hfree, rfl⟩
    simp only [hsome, hsome']
    cases hsend : Link.sendConfirmed destination id request engine.link with
    | mk result link =>
      cases result with
      | error error => simp only [← fail_withCommands]
      | ok => rfl

/-- Carrying out a command does not depend on the commands that wait behind it. -/
theorem handle_withCommands (engine : Engine σ) (commands : List Command) (command : Command) :
    handle { engine with commands := commands } command =
      { engine.handle command with commands := commands } := by
  cases command with
  | request destination request responder => exact engine.start_withCommands _ _ _ _
  | _ => rfl

/-! ### Carrying out the commands -/

theorem commands_handle (engine : Engine σ) (command : Command) :
    (engine.handle command).commands = engine.commands := by
  have hself := congrArg (fun engine : Engine σ => engine.commands)
    (engine.handle_withCommands engine.commands command)
  exact hself

/-- Carrying out commands is a row of steps, up to the first shutdown. -/
theorem reaches_of_obeyAll {commands : List Command} {engine after : Engine σ} {stopped : Bool}
    (hempty : engine.commands = []) (h : obeyAll commands engine = (stopped, after)) :
    Reaches { engine with commands := commands }
      { after with
        commands := if stopped then .shutdown :: behindShutdown commands else [] } ∧
      after.commands = [] := by
  induction commands generalizing engine with
  | nil =>
    obtain ⟨rfl, rfl⟩ := Prod.mk.inj h
    exact ⟨.refl, hempty⟩
  | cons command rest ih =>
    by_cases hcommand : command = .shutdown
    · subst hcommand
      obtain ⟨rfl, rfl⟩ := Prod.mk.inj h
      rw [if_pos rfl, behindShutdown, List.dropWhile_cons_of_neg (by simp)]
      exact ⟨.refl, hempty⟩
    · have hall : obeyAll (command :: rest) engine = obeyAll rest (engine.handle command) := by
        cases command <;> first | rfl | exact absurd rfl hcommand
      have hbehind : behindShutdown (command :: rest) = behindShutdown rest := by
        rw [behindShutdown, List.dropWhile_cons_of_pos (by simpa using hcommand), behindShutdown]
      have hstep : Step { engine with commands := command :: rest } .obey
          { engine.handle command with commands := rest } :=
        engine.handle_withCommands rest command ▸ .obey rfl hcommand
      obtain ⟨hreaches, hcommands⟩ := ih ((engine.commands_handle command).trans hempty) (hall ▸ h)
      rw [hbehind]
      exact ⟨.head ⟨_, hstep⟩ hreaches, hcommands⟩

/-! ### Giving up and cancelling requests -/

theorem giveUp_eq (engine : Engine σ) (entry : Pending) :
    engine.giveUp entry =
      { engine.release entry.id with desk := engine.desk.fail entry.responder .timeout } := by
  have hfail := (engine.release entry.id).complete_failure_eq_fail entry.responder .timeout
  exact hfail.trans (fail_eq _ _ _)

omit [Link σ] in
theorem pending_release_head {engine : Engine σ} {entry : Pending} {rest : List Pending}
    (hpending : engine.pending = entry :: rest)
    (hids : (engine.pending.map Pending.id).Nodup) : (engine.release entry.id).pending = rest := by
  rw [hpending, List.map_cons, List.nodup_cons] at hids
  change engine.pending.filter _ = rest
  rw [hpending, List.filter_cons_of_neg (by simp), List.filter_eq_self]
  intro other hother
  have hne : other.id ≠ entry.id := fun heq => hids.1 (heq ▸ List.mem_map_of_mem hother)
  simpa using hne

/-- Giving up overdue requests is a row of steps. -/
theorem reaches_giveUp {entries : List Pending} {engine : Engine σ}
    (hids : (entries.map Pending.id).Nodup) (hentries : ∀ entry ∈ entries, entry ∈ engine.pending)
    (hoverdue : ∀ entry ∈ entries, engine.isOverdue entry = true) :
    engine.Reaches (entries.foldl giveUp engine) := by
  induction entries generalizing engine with
  | nil => exact .refl
  | cons entry rest ih =>
    rw [List.map_cons, List.nodup_cons] at hids
    have hstep : Step engine (.giveUp entry) (engine.giveUp entry) :=
      .giveUp (hentries _ List.mem_cons_self) (hoverdue _ List.mem_cons_self)
    have heq := engine.giveUp_eq entry
    refine .head ⟨_, hstep⟩ (ih hids.2 (fun other hother => ?_) fun other hother => ?_)
    · have hne : other.id ≠ entry.id := fun heq => hids.1 (heq ▸ List.mem_map_of_mem hother)
      rw [heq]
      exact List.mem_filter.mpr
        ⟨hentries other (List.mem_cons_of_mem _ hother), by simpa using hne⟩
    · rw [heq]
      exact hoverdue other (List.mem_cons_of_mem _ hother)

omit [Link σ] in
/-- Cancelling a request changes the desk only, and depends on the desk only. -/
theorem cancel_eq (entry : Pending) :
    ∃ change : Desk → Desk, ∀ engine : Engine σ,
      engine.cancel entry = { engine with desk := change engine.desk } := by
  obtain ⟨id, destination, sentAt, responder⟩ := entry
  cases responder with
  | ticket ticket => exact ⟨fun desk => desk.leave ticket (.failure .stopped), fun _ => rfl⟩
  | walk walk =>
    exact ⟨fun desk => desk.mapReport walk.report fun report => report.abort (.failure .stopped),
      fun _ => rfl⟩

omit [Link σ] in
theorem toShared_foldl_cancel (entries : List Pending) {engine other : Engine σ}
    (hshared : engine.toShared = other.toShared) :
    (entries.foldl cancel engine).toShared = (entries.foldl cancel other).toShared := by
  induction entries generalizing engine other with
  | nil => exact hshared
  | cons entry rest ih =>
    obtain ⟨change, heq⟩ := @cancel_eq σ entry
    exact ih (by rw [heq, heq, hshared])

theorem stop_withCommands (engine : Engine σ) (commands : List Command) :
    Engine.stop { engine with commands := commands } = engine.stop := by
  have hshared := toShared_foldl_cancel engine.pending
    (show ({ engine with commands := commands } : Engine σ).toShared = engine.toShared from rfl)
  rw [stop, stop, hshared]

/-- Steps drain an engine of all that waits for an answer, and leave on the desk what stopping
leaves there. -/
theorem exists_reaches_drained (engine : Engine σ) (hids : (engine.pending.map Pending.id).Nodup) :
    ∃ drained, engine.Reaches drained ∧ drained.pending = [] ∧
      drained.commands = engine.commands ∧ drained.desk = engine.stop.desk := by
  change ∃ drained, engine.Reaches drained ∧ drained.pending = [] ∧
    drained.commands = engine.commands ∧ drained.desk = (engine.pending.foldl cancel engine).desk
  generalize hpending : engine.pending = entries at hids
  induction entries generalizing engine with
  | nil => exact ⟨engine, .refl, hpending, rfl, rfl⟩
  | cons entry rest ih =>
    obtain ⟨change, heq⟩ := @cancel_eq σ entry
    have hstep : Step engine (.cancel entry) ((engine.release entry.id).cancel entry) :=
      .cancel (hpending ▸ List.mem_cons_self)
    have hrest : ((engine.release entry.id).cancel entry).pending = rest := by
      rw [heq]
      exact pending_release_head hpending (hpending ▸ hids)
    obtain ⟨drained, hreaches, hdrained, hcommands, hdesk⟩ :=
      ih _ hrest (List.nodup_cons.mp hids).2
    refine ⟨drained, .head ⟨_, hstep⟩ hreaches, hdrained, ?_, ?_⟩
    · rw [hcommands, heq]
      rfl
    · rw [hdesk]
      exact congrArg Shared.desk (toShared_foldl_cancel rest (by rw [heq, heq]; rfl))

/-! ### Turns -/

variable {start : Desk} {engine after : Engine σ}

/-- A turn that leaves the engine running is a row of steps. -/
theorem reaches_of_turn_running (h : engine.Sound start) (hturn : engine.turn = .running after) :
    engine.Reaches after := by
  rw [turn] at hturn
  cases hobey : engine.obey with
  | mk stopped obeyed =>
    rw [hobey] at hturn
    cases stopped with
    | true => cases hturn
    | false =>
      obtain ⟨hobeyed, hcommands⟩ := reaches_of_obeyAll rfl hobey
      have hobeyed : engine.Reaches { obeyed with commands := [] } := hobeyed
      rw [← hcommands] at hobeyed
      cases hlisten : obeyed.listen with
      | error shared => simp [hlisten] at hturn
      | ok heard =>
        simp only [hlisten, Turn.running.injEq] at hturn
        have hheard : engine.Reaches heard := .tail hobeyed ⟨_, .listen hlisten⟩
        have hids := (h.of_reaches hheard).ids
        subst hturn
        exact hheard.trans (reaches_giveUp (hids.sublist (List.filter_sublist.map _))
          (fun _ hentry => (List.mem_filter.mp hentry).1)
          fun _ hentry => (List.mem_filter.mp hentry).2)

/-- An engine that stops has come to a shutdown, and leaves what it has to leave there. -/
theorem reaches_of_turn_stopped {shared : Shared σ} (hturn : engine.turn = .stopped shared) :
    ∃ last, engine.Reaches last ∧ last.commands = .shutdown :: behindShutdown engine.commands ∧
      shared = last.stop := by
  rw [turn] at hturn
  cases hobey : engine.obey with
  | mk stopped obeyed =>
    rw [hobey] at hturn
    cases stopped with
    | true =>
      obtain ⟨hobeyed, -⟩ := reaches_of_obeyAll rfl hobey
      exact ⟨_, hobeyed, rfl, (Turn.stopped.inj hturn).symm.trans (obeyed.stop_withCommands _).symm⟩
    | false =>
      cases hlisten : obeyed.listen with
      | error shared => simp [hlisten] at hturn
      | ok heard => simp [hlisten] at hturn

end Engine

end Fieldbus
