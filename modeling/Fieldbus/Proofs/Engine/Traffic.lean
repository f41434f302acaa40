import Fieldbus.Proofs.Engine.Step
import Fieldbus.Proofs.Link.Tapped

/-!
# What an engine sends

An engine sends what it was given to send: its own announcement, the requests of the commands that
wait, and the reads with which the walks under way go on.  So if all these are messages of some
kind, all that it hands to its link are, and this stays so for as long as the commands it takes are
of the kind as well.

## Main definitions

* `LocalDevice.announcement`: how a device announces itself.
* `Worker.Within`: all that an engine may come to send is allowed.
* `Engine.Sends`: an engine that has sent allowed messages only.
* `Engine.Leaves`: the same of whatever a turn leaves.

## Main results

* `Engine.sends_start`, `Engine.sends_complete`: requests and the answers to them.
* `Engine.leaves_turn`: an engine whose messages are allowed sends no others in a turn.
-/

namespace Fieldbus

/-- How a device announces itself. -/
def LocalDevice.announcement (identity : LocalDevice) : Announcement :=
  ⟨identity.id, identity.maxApdu, identity.segmentation, identity.vendor⟩

/-- Whether a responder that goes on sends allowed messages: a walk reads any element of its
list. -/
def Responder.Within (allowed : Message → Prop) : Responder → Prop
  | .ticket _ => True
  | .walk course => ∀ id index, allowed (.confirmed course.destination id (course.readAt index))

/-- Whether all that follows from a command is allowed.  An announcement is the engine's own. -/
def Command.Within (allowed : Message → Prop) : Command → Prop
  | .discover _ destination low high => allowed (.unconfirmed destination (.whoIs low high))
  | .request destination asked responder =>
    (∀ id, allowed (.confirmed destination id asked)) ∧ responder.Within allowed
  | .announce | .endDiscovery _ | .shutdown => True

/-- All that an engine may come to send is allowed. -/
structure Worker.Within (allowed : Message → Prop) (worker : Worker) : Prop where
  announcement : allowed (.unconfirmed .broadcast (.iAm worker.identity.announcement))
  commands : ∀ command ∈ worker.commands, command.Within allowed
  pending : ∀ entry ∈ worker.pending, entry.responder.Within allowed

section Within

variable {allowed wider : Message → Prop}

theorem Responder.Within.of_all (h : ∀ message, allowed message) (responder : Responder) :
    responder.Within allowed := by
  cases responder with
  | ticket ticket => trivial
  | walk course => exact fun id index => h _

theorem Command.Within.of_all (h : ∀ message, allowed message) (command : Command) :
    command.Within allowed := by
  cases command with
  | discover window destination low high => exact h _
  | request destination asked responder => exact ⟨fun id => h _, .of_all h responder⟩
  | _ => trivial

theorem Responder.Within.mono (hle : ∀ message, allowed message → wider message)
    {responder : Responder} (h : responder.Within allowed) : responder.Within wider := by
  cases responder with
  | ticket ticket => trivial
  | walk course => exact fun id index => hle _ (h id index)

theorem Command.Within.mono (hle : ∀ message, allowed message → wider message)
    {command : Command} (h : command.Within allowed) : command.Within wider := by
  cases command with
  | discover window destination low high => exact hle _ h
  | request destination request responder => exact ⟨fun id => hle _ (h.1 id), h.2.mono hle⟩
  | _ => trivial

namespace Worker.Within

variable {worker after : Worker}

theorem mono (hle : ∀ message, allowed message → wider message) (h : worker.Within allowed) :
    worker.Within wider :=
  ⟨hle _ h.announcement, fun command hcommand => (h.commands command hcommand).mono hle,
    fun entry hentry => (h.pending entry hentry).mono hle⟩

theorem of_all (h : ∀ message, allowed message) (worker : Worker) : worker.Within allowed :=
  ⟨h _, fun command _ => .of_all h command, fun entry _ => .of_all h entry.responder⟩

theorem of_idle {identity : LocalDevice} {timing : Timing}
    (h : allowed (.unconfirmed .broadcast (.iAm identity.announcement))) :
    Worker.Within allowed { identity := identity, timing := timing } := ⟨h, nofun, nofun⟩

theorem submit (h : worker.Within allowed) {command : Command} (hcommand : command.Within allowed) :
    (worker.submit command).Within allowed := by
  refine ⟨h.announcement, fun other hother => ?_, h.pending⟩
  rcases List.mem_append.mp hother with hother | hother
  · exact h.commands other hother
  · exact List.mem_singleton.mp hother ▸ hcommand

/-- What has less to do sends no more. -/
theorem of_subset (h : worker.Within allowed) (hidentity : after.identity = worker.identity)
    (hcommands : ∀ command ∈ after.commands, command ∈ worker.commands)
    (hpending : ∀ entry ∈ after.pending, entry ∈ worker.pending) : after.Within allowed :=
  ⟨hidentity ▸ h.announcement, fun command hmem => h.commands command (hcommands command hmem),
    fun entry hmem => h.pending entry (hpending entry hmem)⟩

end Worker.Within

end Within

namespace Engine

variable {σ : Type}

/-! ### Failures leave the link alone -/

theorem link_fail (engine : Engine σ) (responder : Responder) (cause : Failure) :
    (engine.fail responder cause).link = engine.link := by
  cases responder <;> rfl

theorem toWorker_fail (engine : Engine σ) (responder : Responder) (cause : Failure) :
    (engine.fail responder cause).toWorker = engine.toWorker := by
  cases responder <;> rfl

theorem link_cancel (engine : Engine σ) (entry : Pending) :
    (engine.cancel entry).link = engine.link := by
  obtain ⟨id, destination, sentAt, responder⟩ := entry
  cases responder <;> rfl

theorem link_foldl_cancel (entries : List Pending) (engine : Engine σ) :
    (entries.foldl cancel engine).link = engine.link := by
  induction entries generalizing engine with
  | nil => rfl
  | cons entry rest ih => exact (ih _).trans (engine.link_cancel entry)

variable [Link σ] {allowed : Message → Prop}

/-- An engine after it has sent allowed messages only, with nothing else to come.  It announces the
same device as before. -/
structure Sends (allowed : Message → Prop) (before after : Engine σ) : Prop where
  link : Link.Sends allowed before.link after.link
  within : after.Within allowed
  identity : after.identity = before.identity
  timing : after.timing = before.timing

namespace Sends

variable {before middle after : Engine σ}

theorem refl {engine : Engine σ} (h : engine.Within allowed) : Sends allowed engine engine :=
  ⟨.refl, h, rfl, rfl⟩

theorem trans (h : Sends allowed before middle) (h' : Sends allowed middle after) :
    Sends allowed before after :=
  ⟨h.link.trans h'.link, h'.within, h'.identity.trans h.identity, h'.timing.trans h.timing⟩

theorem withDesk (h : before.Within allowed) (desk : Desk) :
    Sends allowed before { before with desk := desk } := ⟨.refl, h, rfl, rfl⟩

/-- What sends nothing and only takes work away from the engine. -/
theorem of_subset (h : before.Within allowed) (hlink : after.link = before.link)
    (hidentity : after.identity = before.identity) (htiming : after.timing = before.timing)
    (hcommands : ∀ command ∈ after.commands, command ∈ before.commands)
    (hpending : ∀ entry ∈ after.pending, entry ∈ before.pending) : Sends allowed before after :=
  ⟨hlink ▸ .refl, h.of_subset hidentity hcommands hpending, hidentity, htiming⟩

end Sends

variable {engine : Engine σ}

/-! ### Requests -/

/-- A request that is started is sent, unless there is no id for it. -/
theorem sends_start (h : engine.Within allowed) {destination : Mac} {request : ConfirmedRequest}
    {responder : Responder} (hrequest : ∀ id, allowed (.confirmed destination id request))
    (hresponder : responder.Within allowed) :
    Sends allowed engine (engine.start destination request responder) := by
  rw [start]
  cases htake : engine.takeId? with
  | none =>
    have hworker := engine.toWorker_fail responder (.link noFreeId)
    refine .of_subset h (link_fail _ _ _) ?_ ?_ ?_ ?_ <;> simp only [hworker] <;> simp
  | some taken =>
    obtain ⟨id, worker⟩ := taken
    obtain rfl := Worker.eq_of_takeId? htake
    have hsent := Link.Passes.sendConfirmed (hrequest id) engine.link
    cases hsend : Link.sendConfirmed destination id request engine.link with
    | mk result link =>
      rw [hsend] at hsent
      have hlink : Link.Sends allowed engine.link link := .single hsent
      cases result with
      | error error =>
        simp only [hsend]
        refine ⟨?_, ?_, ?_, ?_⟩ <;> simp only [link_fail, toWorker_fail]
        · exact hlink
        · exact h.of_subset rfl (fun _ hmem => hmem) fun _ hmem => hmem
      | ok =>
        simp only [hsend]
        refine ⟨hlink, ⟨h.announcement, h.commands, fun entry hentry => ?_⟩, rfl, rfl⟩
        rcases List.mem_append.mp hentry with hentry | hentry
        · exact h.pending entry hentry
        · obtain rfl := List.mem_singleton.mp hentry
          exact hresponder

/-- A responder that gets its outcome sends what it goes on with. -/
theorem sends_complete (h : engine.Within allowed) {responder : Responder}
    (hresponder : responder.Within allowed) (outcome : Outcome) :
    Sends allowed engine (engine.complete responder outcome) := by
  cases responder with
  | ticket ticket => exact .withDesk h _
  | walk walk =>
    rcases walk.onReply_cases outcome (engine.desk.report walk.report) with
      ⟨report, hreply, -⟩ | ⟨index, rest, objects, hreply⟩
    · simp only [complete, hreply]
      exact .withDesk h _
    · simp only [complete, hreply]
      have hreported := Sends.withDesk h (engine.desk.mapReport walk.report fun _ =>
        (engine.desk.report walk.report).extend objects)
      have hfollowing : (Responder.walk { walk with remaining := rest }).Within allowed :=
        hresponder
      exact hreported.trans
        (sends_start hreported.within (fun id => hresponder id index) hfollowing)

theorem sends_release (h : engine.Within allowed) (id : InvokeId) :
    Sends allowed engine (engine.release id) :=
  .of_subset h rfl rfl rfl (fun _ hmem => hmem) fun _ hmem => List.mem_of_mem_filter hmem

theorem sends_giveUp (h : engine.Within allowed) {entry : Pending}
    (hentry : entry.responder.Within allowed) : Sends allowed engine (engine.giveUp entry) :=
  (sends_release h entry.id).trans (sends_complete (sends_release h entry.id).within hentry _)

theorem sends_expire (h : engine.Within allowed) : Sends allowed engine engine.expire := by
  rw [expire]
  have hentries : ∀ entry ∈ engine.pending.filter engine.isOverdue,
      entry.responder.Within allowed := fun entry hentry =>
    h.pending entry (List.mem_of_mem_filter hentry)
  generalize engine.pending.filter engine.isOverdue = entries at hentries
  induction entries generalizing engine with
  | nil => exact .refl h
  | cons entry rest ih =>
    have hgiven := sends_giveUp h (hentries entry List.mem_cons_self)
    exact hgiven.trans (ih hgiven.within fun other hother =>
      hentries other (List.mem_cons_of_mem _ hother))

/-! ### Indications -/

theorem sends_indicate (h : engine.Within allowed) (indication : Indication) :
    Sends allowed engine (engine.indicate indication) := by
  cases indication with
  | iAm source announcement =>
    rw [indicate, hear]
    split
    · exact .of_subset h rfl rfl rfl (fun _ hmem => hmem) fun _ hmem => hmem
    · exact .refl h
  | completion source id outcome =>
    rw [indicate, completion]
    split
    · exact .refl h
    · rename_i entry hfound
      have hentry := h.pending entry (Worker.mem_of_pending? hfound).1
      split
      · exact (sends_release h id).trans
          (sends_complete (sends_release h id).within hentry outcome)
      · exact .refl h

/-- An engine that listens takes one indication from its link. -/
theorem sends_of_listen {after : Engine σ} (h : engine.Within allowed)
    (hlisten : engine.listen = .ok after) : Sends allowed engine after := by
  have hreceived : Link.Sends allowed engine.link _ := .single (.receive engine.link)
  rcases listen_cases hlisten with ⟨link, hreceive, rfl⟩ | ⟨error, link, hreceive, rfl⟩ |
    ⟨indication, link, hreceive, rfl⟩
  all_goals rw [hreceive] at hreceived
  · exact ⟨hreceived, h, rfl, rfl⟩
  · exact ⟨hreceived, h, rfl, rfl⟩
  · have hheard : Sends allowed engine { engine with link := link } := ⟨hreceived, h, rfl, rfl⟩
    exact hheard.trans (sends_indicate hheard.within indication)

theorem sends_of_listen_error {shared : Shared σ} (hlisten : engine.listen = .error shared) :
    Link.Sends allowed engine.link shared.link := by
  have hreceived : Link.Sends allowed engine.link _ := .single (.receive engine.link)
  rw [listen] at hlisten
  cases hreceive : Link.receive engine.link with
  | mk reception link =>
    rw [hreceive] at hlisten hreceived
    cases reception with
    | broken =>
      cases hlisten
      exact hreceived
    | _ => cases hlisten

/-! ### Commands -/

theorem sends_handle (h : engine.Within allowed) {command : Command}
    (hcommand : command.Within allowed) : Sends allowed engine (engine.handle command) := by
  cases command with
  | announce => exact ⟨.single (.sendUnconfirmed h.announcement engine.link), h, rfl, rfl⟩
  | discover window destination low high =>
    exact ⟨.single (.sendUnconfirmed hcommand engine.link),
      h.of_subset rfl (fun _ hmem => hmem) fun _ hmem => hmem, rfl, rfl⟩
  | endDiscovery window => exact .of_subset h rfl rfl rfl (fun _ hmem => hmem) fun _ hmem => hmem
  | request destination request responder => exact sends_start h hcommand.1 hcommand.2
  | shutdown => exact .refl h

theorem sends_obeyAll {commands : List Command} (h : engine.Within allowed)
    (hcommands : ∀ command ∈ commands, command.Within allowed) :
    Sends allowed engine (obeyAll commands engine).2 := by
  induction commands generalizing engine with
  | nil => exact .refl h
  | cons command rest ih =>
    have hhandled := sends_handle h (hcommands command List.mem_cons_self)
    have hrest := ih hhandled.within fun other hother =>
      hcommands other (List.mem_cons_of_mem _ hother)
    cases command with
    | shutdown => exact .refl h
    | _ => exact hhandled.trans hrest

theorem sends_obey {obeyed : Engine σ} {stopped : Bool} (h : engine.Within allowed)
    (hobey : engine.obey = (stopped, obeyed)) : Sends allowed engine obeyed := by
  have hidle : Sends allowed engine { engine with commands := [] } :=
    .of_subset h rfl rfl rfl nofun fun _ hmem => hmem
  have hall := hidle.trans (sends_obeyAll hidle.within h.commands)
  have hobeyed : (obeyAll engine.commands { engine with commands := [] }).2 = obeyed :=
    congrArg Prod.snd hobey
  rwa [hobeyed] at hall

/-! ### Turns -/

/-- What a turn does: the engine carries out commands and stops, or listens besides. -/
theorem turn_cases (engine : Engine σ) :
    (∃ obeyed, engine.obey = (true, obeyed) ∧ engine.turn = .stopped obeyed.stop) ∨
      ∃ obeyed, engine.obey = (false, obeyed) ∧
        ((∃ heard, obeyed.listen = .ok heard ∧ engine.turn = .running heard.expire) ∨
          ∃ shared, obeyed.listen = .error shared ∧ engine.turn = .crashed shared) := by
  rw [turn]
  cases hobey : engine.obey with
  | mk stopped obeyed =>
    cases stopped with
    | true => exact .inl ⟨obeyed, rfl, rfl⟩
    | false =>
      cases hlisten : obeyed.listen with
      | ok heard => exact .inr ⟨obeyed, rfl, .inl ⟨heard, hlisten, by simp only [hlisten]⟩⟩
      | error shared => exact .inr ⟨obeyed, rfl, .inr ⟨shared, hlisten, by simp only [hlisten]⟩⟩

/-- What an engine leaves that has sent allowed messages only.  One that stops leaves the segment at
its end. -/
inductive Leaves (allowed : Message → Prop) (engine : Engine σ) : Turn σ → Prop
  | running {after : Engine σ} (h : Sends allowed engine after) :
      Leaves allowed engine (.running after)
  | stopped {last : σ} {shared : Shared σ} (h : Link.Sends allowed engine.link last)
      (hlink : shared.link = Link.disconnect last) : Leaves allowed engine (.stopped shared)
  | crashed {shared : Shared σ} (h : Link.Sends allowed engine.link shared.link) :
      Leaves allowed engine (.crashed shared)

theorem link_stop (engine : Engine σ) : engine.stop.link = Link.disconnect engine.link := by
  rw [stop, link_foldl_cancel]

/-- **An engine whose messages are allowed sends no others.** -/
theorem leaves_turn (h : engine.Within allowed) : engine.Leaves allowed engine.turn := by
  rcases engine.turn_cases with ⟨obeyed, hobey, hturn⟩ |
    ⟨obeyed, hobey, ⟨heard, hlisten, hturn⟩ | ⟨shared, hlisten, hturn⟩⟩
  all_goals
    rw [hturn]
    have hobeyed := sends_obey h hobey
  · exact .stopped hobeyed.link obeyed.link_stop
  · have hheard := hobeyed.trans (sends_of_listen hobeyed.within hlisten)
    exact .running (hheard.trans (sends_expire hheard.within))
  · exact .crashed (hobeyed.link.trans (sends_of_listen_error hlisten))

end Engine

end Fieldbus
