import Fieldbus.Proofs.Session.Heard
import Fieldbus.Proofs.Session.Ownership

/-!
# Discoveries under way

A discovery is followed through a scene.  At every moment its window holds what was heard since the
opening, the part that its caller has taken as fetched and the rest as waiting, and the engine knows
of the window the command that opens it, or lists it once, or knows nothing of it any more.  Other
callers do nothing about it, and the engine adds what it hears.

## Main definitions

* `Scene.Phase`: what the engine knows of the window of a discovery under way.
* `Scene.Discovers`: a discovery under way.
* `Scene.hasRoom`: whether a window has room for one more record.

## Main results

* `Scene.Discovers.of_caller`, `Scene.Discovers.work`: what others do, and the engine, leaves a
  discovery under way.
* `Scene.Discovers.of_attend`: so does its own caller, unless it stops.
-/

namespace Fieldbus.Scene

variable {σ : Type} [Link σ]

/-- What the engine knows of the window of a discovery under way. -/
inductive Phase (number : Nat) (window : WindowId) (trace : List (Point σ)) : Ear → Prop
  /-- The command that opens the window waits. -/
  | asked {command : Command} (hopens : command.opens window = true)
      (hsince : sinceOpening number trace = []) (halive : ∀ point ∈ trace, point.ends = false) :
      Phase number window trace ⟨[command], 0⟩
  /-- The window is listed. -/
  | listed (hsince : sinceOpening number trace ≠ [])
      (halive : ∀ point ∈ trace, point.ends = false) : Phase number window trace ⟨[], 1⟩
  /-- The engine is gone. -/
  | gone (hsince : sinceOpening number trace = [] ∨
      ∃ point ∈ sinceOpening number trace, point.ends = true) : Phase number window trace .deaf

namespace Phase

variable {number : Nat} {window : WindowId} {trace : List (Point σ)} {point : Point σ} {ear : Ear}

omit [Link σ] in
theorem forall_concat {P : Point σ → Prop} (hall : ∀ earlier ∈ trace, P earlier) (hlast : P point) :
    ∀ earlier ∈ trace ++ [point], P earlier := fun earlier hmem => by
  rcases List.mem_append.mp hmem with hold | hnew
  · exact hall earlier hold
  · rwa [List.mem_singleton.mp hnew]

theorem gone_of_ends (hopens : point.opens number = false) (hends : point.ends = true) :
    Phase number window (trace ++ [point]) .deaf := by
  by_cases hsince : sinceOpening number trace = []
  · exact .gone (.inl (sinceOpening_concat_of_closed hsince hopens))
  · refine .gone (.inr ⟨point, ?_, hends⟩)
    rw [sinceOpening_concat_of_ne_nil hsince]
    exact List.mem_append_right _ (List.mem_singleton_self point)

/-- Nothing is done about the window. -/
theorem concat (h : Phase number window trace ear) (hopens : point.opens number = false)
    (hends : point.ends = false) : Phase number window (trace ++ [point]) ear := by
  cases h with
  | asked hcommand hsince halive =>
    have hclosed := sinceOpening_concat_of_closed hsince hopens
    exact .asked hcommand hclosed (forall_concat halive hends)
  | listed hsince halive =>
    refine .listed ?_ (forall_concat halive hends)
    rw [sinceOpening_concat_of_ne_nil hsince]
    exact List.append_ne_nil_of_left_ne_nil hsince _
  | gone hsince =>
    refine .gone (hsince.imp (sinceOpening_concat_of_closed · hopens) ?_)
    rintro ⟨earlier, hmem, hended⟩
    rw [sinceOpening_concat_of_ne_nil (List.ne_nil_of_mem hmem)]
    exact ⟨earlier, List.mem_append_left _ hmem, hended⟩

end Phase

/-- A discovery under way, whose caller waits for a record or not: its window is its own, and holds
what was heard since the opening, the part that the caller has taken as fetched and the rest as
waiting. -/
structure Discovers (scene : Scene σ) (number : Nat) (discovery : Discovery) (waits : Bool)
    (trace : List (Point σ)) : Prop where
  call : scene.calls[number]? = some (.discover discovery waits)
  alone : ∀ other call, scene.calls[other]? = some call →
    call.window? = some discovery.window → other = number
  window : ∃ capacity waiting, scene.session.desk.window? discovery.window =
      some ⟨capacity, waiting, taken number trace, true⟩ ∧
    taken number trace ++ waiting = heardSince number trace
  phase : Phase number discovery.window trace (scene.session.ear discovery.window)

/-- Whether there is room for one more record in the window of a call. -/
def hasRoom (scene : Scene σ) (number : Nat) : Bool :=
  ((scene.calls[number]?.bind Call.window?).bind scene.session.desk.window?).all fun window =>
    window.waiting.length < window.capacity

namespace Discovers

variable {scene next : Scene σ} {number : Nat} {discovery : Discovery} {waits : Bool}
  {trace : List (Point σ)} {point : Point σ}

theorem known (h : scene.Discovers number discovery waits trace) :
    discovery.window < scene.session.desk.windows.length := by
  obtain ⟨capacity, waiting, hwindow, -⟩ := h.window
  exact (List.getElem?_eq_some_iff.mp hwindow).1

theorem isWanted (h : scene.Discovers number discovery waits trace) :
    scene.session.desk.isWanted discovery.window = true := by
  obtain ⟨capacity, waiting, hwindow, -⟩ := h.window
  rw [Desk.isWanted, hwindow]
  rfl

/-- A moment that leaves the window as it is, and in which no device is heard for it. -/
theorem concat (h : scene.Discovers number discovery waits trace)
    (hcalls : next.calls[number]? = scene.calls[number]?)
    (halone : ∀ other call, next.calls[other]? = some call →
      call.window? = some discovery.window → other = number)
    (hwindow : next.session.desk.window? discovery.window =
      scene.session.desk.window? discovery.window)
    (htaken : point.taken? number = none)
    (hheard : heardSince number (trace ++ [point]) = heardSince number trace)
    (hphase : Phase number discovery.window (trace ++ [point])
      (next.session.ear discovery.window)) :
    next.Discovers number discovery waits (trace ++ [point]) where
  call := hcalls.trans h.call
  alone := halone
  window := by
    rw [hwindow, taken_concat_of_eq_none htaken, hheard]
    exact h.window
  phase := hphase

/-- What other callers do leaves a discovery as it is. -/
theorem of_caller (h : scene.Discovers number discovery waits trace) {moment : Moment}
    (hwork : ∀ work, moment ≠ .work work) (hattend : moment ≠ .attend number) :
    (scene.proceed moment).Discovers number discovery waits (trace ++ [⟨scene, moment⟩]) := by
  have hspares := scene.sparesBut_proceed hwork
  have hown : scene.own? moment ≠ some discovery.window := by
    intro heq
    cases moment with
    | begin operation => exact h.known.ne (Session.window?_beginCall heq).1
    | attend other =>
      obtain ⟨call, hcall, hwindow⟩ := Option.bind_eq_some_iff.mp heq
      exact hattend (congrArg Moment.attend (h.alone other call hcall hwindow))
    | _ => cases heq
  have hcalls := (calls_proceed_of_ne h.call hattend).trans h.call.symm
  refine h.concat hcalls (fun other call hcall hwindow => ?_) (hspares.window _ hown)
    (taken?_of_ne hattend) (heardSince_concat_of_silent (device?_of_caller hwork)) ?_
  · rcases window?_of_calls_proceed hcall hwindow with ⟨old, hold, heq⟩ | ⟨-, hnew, -⟩
    · exact h.alone other old hold heq
    · exact absurd hnew h.known.ne
  · rw [hspares.ear _ hown]
    exact h.phase.concat (opens_of_caller hwork number) (ends_of_caller hwork)

theorem mayHear_of_ended (h : scene.Discovers number discovery waits trace)
    (hended : ∃ point ∈ trace, point.ends = true) :
    scene.session.mayHear discovery = false := by
  obtain ⟨point, hmem, hends⟩ := hended
  refine Session.mayHear_of_deaf ?_
  have hphase := h.phase
  generalize scene.session.ear discovery.window = ear at hphase
  cases hphase with
  | asked _ _ hlives => exact absurd hends (by rw [hlives point hmem]; nofun)
  | listed _ hlives => exact absurd hends (by rw [hlives point hmem]; nofun)
  | gone => rfl

/-- The engine hears of a device, and delivers its record to the window if the window is listed. -/
theorem of_hears (h : scene.Discovers number discovery waits trace) {engine after : Engine σ}
    {record : DeviceRecord} (halive : scene.session.alive? = some engine)
    (hannounced : engine.announced? = some record) (hlisten : engine.listen = .ok after)
    (hnext : next.session = scene.session.settle (.running after))
    (hcalls : next.calls = scene.calls) (hopens : point.opens number = false)
    (hends : point.ends = false) (htaken : point.taken? number = none)
    (hdevice : point.device? = some record) (hroom : scene.hasRoom number = true) :
    next.Discovers number discovery waits (trace ++ [point]) := by
  have hdesk := Session.desk_of_alive? halive
  have hwanted : engine.desk.isWanted discovery.window = true := hdesk ▸ h.isWanted
  have hear : next.session.ear discovery.window = scene.session.ear discovery.window := by
    rw [hnext, Session.ear_settle_running halive, Session.ear_of_alive? halive,
      Engine.ear_listen_of_wanted hlisten hannounced hwanted]
  have hdelivered := Engine.window?_listen_of_wanted hlisten hannounced hwanted
  rw [← Session.ear_of_alive? halive, hdesk] at hdelivered
  have hwindow : next.session.desk.window? discovery.window =
      after.desk.window? discovery.window := by
    rw [hnext, Session.desk_settle_running]
  obtain ⟨capacity, waiting, hfound, hheard⟩ := h.window
  have hphase := h.phase.concat hopens hends
  refine ⟨hcalls ▸ h.call, hcalls ▸ h.alone, ?_, hear ▸ hphase⟩
  rw [hwindow, hdelivered, taken_concat_of_eq_none htaken]
  have hspace : waiting.length < capacity := by
    rw [hasRoom, h.call] at hroom
    simpa [Call.window?, hfound] using hroom
  have hphase := h.phase
  generalize scene.session.ear discovery.window = ear at hphase
  cases hphase with
  | asked _ hsince =>
    rw [heardSince_concat_of_closed hsince hopens, hfound]
    exact ⟨capacity, waiting, rfl, hheard⟩
  | listed hsince hlives =>
    have hmore : heardSince number (trace ++ [point]) = heardSince number trace ++ [record] := by
      rw [heardSince_concat_of_alive hsince fun earlier hmem =>
        hlives earlier ((List.dropWhile_sublist _).mem hmem), hends, hdevice]
      rfl
    rw [hmore, hfound, ← hheard]
    refine ⟨capacity, waiting ++ [record], ?_, (List.append_assoc ..).symm⟩
    simp [Window.deliver, hspace]
  | gone hsince =>
    have hnothing : heardSince number (trace ++ [point]) = heardSince number trace := by
      rcases hsince with hnone | hended
      · exact heardSince_concat_of_closed hnone hopens
      · exact heardSince_concat_of_over hended
    rw [hnothing, hfound]
    exact ⟨capacity, waiting, rfl, hheard⟩

/-- The engine carries out a command; if it is the one that opens the window, the window is listed
from now on. -/
theorem of_obeys (h : scene.Discovers number discovery waits trace) {engine : Engine σ}
    {command : Command} {rest : List Command} (halive : scene.session.alive? = some engine)
    (hqueue : engine.commands = command :: rest)
    (hnext : next.session = scene.session.settle
      (.running (Engine.handle { engine with commands := rest } command)))
    (hcalls : next.calls = scene.calls)
    (hopens : point.opens number = command.opens discovery.window) (hends : point.ends = false)
    (htaken : point.taken? number = none) (hdevice : point.device? = none) :
    next.Discovers number discovery waits (trace ++ [point]) := by
  have hwindow : next.session.desk.window? discovery.window =
      scene.session.desk.window? discovery.window := by
    rw [hnext, Session.desk_settle_running, Desk.window?, Engine.windows_handle,
      Desk.window?, ← Session.desk_of_alive? halive]
  refine h.concat (by rw [hcalls]) (hcalls ▸ h.alone) hwindow htaken
    (heardSince_concat_of_silent hdevice) ?_
  rw [hnext, Session.ear_settle_running halive]
  have hphase := h.phase
  rw [Session.ear_of_alive? halive] at hphase
  by_cases habout : command.window? = some discovery.window
  · have hwaits : (engine.ear discovery.window).commands =
        command :: rest.filter fun command => command.window? = some discovery.window := by
      simp only [Worker.ear, hqueue]
      rw [List.filter_cons_of_pos (by simpa using habout)]
    generalize hear : engine.ear discovery.window = ear at hphase hwaits
    cases hphase with
    | @asked asked hcommand hsince hlives =>
      obtain ⟨rfl, hrest⟩ := List.cons.inj hwaits
      obtain ⟨-, hcount⟩ := Ear.mk.inj hear
      have hlisted : (Engine.handle { engine with commands := rest } asked).ear
          discovery.window = ⟨[], 1⟩ := by
        cases asked with
        | discover id destination low high =>
          obtain rfl : id = discovery.window := of_decide_eq_true hcommand
          have hcounted : (engine.listeners ++ [discovery.window]).count discovery.window = 1 := by
            rw [List.count_append, hcount, List.count_singleton_self]
          exact Ear.mk.injEq .. ▸ ⟨hrest.symm, hcounted⟩
        | _ => cases hcommand
      rw [hlisted]
      refine .listed ?_ (Phase.forall_concat hlives hends)
      rw [sinceOpening_concat_of_nil hsince, hopens, hcommand]
      exact List.cons_ne_nil _ _
    | listed => cases hwaits
    | gone => cases hwaits
  · rw [Engine.ear_handle_of_ne hqueue habout]
    refine hphase.concat ?_ hends
    rw [hopens]
    exact Bool.eq_false_iff.mpr fun hopened => habout (Command.window?_of_opens hopened)

/-- **Whatever the engine does, a discovery stays under way**, as long as there is room in its
window for every record that comes. -/
theorem work (h : scene.Discovers number discovery waits trace) (work : Work)
    (hroom : (Point.device? ⟨scene, .work work⟩).isSome = true → scene.hasRoom number = true) :
    (scene.proceed (.work work)).Discovers number discovery waits
      (trace ++ [⟨scene, .work work⟩]) := by
  have htaken : Point.taken? number ⟨scene, .work work⟩ = none := taken?_of_ne nofun
  have hcalls : (scene.proceed (.work work)).calls = scene.calls := rfl
  have hopens : Point.opens number ⟨scene, .work work⟩ =
      (decide (work = .obey) && scene.session.alive?.any fun engine =>
        engine.commands.head?.any (Command.opens discovery.window)) := by
    rw [Point.opens, h.call]
    cases work <;> rfl
  have hdevice : Point.device? ⟨scene, .work work⟩ =
      if work = .listen then scene.session.alive?.bind Engine.announced? else none := by
    cases work <;> rfl
  have hends : Point.ends ⟨scene, .work work⟩ =
      scene.session.alive?.any fun engine => (engine.work work).isOver := rfl
  cases halive : scene.session.alive? with
  | none =>
    have hsame : (scene.proceed (.work work)).session = scene.session := by
      rw [proceed, Session.work, halive]
    rw [halive] at hopens hdevice hends
    refine h.concat (by rw [hcalls]) h.alone (by rw [hsame]) htaken
      (heardSince_concat_of_silent (by rw [hdevice]; split <;> rfl)) ?_
    rw [hsame]
    exact h.phase.concat (hopens.trans (Bool.and_false _)) hends
  | some engine =>
    have hnext : (scene.proceed (.work work)).session =
        scene.session.settle (engine.work work) := Session.work_of_alive? halive work
    have hdesk := Session.desk_of_alive? halive
    rw [halive] at hopens hdevice hends
    rw [Option.any_some] at hopens hends
    rw [Option.bind_some] at hdevice
    have hsilent (hlisten : work = .listen → engine.announced? = none) :
        heardSince number (trace ++ [⟨scene, .work work⟩]) = heardSince number trace := by
      refine heardSince_concat_of_silent (hdevice.trans ?_)
      split
      · exact hlisten ‹_›
      · rfl
    have haffects := engine.affects_work work
    generalize engine.work work = turn at hnext hends haffects
    cases haffects with
    | keeps hkeeps hobey hlisten =>
      have hclosed : Point.opens number ⟨scene, .work work⟩ = false := by
        rw [hopens]
        by_cases hwork : work = .obey
        · rw [hobey hwork]
          exact Bool.and_false _
        · rw [decide_eq_false hwork]
          rfl
      refine h.concat (by rw [hcalls]) h.alone ?_ htaken (hsilent hlisten) ?_
      · rw [hnext, Session.desk_settle_running, Desk.window?, hkeeps.windows, hdesk]
        rfl
      · rw [hnext, Session.ear_settle_running halive, hkeeps.ear_eq, ← Session.ear_of_alive? halive]
        exact h.phase.concat hclosed hends
    | obeys hqueue =>
      rw [hqueue] at hopens
      exact h.of_obeys halive hqueue hnext hcalls hopens hends htaken hdevice
    | hears hannounced hlisten =>
      have hrecord := hdevice.trans hannounced
      refine h.of_hears halive hannounced hlisten hnext hcalls hopens hends htaken hrecord ?_
      exact hroom (by rw [hrecord]; rfl)
    | stops hqueue hwindows =>
      have hclosed : Point.opens number ⟨scene, .work .obey⟩ = false := by
        rw [hopens, hqueue]
        rfl
      refine h.concat (by rw [hcalls]) h.alone ?_ htaken (heardSince_concat_of_silent hdevice) ?_
      · rw [hnext, Session.desk_settle_stopped, Desk.window?, hwindows, hdesk]
        rfl
      · rw [hnext, Session.ear_settle_stopped]
        exact Phase.gone_of_ends hclosed hends
    | crashes hne hlisten hwindows =>
      have hclosed : Point.opens number ⟨scene, .work work⟩ = false := by
        rw [hopens, decide_eq_false hne]
        rfl
      refine h.concat (by rw [hcalls]) h.alone ?_ htaken (hsilent hlisten) ?_
      · rw [hnext, Session.desk_settle_crashed, Desk.window?, hwindows, hdesk]
        rfl
      · rw [hnext, Session.ear_settle_crashed]
        exact Phase.gone_of_ends hclosed hends

theorem taken_prefix_heardSince (h : scene.Discovers number discovery waits trace) :
    taken number trace <+: heardSince number trace := by
  obtain ⟨capacity, waiting, -, hheard⟩ := h.window
  exact ⟨waiting, hheard⟩

theorem found_eq (h : scene.Discovers number discovery waits trace) :
    scene.session.found discovery = latestRecords (taken number trace) := by
  obtain ⟨capacity, waiting, hwindow, -⟩ := h.window
  rw [Session.found, hwindow]
  rfl

/-- Its caller attends to a discovery, which goes on. -/
theorem of_attend (h : scene.Discovers number discovery waits trace) {after : Session σ}
    {still : Bool}
    (hproceed : scene.proceed (.attend number) =
      ⟨after, scene.calls.set number (.discover discovery still)⟩)
    (hwindow : ∃ capacity waiting, after.desk.window? discovery.window =
        some ⟨capacity, waiting, taken number (trace ++ [⟨scene, .attend number⟩]), true⟩ ∧
      taken number (trace ++ [⟨scene, .attend number⟩]) ++ waiting = heardSince number trace)
    (hear : after.ear discovery.window = scene.session.ear discovery.window) :
    (scene.proceed (.attend number)).Discovers number discovery still
      (trace ++ [⟨scene, .attend number⟩]) := by
  have hlt : number < scene.calls.length := (List.getElem?_eq_some_iff.mp h.call).1
  have hcaller : ∀ work, Moment.attend number ≠ .work work := nofun
  rw [hproceed]
  refine ⟨List.getElem?_set_self hlt, fun other call hcall hcallWindow => ?_, ?_, ?_⟩
  · by_cases hsame : number = other
    · exact hsame.symm
    · rw [List.getElem?_set_ne hsame] at hcall
      exact h.alone other call hcall hcallWindow
  · rw [heardSince_concat_of_silent (device?_of_caller hcaller)]
    exact hwindow
  · rw [hear]
    exact h.phase.concat (opens_of_caller hcaller number) (ends_of_caller hcaller)

/-- Its caller looks at the clock, or waits on. -/
theorem of_attend_of_nothing (h : scene.Discovers number discovery waits trace) {still : Bool}
    (hnothing : Point.taken? number ⟨scene, .attend number⟩ = none)
    (hproceed : scene.proceed (.attend number) =
      ⟨scene.session, scene.calls.set number (.discover discovery still)⟩) :
    (scene.proceed (.attend number)).Discovers number discovery still
      (trace ++ [⟨scene, .attend number⟩]) := by
  refine h.of_attend hproceed ?_ rfl
  rw [taken_concat_of_eq_none hnothing]
  exact h.window

end Discovers

end Fieldbus.Scene
