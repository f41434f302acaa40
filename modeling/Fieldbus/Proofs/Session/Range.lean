import Fieldbus.Proofs.Session.Traffic
import Fieldbus.Proofs.Session.Windows
import Fieldbus.Simulation.Segment

/-!
# The range of a Who-Is

The caller of a discovery may say which devices it means by a least and a greatest number, and may
leave out either.  A Who-Is carries both limits or none, and no limit beyond the greatest instance
number, so a missing one is filled in and a large one is cut.  Filled in or cut, the range has the
devices that the caller means.  Only a least number that is no instance number itself is met by no
device at all, and there the range still has the device with the greatest one.

## Main definitions

* `WithinLimits`: the devices between two limits.
* `Covers`: the limits of a Who-Is for what a caller means.
* `Message.Sought`: a Who-Is that a caller asked for.

## Main results

* `covers_instanceRange`: how the limits of a caller are filled in and cut.
* `Scene.exists_log_of_discovery`: the Who-Is of a discovery comes to the link.
* `Scene.range_of_discovery`: what is asked of the devices, over any life of a session.
-/

namespace Fieldbus

/-! ### Limits -/

/-- A device is within limits, of which either may be missing. -/
def WithinLimits (low high : Option UInt32) (device : UInt32) : Prop :=
  (∀ limit ∈ low, limit ≤ device) ∧ ∀ limit ∈ high, device ≤ limit

instance (low high : Option UInt32) (device : UInt32) : Decidable (WithinLimits low high device) :=
  decidable_of_iff (low.all (· ≤ device) = true ∧ high.all (device ≤ ·) = true) <| by
    cases low <;> cases high <;> simp [WithinLimits]

/-- The limits of a Who-Is for a caller that means the devices from `low` to `high`: there are both
or none, and a device is within them if the caller means it, or if it is the last that there can be
and the caller means none below a limit still beyond. -/
structure Covers (low high lowest highest : Option UInt32) : Prop where
  isSome_eq : lowest.isSome = highest.isSome
  within_iff : ∀ device ≤ maxInstance, WithinLimits lowest highest device ↔
    WithinLimits low high device ∨
      device = maxInstance ∧ (∃ limit ∈ low, maxInstance < limit) ∧ WithinLimits none high device

section Limits

variable {limit device : UInt32}

theorem min_maxInstance_le_iff (h : device ≤ maxInstance) :
    min limit maxInstance ≤ device ↔
      limit ≤ device ∨ device = maxInstance ∧ maxInstance < limit := by
  change (if limit ≤ maxInstance then limit else maxInstance) ≤ device ↔ _
  split
  · rename_i hlimit
    exact ⟨.inl, fun hor => hor.resolve_right fun hlarge => UInt32.not_lt.mpr hlimit hlarge.2⟩
  · rename_i hlimit
    have hlarge : maxInstance < limit := UInt32.not_le.mp hlimit
    constructor
    · exact fun hlast => .inr ⟨UInt32.le_antisymm h hlast, hlarge⟩
    · rintro (hwithin | ⟨rfl, -⟩)
      · exact absurd (UInt32.le_trans hwithin h) hlimit
      · exact UInt32.le_refl _

theorem le_min_maxInstance_iff (h : device ≤ maxInstance) :
    device ≤ min limit maxInstance ↔ device ≤ limit := by
  change device ≤ (if limit ≤ maxInstance then limit else maxInstance) ↔ _
  split
  · exact Iff.rfl
  · rename_i hlimit
    exact iff_of_true h (UInt32.le_trans h (UInt32.le_of_lt (UInt32.not_le.mp hlimit)))

theorem le_min_getD_iff (high : Option UInt32) (h : device ≤ maxInstance) :
    device ≤ min (high.getD maxInstance) maxInstance ↔ WithinLimits none high device := by
  rw [le_min_maxInstance_iff h]
  cases high <;> simp [WithinLimits, h]

theorem min_getD_le_iff (low : Option UInt32) (h : device ≤ maxInstance) :
    min (low.getD 0) maxInstance ≤ device ↔
      WithinLimits low none device ∨ device = maxInstance ∧ ∃ limit ∈ low, maxInstance < limit := by
  rw [min_maxInstance_le_iff h]
  cases low <;> simp [WithinLimits]

end Limits

/-- **A range has the devices that are meant.** -/
theorem covers_instanceRange (low high : Option UInt32) :
    Covers low high (instanceRange low high).1 (instanceRange low high).2 := by
  have hgiven : Covers low high (some (min (low.getD 0) maxInstance))
      (some (min (high.getD maxInstance) maxInstance)) := by
    refine ⟨rfl, fun device hdevice => ?_⟩
    have hwithin : WithinLimits (some (min (low.getD 0) maxInstance))
        (some (min (high.getD maxInstance) maxInstance)) device ↔
          min (low.getD 0) maxInstance ≤ device ∧
            device ≤ min (high.getD maxInstance) maxInstance := by
      simp [WithinLimits]
    rw [hwithin, min_getD_le_iff low hdevice, le_min_getD_iff high hdevice]
    simp only [WithinLimits, Option.not_mem_none, false_imp_iff, implies_true, and_true, true_and]
    tauto
  cases low with
  | none =>
    cases high with
    | none => exact ⟨rfl, fun device _ => by simp [instanceRange]⟩
    | some highest => exact hgiven
  | some lowest => exact hgiven

/-! ### What comes to the link -/

/-- A Who-Is is one that the caller of a discovery has asked for. -/
def Message.Sought (history : List Moment) : Message → Prop
  | .unconfirmed destination (.whoIs lowest highest) =>
    ∃ timeout station low high, .begin (.discover timeout station low high) ∈ history ∧
      destination = whoIsDestination station ∧ Covers low high lowest highest
  | .unconfirmed _ (.iAm _) | .confirmed _ _ _ => True

/-- A command that waits behind others is carried out last, unless a shutdown is among them. -/
theorem Engine.exists_workAll_obey {σ : Type} [Link σ] {earlier : List Command} {command : Command}
    (h : .shutdown ∉ earlier) (hcommand : command ≠ .shutdown) {engine : Engine σ}
    (hqueue : engine.commands = earlier ++ [command]) :
    ∃ before : Engine σ, engine.workAll (List.replicate (earlier.length + 1) .obey) =
      .running (before.handle command) := by
  induction earlier generalizing engine with
  | nil =>
    refine ⟨{ engine with commands := [] }, ?_⟩
    change engine.workAll [.obey] = _
    rw [workAll, work_obey_of_ne hqueue hcommand]
    rfl
  | cons first rest ih =>
    obtain ⟨hfirst, hrest⟩ := not_or.mp (List.mem_cons.not.mp h)
    rw [List.length_cons, List.replicate_succ, workAll, work_obey_of_ne hqueue (Ne.symm hfirst)]
    exact ih hrest (commands_handle _ _)

namespace Scene

variable {σ : Type} [Link σ]

/-- Every Who-Is is asked for. -/
theorem licenses_sought : Licenses Message.Sought where
  concat {history message} h moment := by
    cases message with
    | confirmed destination id request => trivial
    | unconfirmed destination request =>
      cases request with
      | iAm announcement => trivial
      | whoIs lowest highest =>
        obtain ⟨timeout, station, low, high, hbegin, hasked⟩ := h
        exact ⟨timeout, station, low, high, List.mem_append_left _ hbegin, hasked⟩
  announces _ := trivial
  demands hbegin hdemands := by
    cases hdemands with
    | read | write => exact ⟨fun _ => trivial, trivial⟩
    | enumerate => exact ⟨fun _ => trivial, fun _ _ => trivial⟩
    | discover timeout station low high =>
      exact ⟨timeout, station, low, high, hbegin, rfl, covers_instanceRange low high⟩

/-- A discovery that begins leaves its command behind all others that wait. -/
theorem exists_alive?_begin_discover {scene : Scene σ} {engine : Engine σ}
    (halive : scene.session.alive? = some engine) (timeout : Nat) (station : Option Mac)
    (low high : Option UInt32) :
    ∃ asked window,
      (scene.proceed (.begin (.discover timeout station low high))).session.alive? = some asked ∧
        asked.commands = engine.commands ++
          [.discover window (whoIsDestination station) (instanceRange low high).1
            (instanceRange low high).2] := by
  obtain ⟨worker, hworker, rfl⟩ := Option.map_eq_some_iff.mp halive
  obtain ⟨run, hrun, hruns⟩ := Session.exists_running_of_worker? hworker
  rcases scene.session.beginCall_discover_cases timeout station low high with
    ⟨hnone, -⟩ | ⟨-, hdead, -⟩ | ⟨run', worker', _, _, _, hrun', hruns', hbegin, hrange⟩
  · rw [Session.run?, hrun] at hnone
    cases hnone
  · cases hdead.symm.trans hworker
  · obtain rfl : run = run' := Lifecycle.running.inj (hrun.symm.trans hrun')
    obtain rfl : worker = worker' := Option.some.inj (hruns.symm.trans hruns')
    rw [proceed, hbegin, ← hrange]
    exact ⟨_, _, rfl, rfl⟩

/-- What a discovery asks of the devices comes to the link, once the commands that wait before it
have been carried out. -/
theorem exists_log_of_discovery {scene : Scene (Tapped σ)} {engine : Engine (Tapped σ)}
    (halive : scene.session.alive? = some engine) (hshutdown : .shutdown ∉ engine.commands)
    (timeout : Nat) (station : Option Mac) (low high : Option UInt32) :
    ∃ earlier, ((scene.proceed (.begin (.discover timeout station low high))).after
        (List.replicate (engine.commands.length + 1) (.work .obey))).session.link.log =
      earlier ++ [.sent (.unconfirmed (whoIsDestination station)
        (.whoIs (instanceRange low high).1 (instanceRange low high).2))] := by
  obtain ⟨asked, window, hasked, hcommands⟩ :=
    exists_alive?_begin_discover halive timeout station low high
  obtain ⟨before, hobeys⟩ := Engine.exists_workAll_obey hshutdown (by rintro ⟨⟩) hcommands
  rw [← List.map_replicate, after_works, Session.foldl_work_of_alive? hasked, hobeys]
  obtain ⟨shared, holdsLink, lifecycle⟩ := (scene.proceed _).session
  cases lifecycle <;> exact ⟨before.link.log, rfl⟩

/-- **A Who-Is asks for the devices that the caller means.**  Whatever happens to a session, over
whatever link, every Who-Is that is handed to the link comes from a discovery that a caller has
begun: it goes where the caller wants it, and its limits are those for the devices that the caller
means.  If an engine is alive and no shutdown waits, the next discovery is asked for so, once the
commands that wait have been carried out.  To listen in on the link makes no difference. -/
theorem range_of_discovery (link : σ) (history : List Moment) :
    let scene := (onLink (⟨link, []⟩ : Tapped σ)).after history
    scene.mapLink Tapped.link = (onLink link).after history ∧
    (∀ destination lowest highest,
      .sent (.unconfirmed destination (.whoIs lowest highest)) ∈ scene.session.link.log →
      ∃ timeout station low high, .begin (.discover timeout station low high) ∈ history ∧
        destination = whoIsDestination station ∧ Covers low high lowest highest) ∧
    ∀ engine, scene.session.alive? = some engine → .shutdown ∉ engine.commands →
      ∀ timeout station low high, ∃ earlier lowest highest,
        ((scene.proceed (.begin (.discover timeout station low high))).after
            (List.replicate (engine.commands.length + 1) (.work .obey))).session.link.log =
          earlier ++ [.sent (.unconfirmed (whoIsDestination station) (.whoIs lowest highest))] ∧
        Covers low high lowest highest := by
  intro scene
  refine ⟨(mapLink_after Tapped.isView_link _ history).symm, fun destination lowest highest => ?_,
    fun engine halive hshutdown timeout station low high => ?_⟩
  · exact (licenses_sought.keeps_after link history).sent _
  · obtain ⟨earlier, hlog⟩ := exists_log_of_discovery halive hshutdown timeout station low high
    exact ⟨earlier, _, _, hlog, covers_instanceRange low high⟩

/-- A session where a caller means the devices up to a number beyond the last, and another one those
from 8 on. -/
theorem range_of_discovery_half_open :
    let history : List Moment := [.start (.forStation 1 "/dev/ttyS1"),
      .begin (.discover 100 none none (some 4294967295)), .work .obey, .announce]
    let scene := (onLink (⟨{}, []⟩ : Tapped Simulation.Segment)).after history
    Covers none (some 4294967295) (some 0) (some maxInstance) ∧
      ∃ earlier lowest highest,
        ((scene.proceed (.begin (.discover 50 (some 4) (some 8) none))).after
            [.work .obey, .work .obey]).session.link.log =
          earlier ++ [.sent (.unconfirmed (.station 4) (.whoIs lowest highest))] ∧
        Covers (some 8) none lowest highest := by
  intro history scene
  obtain ⟨-, hsought, hasks⟩ := range_of_discovery ({} : Simulation.Segment) history
  have hsent : .sent (.unconfirmed .broadcast (.whoIs (some 0) (some maxInstance))) ∈
      scene.session.link.log := by decide +kernel
  obtain ⟨timeout, station, low, high, hbegin, -, hcovers⟩ := hsought _ _ _ hsent
  obtain ⟨-, -, rfl, rfl⟩ :
      timeout = 100 ∧ station = none ∧ low = none ∧ high = some 4294967295 := by
    simpa [history] using hbegin
  have hwaits : scene.session.alive?.map (·.commands) = some [.announce] := by decide +kernel
  obtain ⟨engine, halive, hcommands⟩ := Option.map_eq_some_iff.mp hwaits
  obtain ⟨earlier, lowest, highest, hlog, hcovers'⟩ :=
    hasks engine halive (by rw [hcommands]; decide) 50 (some 4) (some 8) none
  rw [hcommands] at hlog
  exact ⟨hcovers, earlier, lowest, highest, hlog, hcovers'⟩

/-- A segment whose one device has the greatest instance number. -/
def lastDevice : Simulation.Segment where
  stations := [{ mac := 4, device := maxInstance, objects := [] }]

/-- A caller that means no device, only numbers beyond the last, is told of the last device. -/
theorem last_device_found :
    let scene := (onLink (⟨lastDevice, []⟩ : Tapped Simulation.Segment)).after
      [.start (.forStation 1 "/dev/ttyS1"), .begin (.discover 100 none (some 4194304) none),
        .work .obey, .work .listen, .attend 0, .attend 0, .pass 100, .attend 0]
    (∀ device ≤ maxInstance, ¬WithinLimits (some 4194304) none device) ∧
      .sent (.unconfirmed .broadcast (.whoIs (some maxInstance) (some maxInstance))) ∈
        scene.session.link.log ∧
      WithinLimits (some maxInstance) (some maxInstance) maxInstance ∧
      scene.calls[0]? = some (.answered (.devices (.ok
        [Engine.recordOf (some 4) (Simulation.Station.announcementOf maxInstance)]))) := by
  intro scene
  refine ⟨fun device hdevice hwithin => ?_, by decide +kernel, by decide,
    calls_of_devices? (by decide +kernel)⟩
  have hbeyond : maxInstance < 4194304 := by decide
  exact UInt32.not_le.mpr hbeyond (UInt32.le_trans (hwithin.1 _ rfl) hdevice)

end Scene

end Fieldbus
