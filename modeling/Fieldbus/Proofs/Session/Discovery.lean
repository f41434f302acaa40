import Mathlib.Data.List.Induction
import Fieldbus.Proofs.Device.Records
import Fieldbus.Proofs.Session.Lifecycle
import Fieldbus.Proofs.Session.Underway

/-!
# What a discovery finds

A discovery hears of devices from the moment in which the engine carries out its command, for as
long as the engine lives.  Its caller takes the records of them one by one, in the order in which
they were heard, and looks at the clock before it waits for the next; if its time is up then, what
is still there is left.  Nothing else makes a difference: neither other calls and their windows, nor
what the link makes of a Who-Is, nor how the engine ends.

## Main definitions

* `Scene.Yields`: a call that was answered with the last record of each device among some.
* `Scene.Attended`: what comes of a discovery when its caller attends to it.
* `Scene.Fate`: a discovery that is under way or has its answer.

## Main results

* `Scene.Discovers.attend`: what the caller of a discovery does.
* `Scene.Discovers.exists_drained`: with time left all that was heard is taken in the end.
* `Scene.Fate.after`: the whole life of a discovery.
* `Scene.devices_of_discovery`: what a discovery yields.
* `Scene.heard_device_left`: what it leaves.
-/

namespace Fieldbus.Scene

variable {σ : Type} [Link σ]

/-! ### Attending to a discovery -/

/-- A call has been answered with the last record of each device among some. -/
def Yields (scene : Scene σ) (number : Nat) (records : List DeviceRecord) : Prop :=
  scene.calls[number]? = some (.answered (.devices (.ok (latestRecords records))))

/-- What comes of a discovery under way when its caller attends to it, case by case as in
`Session.Attends`. -/
inductive Attended (scene : Scene σ) (number : Nat) (discovery : Discovery)
    (trace : List (Point σ)) : Bool → Prop
  | looks (htime : scene.session.clock < discovery.deadline)
      (hnothing : Point.taken? number ⟨scene, .attend number⟩ = none)
      (h : (scene.proceed (.attend number)).Discovers number discovery true
        (trace ++ [⟨scene, .attend number⟩])) : Attended scene number discovery trace false
  | leaves (htime : discovery.deadline ≤ scene.session.clock)
      (hnothing : Point.taken? number ⟨scene, .attend number⟩ = none)
      (hyields : (scene.proceed (.attend number)).Yields number (taken number trace)) :
      Attended scene number discovery trace false
  | takes {record : DeviceRecord} {rest : List DeviceRecord}
      (hheard : taken number trace ++ record :: rest = heardSince number trace)
      (htakes : Point.taken? number ⟨scene, .attend number⟩ = some record)
      (h : (scene.proceed (.attend number)).Discovers number discovery false
        (trace ++ [⟨scene, .attend number⟩])) : Attended scene number discovery trace true
  | waits (hall : taken number trace = heardSince number trace)
      (htime : scene.session.clock < discovery.deadline)
      (hhears : scene.session.mayHear discovery = true)
      (hnothing : Point.taken? number ⟨scene, .attend number⟩ = none)
      (h : (scene.proceed (.attend number)).Discovers number discovery true
        (trace ++ [⟨scene, .attend number⟩])) : Attended scene number discovery trace true
  | stops (hall : taken number trace = heardSince number trace)
      (hnothing : Point.taken? number ⟨scene, .attend number⟩ = none)
      (hyields : (scene.proceed (.attend number)).Yields number (taken number trace)) :
      Attended scene number discovery trace true

section Attending

variable {scene : Scene σ} {number : Nat} {discovery : Discovery} {waits : Bool}
  {trace : List (Point σ)}

theorem Discovers.yields (h : scene.Discovers number discovery waits trace) {after : Session σ}
    (hproceed : scene.proceed (.attend number) = ⟨after, scene.calls.set number
      (.answered (.devices (.ok (scene.session.found discovery))))⟩) :
    (scene.proceed (.attend number)).Yields number (taken number trace) := by
  rw [Yields, hproceed, ← h.found_eq]
  exact List.getElem?_set_self (List.getElem?_eq_some_iff.mp h.call).1

/-- **The caller of a discovery takes what was heard record by record**, and gets what it has taken
when its time is up or nothing comes any more. -/
theorem Discovers.attend (h : scene.Discovers number discovery waits trace) :
    scene.Attended number discovery trace waits := by
  obtain ⟨capacity, waiting, hwindow, hheard⟩ := h.window
  have holdest : scene.session.oldest? discovery = waiting.head? := by
    rw [Session.oldest?, hwindow]
    rfl
  have htaken : Point.taken? number ⟨scene, .attend number⟩ =
      if waits then waiting.head? else none := by
    rw [Point.taken?, h.call]
    cases waits <;> simp [holdest]
  have hproceed := proceed_attend h.call
  have hattends := scene.session.attends_attend discovery waits
  generalize scene.session.attend (.discover discovery waits) = attended at hproceed hattends
  obtain ⟨call, after⟩ := attended
  -- what is taken in this moment is seen from what waits
  cases hattends with
  | looks htime => exact .looks htime htaken (h.of_attend_of_nothing htaken hproceed)
  | leaves htime => exact .leaves htime htaken (h.yields hproceed)
  | takes hsome =>
    rw [holdest] at hsome
    obtain ⟨rest, rfl⟩ := List.head?_eq_some_iff.mp hsome
    refine .takes hheard htaken (h.of_attend hproceed ⟨capacity, rest, ?_, ?_⟩ rfl)
    · rw [taken_concat, htaken]
      exact (Desk.window?_mapWindow_self ..).trans (congrArg _ hwindow)
    · rw [taken_concat, htaken, ← hheard]
      simp
  | waits hempty htime hhears =>
    rw [holdest] at hempty
    obtain rfl := List.head?_eq_none_iff.mp hempty
    have hall := (List.append_nil _).symm.trans hheard
    exact .waits hall htime hhears htaken (h.of_attend_of_nothing htaken hproceed)
  | stops hempty =>
    rw [holdest] at hempty
    obtain rfl := List.head?_eq_none_iff.mp hempty
    exact .stops ((List.append_nil _).symm.trans hheard) htaken (h.yields hproceed)

theorem clock_attend (scene : Scene σ) (number : Nat) :
    (scene.proceed (.attend number)).session.clock = scene.session.clock := by
  rw [proceed]
  split
  · rfl
  · exact (scene.session.hands_attend _).clock_eq

/-- By attending to a discovery a number of times its caller takes all that was heard, and gets it
if the engine has ended. -/
def Drains (scene : Scene σ) (number : Nat) (trace : List (Point σ)) (count : Nat) : Prop :=
  let history := List.replicate count (.attend number)
  taken number (trace ++ scene.trace history) = heardSince number trace ∧
    ((∃ point ∈ trace, point.ends = true) →
      (scene.after history).Yields number (heardSince number trace))

theorem Drains.succ {count : Nat}
    (h : (scene.proceed (.attend number)).Drains number (trace ++ [⟨scene, .attend number⟩])
      count) :
    scene.Drains number trace (count + 1) := by
  obtain ⟨htaken, hyields⟩ := h
  rw [heardSince_concat_of_silent rfl] at htaken hyields
  rw [Drains, List.replicate_succ]
  refine ⟨?_, fun ⟨point, hmem, hends⟩ => hyields ⟨point, List.mem_append_left _ hmem, hends⟩⟩
  rw [← htaken, List.append_assoc]
  rfl

/-- A caller that waits takes all that was heard, if there is time left. -/
theorem Discovers.exists_drained_of_waits (h : scene.Discovers number discovery true trace)
    (hclock : scene.session.clock < discovery.deadline) {waiting : List DeviceRecord}
    (hheard : taken number trace ++ waiting = heardSince number trace) :
    ∃ count, scene.Drains number trace count := by
  -- with each record that is taken one less waits
  induction waiting generalizing scene trace with
  | nil =>
    rw [List.append_nil] at hheard
    cases h.attend with
    | takes hmore => exact absurd (hheard.trans hmore.symm) (by simp)
    | waits hall htime hhears =>
      refine ⟨0, (congrArg _ (List.append_nil trace)).trans hall, fun hended => ?_⟩
      rw [h.mayHear_of_ended hended] at hhears
      cases hhears
    | stops hall hnothing hyields =>
      refine ⟨1, ?_, fun _ => hall ▸ hyields⟩
      exact (taken_concat_of_eq_none hnothing).trans hall
  | cons first rest ih =>
    cases h.attend with
    | waits hall => exact absurd (hall.trans hheard.symm) (by simp)
    | stops hall => exact absurd (hall.trans hheard.symm) (by simp)
    | takes hmore htakes htaken =>
      obtain ⟨rfl, rfl⟩ := List.cons.inj (List.append_cancel_left (hheard.trans hmore.symm))
      have hleft : (scene.proceed (.attend number)).session.clock < discovery.deadline :=
        (scene.clock_attend number).trans_lt hclock
      cases htaken.attend with
      | leaves htime => exact absurd htime (Nat.not_le.mpr hleft)
      | looks htime hnothing hlooked =>
        have hrest := ih hlooked ((clock_attend _ number).trans_lt hleft) (by
          rw [taken_concat_of_eq_none hnothing, taken_concat, htakes,
            heardSince_concat_of_silent rfl, heardSince_concat_of_silent rfl, ← hheard]
          simp)
        obtain ⟨count, hdrains⟩ := hrest
        exact ⟨count + 2, hdrains.succ.succ⟩

/-- **As long as there is time left, the caller of a discovery can take all that was heard**, and
gets it if the engine has ended. -/
theorem Discovers.exists_drained (h : scene.Discovers number discovery waits trace)
    (hclock : scene.session.clock < discovery.deadline) :
    ∃ count, scene.Drains number trace count := by
  cases waits with
  | true =>
    obtain ⟨capacity, waiting, -, hheard⟩ := h.window
    exact h.exists_drained_of_waits hclock hheard
  | false =>
    cases h.attend with
    | leaves htime => exact absurd htime (Nat.not_le.mpr hclock)
    | looks htime hnothing hlooked =>
      obtain ⟨capacity, waiting, -, hheard⟩ := hlooked.window
      obtain ⟨count, hdrains⟩ :=
        hlooked.exists_drained_of_waits ((scene.clock_attend number).trans_lt hclock) hheard
      exact ⟨count + 1, hdrains.succ⟩

end Attending

/-! ### The whole life of a discovery -/

theorem calls_proceed_of_answered {scene : Scene σ} {number : Nat} {answer : Answer}
    (h : scene.calls[number]? = some (.answered answer)) (moment : Moment) :
    (scene.proceed moment).calls[number]? = some (.answered answer) := by
  by_cases hattend : moment = .attend number
  · subst hattend
    rw [proceed, h]
    exact List.getElem?_set_self (List.getElem?_eq_some_iff.mp h).1
  · exact calls_proceed_of_ne h hattend

theorem calls_after_of_answered {begun : Scene σ} {number : Nat} {answer : Answer}
    (h : begun.calls[number]? = some (.answered answer)) (history : List Moment) :
    (begun.after history).calls[number]? = some (.answered answer) := by
  induction history generalizing begun with
  | nil => exact h
  | cons moment rest ih => exact ih (calls_proceed_of_answered h moment)

/-- A discovery is under way, or has its answer: the last record of each device that its caller has
taken a record of. -/
inductive Fate (scene : Scene σ) (number : Nat) (discovery : Discovery) (trace : List (Point σ)) :
    Prop
  | underway (waits : Bool) (h : scene.Discovers number discovery waits trace)
  | answered (hyields : scene.Yields number (taken number trace))
      (hbegins : taken number trace <+: heardSince number trace)

namespace Fate

variable {scene : Scene σ} {number : Nat} {discovery : Discovery} {trace : List (Point σ)}

theorem taken_prefix_heardSince (h : scene.Fate number discovery trace) :
    taken number trace <+: heardSince number trace := by
  cases h with
  | underway waits h => exact h.taken_prefix_heardSince
  | answered _ hbegins => exact hbegins

/-- A moment in which nothing is taken, and after which a discovery has its answer. -/
theorem of_yields {point : Point σ} (hbegins : taken number trace <+: heardSince number trace)
    (hnothing : point.taken? number = none) (hyields : scene.Yields number (taken number trace)) :
    scene.Fate number discovery (trace ++ [point]) := by
  refine .answered ?_ ?_
  · rwa [taken_concat_of_eq_none hnothing]
  · rw [taken_concat_of_eq_none hnothing]
    exact hbegins.trans (heardSince_prefix_concat number trace point)

/-- **A moment in the life of a discovery.** -/
theorem proceed (h : scene.Fate number discovery trace) (moment : Moment)
    (hroom : (Point.device? ⟨scene, moment⟩).isSome = true → scene.hasRoom number = true) :
    (scene.proceed moment).Fate number discovery (trace ++ [⟨scene, moment⟩]) := by
  cases h with
  | answered hyields hbegins =>
    refine of_yields hbegins ?_ (calls_proceed_of_answered hyields moment)
    rw [Yields] at hyields
    simp [Point.taken?, hyields]
  | underway waits h =>
    by_cases hwork : ∃ work, moment = .work work
    · obtain ⟨work, rfl⟩ := hwork
      exact .underway waits (h.work work hroom)
    · by_cases hattend : moment = .attend number
      · subst hattend
        cases h.attend with
        | looks _ _ hlooked => exact .underway true hlooked
        | takes _ _ htaken => exact .underway false htaken
        | waits _ _ _ _ hwaits => exact .underway true hwaits
        | leaves _ hnothing hyields => exact of_yields h.taken_prefix_heardSince hnothing hyields
        | stops _ hnothing hyields => exact of_yields h.taken_prefix_heardSince hnothing hyields
      · exact .underway waits (h.of_caller (fun work heq => hwork ⟨work, heq⟩) hattend)

/-- The whole life of a discovery. -/
theorem after {begun : Scene σ} (h : begun.Fate number discovery []) (history : List Moment)
    (hroom : ∀ point ∈ begun.trace history, point.device?.isSome = true →
      point.scene.hasRoom number = true) :
    (begun.after history).Fate number discovery (begun.trace history) := by
  induction history using List.reverseRecOn with
  | nil => exact h
  | append_singleton earlier moment ih =>
    rw [trace_concat] at hroom ⊢
    rw [after_concat]
    have hearlier := ih fun point hmem => hroom point (List.mem_append_left _ hmem)
    exact hearlier.proceed moment (hroom _ (List.mem_append_right _ (List.mem_singleton_self _)))

/-- A discovery begins with an empty window that the engine is to open. -/
theorem of_begin (h : scene.Sound) {timeout : Nat} {station : Option Mac} {low high : Option UInt32}
    (hrun : scene.session.run?.isSome = true) :
    (scene.proceed (.begin (.discover timeout station low high))).Fate scene.calls.length
      ⟨scene.session.desk.windows.length, scene.session.clock + timeout⟩ [] := by
  have hlast (call : Call) : (scene.calls ++ [call])[scene.calls.length]? = some call :=
    List.getElem?_concat_length
  rcases scene.session.beginCall_discover_cases timeout station low high with
    ⟨hnone, -⟩ | ⟨-, -, hbegin⟩ |
      ⟨run, worker, capacity, lowest, highest, hlife, halive, hbegin, -⟩
  · rw [hnone] at hrun
    cases hrun
  · refine .answered ?_ List.nil_prefix
    rw [Scene.proceed, hbegin]
    exact hlast _
  · refine .underway false ?_
    rw [Scene.proceed, hbegin]
    refine ⟨hlast _, fun other call hcall hwindow => ?_, ⟨max capacity 1, [], ?_, rfl⟩, ?_⟩
    · -- the windows of all other calls were there before
      rcases Nat.lt_trichotomy other scene.calls.length with hlt | heq | hgt
      · have hold : scene.calls[other]? = some call :=
          (List.getElem?_append_left hlt).symm.trans hcall
        have hknown := h.known call (List.mem_of_getElem? hold) _ hwindow
        exact absurd hknown (Nat.lt_irrefl _)
      · exact heq
      · have hnone : (scene.calls ++ [Call.discover ⟨scene.session.desk.windows.length,
            scene.session.clock + timeout⟩ false])[other]? = none :=
          List.getElem?_eq_none (by rw [List.length_append]; exact hgt)
        cases hnone.symm.trans hcall
    · exact List.getElem?_concat_length
    · have hdeaf := h.fresh scene.session.desk.windows.length le_rfl
      rw [Session.ear_of_running hlife halive] at hdeaf
      rw [Session.ear_of_running rfl rfl, Worker.ear_submit_self _ rfl, hdeaf]
      exact .asked (decide_eq_true rfl) rfl fun _ hmem => absurd hmem List.not_mem_nil

/-- A caller whose time is up has its answer when it has attended twice. -/
theorem exists_answer (h : scene.Fate number discovery trace)
    (hover : discovery.deadline ≤ scene.session.clock) :
    ∃ answer, (scene.after [.attend number, .attend number]).calls[number]? =
      some (.answered answer) := by
  cases h with
  | answered hyields => exact ⟨_, calls_after_of_answered hyields _⟩
  | underway waits h =>
    cases h.attend with
    | looks htime => exact absurd hover (Nat.not_le.mpr htime)
    | waits _ htime => exact absurd hover (Nat.not_le.mpr htime)
    | leaves _ _ hyields => exact ⟨_, calls_after_of_answered hyields [.attend number]⟩
    | stops _ _ hyields => exact ⟨_, calls_after_of_answered hyields [.attend number]⟩
    | takes _ _ htaken =>
      cases htaken.attend with
      | looks htime =>
        rw [clock_attend] at htime
        exact absurd hover (Nat.not_le.mpr htime)
      | leaves _ _ hyields => exact ⟨_, hyields⟩

/-- A caller that gets its answer otherwise than by finding its time up gets all that was heard. -/
theorem latestOf_of_attend (h : scene.Fate number discovery trace) {records : List DeviceRecord}
    (hwaits : ∀ answer, scene.calls[number]? ≠ some (.answered answer))
    (hanswer : (scene.proceed (.attend number)).calls[number]? =
      some (.answered (.devices (.ok records)))) :
    LatestOf records (heardSince number trace) ∨
      discovery.deadline ≤ scene.session.clock ∧
        scene.calls[number]? = some (.discover discovery false) := by
  cases h with
  | answered hyields => exact absurd hyields (hwaits _)
  | underway waits h =>
    cases h.attend with
    | leaves htime => exact .inr ⟨htime, h.call⟩
    | stops hall hnothing hyields =>
      cases hyields.symm.trans hanswer
      exact .inl (hall ▸ latestOf_latestRecords _)
    | looks _ _ hlooked => cases hlooked.call.symm.trans hanswer
    | takes _ _ htaken => cases htaken.call.symm.trans hanswer
    | waits _ _ _ _ hwaits => cases hwaits.call.symm.trans hanswer

end Fate

/-- **Discoveries are exact up to what is left, and none disturbs another.**  In whatever scene a
discovery is begun, and whatever happens then, with other discoveries and other engines, the caller
is refused if no engine runs.  Otherwise, as long as there is room in its window for every device
that is heard, it takes the records of the devices that were heard after the engine carried out its
command and before the engine ended, in the order in which they were heard; and its answer is the
last record that it has taken of each device, in ascending order and nothing else.  All that was
heard is in the answer, unless the caller finds at a look at the clock that its time is up.  It has
its answer when it has attended twice once its time is up.  As long as there is time left, it takes
all that was heard by attending, and gets that if the engine has ended. -/
theorem devices_of_discovery (link : σ) (earlier later : List Moment) (timeout : Nat)
    (station : Option Mac) (low high : Option UInt32) :
    let scene := (onLink link).after earlier
    let number := scene.calls.length
    let begun := scene.proceed (.begin (.discover timeout station low high))
    let ended := begun.after later
    let trace := begun.trace later
    (scene.session.run? = none →
      ended.calls[number]? = some (.answered (.devices (.error .notStarted)))) ∧
    (scene.session.run?.isSome = true →
      (∀ point ∈ trace, point.device?.isSome = true → point.scene.hasRoom number = true) →
      taken number trace <+: heardSince number trace ∧
      (∀ answer, ended.calls[number]? = some (.answered answer) →
        ∃ records, answer = .devices (.ok records) ∧ LatestOf records (taken number trace)) ∧
      (scene.session.clock + timeout ≤ ended.session.clock →
        ∃ answer, (ended.after [.attend number, .attend number]).calls[number]? =
          some (.answered answer)) ∧
      ((∀ answer, ended.calls[number]? ≠ some (.answered answer)) →
        (∀ records, (ended.proceed (.attend number)).calls[number]? =
            some (.answered (.devices (.ok records))) →
          LatestOf records (heardSince number trace) ∨
            scene.session.clock + timeout ≤ ended.session.clock ∧
              ∃ discovery, ended.calls[number]? = some (.discover discovery false)) ∧
        (ended.session.clock < scene.session.clock + timeout →
          ∃ count, let history := List.replicate count (.attend number)
            taken number (trace ++ ended.trace history) = heardSince number trace ∧
            ((∃ point ∈ trace, point.ends = true) →
              ∃ records, (ended.after history).calls[number]? =
                  some (.answered (.devices (.ok records))) ∧
                LatestOf records (heardSince number trace))))) := by
  intro scene number begun ended trace
  constructor
  · intro hnone
    refine calls_after_of_answered ?_ later
    rcases scene.session.beginCall_discover_cases timeout station low high with
      ⟨-, hbegin⟩ | ⟨hsome, -⟩ | ⟨run, worker, capacity, lowest, highest, hlife, -⟩
    · simp only [begun, proceed, hbegin]
      exact List.getElem?_concat_length
    · rw [hnone] at hsome
      cases hsome
    · rw [Session.run?, hlife] at hnone
      cases hnone
  · intro hrun hroom
    have hsound : scene.Sound := (sound_onLink link).after earlier
    have hfate := (Fate.of_begin hsound hrun).after later hroom
    refine ⟨hfate.taken_prefix_heardSince, fun answer hanswer => ?_, hfate.exists_answer,
      fun hwaits => ⟨fun records hrecords => ?_, fun hclock => ?_⟩⟩
    · cases hfate with
      | underway waits h => cases h.call.symm.trans hanswer
      | answered hyields =>
        obtain rfl := Call.answered.inj (Option.some.inj (hyields.symm.trans hanswer))
        exact ⟨_, rfl, latestOf_latestRecords _⟩
    · exact (hfate.latestOf_of_attend hwaits hrecords).imp_right (And.imp_right fun h => ⟨_, h⟩)
    · cases hfate with
      | answered hyields => exact absurd hyields (hwaits _)
      | underway waits h =>
        obtain ⟨count, htaken, hyields⟩ := h.exists_drained hclock
        exact ⟨count, htaken, fun hended => ⟨_, hyields hended, latestOf_latestRecords _⟩⟩

/-- A segment where two devices announce themselves, one of them again from another station. -/
def announcing : Simulation.Segment where
  inbox :=
    [.iAm (some 5) (Simulation.Station.announcementOf 8),
     .iAm (some 7) (Simulation.Station.announcementOf 3),
     .iAm (some 6) (Simulation.Station.announcementOf 8)]

/-- A session that has started on that segment, with a discovery that has begun. -/
def discovering : Scene Simulation.Segment :=
  ((onLink announcing).after [.start Session.ownAddress]).proceed
    (.begin (.discover 100 none none none))

/-- A second discovery is begun between the announcements, and the engine is shut down. -/
def overlapping : List Moment :=
  [.work .obey, .begin (.discover 50 none none none), .work .listen, .attend 0, .attend 0,
   .work .obey, .work .listen, .work .listen, .shutdown, .work .obey]

/-- A discovery without an engine, one during which the engine is shut down, and one whose time is
up. -/
theorem devices_of_discovery_announcing :
    let record (mac : Mac) (device : UInt32) :=
      Engine.recordOf (some mac) (Simulation.Station.announcementOf device)
    let attending : List Moment := List.replicate 5 (.attend 0)
    ((onLink announcing).proceed (.begin (.discover 100 none none none))).calls[0]? =
        some (.answered (.devices (.error .notStarted))) ∧
      heardSince 0 (discovering.trace overlapping) = [record 5 8, record 7 3, record 6 8] ∧
      taken 0 (discovering.trace overlapping) <+: heardSince 0 (discovering.trace overlapping) ∧
      (∃ count records,
        ((discovering.after overlapping).after (List.replicate count (.attend 0))).calls[0]? =
          some (.answered (.devices (.ok records))) ∧
        LatestOf records (heardSince 0 (discovering.trace overlapping))) ∧
      ((discovering.after (overlapping ++ attending)).proceed (.attend 0)).calls[0]? =
        some (.answered (.devices (.ok [record 7 3, record 6 8]))) ∧
      LatestOf [record 7 3, record 6 8]
        (heardSince 0 (discovering.trace (overlapping ++ attending))) ∧
      ∃ records, ((discovering.after (overlapping ++ [.pass 100])).after
          [.attend 0, .attend 0]).calls[0]? = some (.answered (.devices (.ok records))) ∧
        LatestOf records (taken 0 (discovering.trace
          (overlapping ++ [.pass 100, .attend 0, .attend 0]))) := by
  intro record attending
  have hended : ∃ point ∈ discovering.trace overlapping, point.ends = true := by decide +kernel
  have hidle := (devices_of_discovery announcing [] [] 100 none none none).1 rfl
  have hdiscovers (later : List Moment) :=
    (devices_of_discovery announcing [.start Session.ownAddress] later 100 none none none).2 rfl
  -- the engine is gone, and there is time left
  obtain ⟨htaken, -, -, hdrains⟩ := hdiscovers overlapping (by decide +kernel)
  obtain ⟨count, -, hall⟩ := (hdrains fun answer hanswer => by cases hanswer).2 (by decide)
  obtain ⟨records, hanswer, hlatest⟩ := hall hended
  -- all has been taken, so that the caller stops
  have hstops : ((discovering.after (overlapping ++ attending)).proceed (.attend 0)).calls[0]? =
      some (.answered (.devices (.ok [record 7 3, record 6 8]))) :=
    calls_of_devices? (by decide +kernel)
  obtain ⟨-, -, -, hattended⟩ := hdiscovers (overlapping ++ attending) (by decide +kernel)
  have hexact := ((hattended fun answer hanswer => by cases hanswer).1 _ hstops).resolve_right
    fun hover => absurd hover.1 (by decide +kernel)
  -- the time is up
  obtain ⟨-, -, hover, -⟩ := hdiscovers (overlapping ++ [.pass 100]) (by decide +kernel)
  obtain ⟨answer, hlate⟩ := hover (by decide +kernel)
  obtain ⟨-, hfound, -⟩ :=
    hdiscovers (overlapping ++ [.pass 100, .attend 0, .attend 0]) (by decide +kernel)
  obtain ⟨found, rfl, hlatestTaken⟩ := hfound answer hlate
  exact ⟨hidle, by decide +kernel, htaken, ⟨count, records, hanswer, hlatest⟩, hstops, hexact,
    found, hlate, hlatestTaken⟩

/-- A segment where a device answers a Who-Is. -/
def answering : Simulation.Segment where
  stations := [{ mac := 4, device := 400, objects := [] }]

/-- **A device that was heard is not always found.**  Two devices are heard before the caller takes
the record of the first; at its next look at the clock its time is up, and the second is left.  And
a caller without time takes nothing of what was heard. -/
theorem heard_device_left :
    let heard : List Moment := [.work .obey, .work .listen, .work .listen, .attend 0, .pass 99]
    let ended := discovering.after (heard ++ [.attend 0, .pass 1, .attend 0])
    let brief := ((onLink answering).after [.start Session.ownAddress]).proceed
      (.begin (.discover 0 none none none))
    ((∀ point ∈ discovering.trace heard, point.scene.hasRoom 0 = true) ∧
      (heardSince 0 (discovering.trace heard)).map DeviceRecord.device = [8, 3] ∧
      ∃ records, ended.calls[0]? = some (.answered (.devices (.ok records))) ∧
        records.map DeviceRecord.device = [8] ∧
        ¬LatestOf records (heardSince 0 (discovering.trace heard))) ∧
      (∀ point ∈ brief.trace [.work .obey, .work .listen], point.scene.hasRoom 0 = true) ∧
        (heardSince 0 (brief.trace [.work .obey, .work .listen])).map DeviceRecord.device = [400] ∧
        (brief.after [.work .obey, .work .listen, .attend 0]).calls[0]? =
          some (.answered (.devices (.ok []))) := by
  intro heard ended brief
  have hheard : (heardSince 0 (discovering.trace heard)).map DeviceRecord.device = [8, 3] := by
    decide +kernel
  have hanswer : (ended.calls[0]?.bind Call.devices?).map (List.map DeviceRecord.device) =
      some [8] := by
    decide +kernel
  obtain ⟨records, hrecords, hdevices⟩ := Option.map_eq_some_iff.mp hanswer
  refine ⟨⟨by decide +kernel, hheard, records, calls_of_devices? hrecords, hdevices,
    fun hlatest => ?_⟩, by decide +kernel, by decide +kernel, calls_of_devices? (by decide +kernel)⟩
  -- the answer would have a record for each of the two
  have hlength := hlatest.length_eq_card
  rw [hheard, ← List.length_map DeviceRecord.device, hdevices] at hlength
  exact absurd hlength (by decide)

end Fieldbus.Scene
