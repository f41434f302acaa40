import Fieldbus.Proofs.Engine.Flight
import Fieldbus.Proofs.Walk.Honest
import Fieldbus.Simulation.Segment

/-!
# Enumerations of honest devices

An enumeration hands a walk to the engine of its session, and yields what the walk has found.  In
whatever the engine is engaged meanwhile, the enumeration of a device that answers honestly yields
the object list of the device, and one that is spoilt yields what was found before.

## Main definitions

* `Session.alive?`: the engine of a session.

## Main results

* `Session.enumeration_of_honest`: an enumeration is exact, or keeps what it has found.
-/

namespace Fieldbus

namespace Session

variable {σ : Type}

/-- The engine of a session, if there is one alive. -/
def alive? (session : Session σ) : Option (Engine σ) :=
  session.worker?.map fun worker => { toShared := session.toShared, toWorker := worker }

theorem alive?_beginEnumeration {session begun : Session σ} {engine : Engine σ} {mac : Mac}
    {device : UInt32} {timeout : Nat} {walking : Walking} (hengine : session.alive? = some engine)
    (hbegin : session.beginEnumeration mac device timeout = .ok (walking, begun)) :
    begun.alive? = some (engine.perform (.enumerate mac device)) ∧
      walking.report = engine.desk.reports.length := by
  obtain ⟨shared, holdsLink, lifecycle⟩ := session
  obtain ⟨worker, hworker, rfl⟩ := Option.map_eq_some_iff.mp hengine
  cases lifecycle with
  | notStarted => cases hworker
  | starting => cases hworker
  | running run =>
    have hworker : run.worker = some worker := hworker
    cases hcheck : checkInstance device with
    | error error =>
      simp [beginEnumeration, Session.engine, run?, hcheck, bind, Except.bind] at hbegin
    | ok checked =>
      simp only [beginEnumeration, Session.engine, run?, hcheck, bind, Except.bind, submit?,
        worker?, Option.bind_some, hworker, Option.map_some, pure, Except.pure, Except.ok.injEq,
        Prod.mk.injEq] at hbegin
      obtain ⟨rfl, rfl⟩ := hbegin
      exact ⟨rfl, rfl⟩

/-- The first reads of a walk over the object list of a device, in order. -/
def readsUpTo (mac : Mac) (device : UInt32) (count : Nat) : List (Mac × ConfirmedRequest) :=
  (List.range count).map fun index =>
    (mac, .read ⟨⟨.device, device⟩, .objectList, some (UInt32.ofNat index)⟩)

/-- What an enumeration that is over yields. -/
theorem endEnumeration_of_follows {later : Engine σ} {ended : Session σ}
    (hended : ended.desk = later.desk) {walking : Walking} {course : Course}
    (hfollows : later.Follows walking.report course) (hfinished : course.report.finished = true) :
    ended.isOver walking = true ∧ (ended.endEnumeration walking).1 =
      ⟨course.report.objects, course.report.error.map .enumerationAborted⟩ := by
  have hreport : ended.desk.report walking.report = course.report := by
    rw [hended, hfollows.found]
  constructor
  · rw [isOver, hreport, hfinished, Bool.true_or]
  · simp only [endEnumeration, Enumeration.ofReport, hreport, hfinished, if_true]

variable [Link σ]

/-- **Enumerations of honest devices are exact.**  A session begins an enumeration while its engine
is at any point of any run, and whatever happens then, in whatever order, the walk gets an id for
its first read, its reads are sent and its caller waits.  If every read is answered honestly from a
list of objects, the enumeration yields the list, after one read of each index in order.  If the
reads before an index are answered honestly and the reply to the read of that index spoils the walk,
the enumeration yields the elements before, with the cause, and nothing behind the index is read. -/
theorem enumeration_of_honest {shared : Shared (Recorded σ)} (hdesk : shared.desk.Sound)
    {identity : LocalDevice} {timing : Timing} {engine first later : Engine (Recorded σ)}
    (hreaches : (Engine.launch shared identity timing).Reaches engine)
    {session begun ended : Session (Recorded σ)} (hengine : session.alive? = some engine)
    {mac : Mac} {device : UInt32} {timeout : Nat} {walking : Walking}
    (hbegin : session.beginEnumeration mac device timeout = .ok (walking, begun))
    (hfirst : begun.alive? = some first) {sent : List Dispatch} {outcomes : List Outcome}
    (hrun : Engine.Watched (.report walking.report) first sent outcomes later) (hsent : sent ≠ [])
    (htaken : ∀ dispatch ∈ sent, dispatch.taken = true)
    (hwaits : (later.desk.report walking.report).abandoned = false)
    (hended : ended.desk = later.desk) (objects : List ObjectIdentifier)
    (hlength : objects.length < 2 ^ 32) (hobjects : ∀ id ∈ objects, id.InRange) :
    ((∀ (index : Nat) dispatch, sent[index]? = some dispatch → ∃ outcome,
        outcomes[index]? = some outcome ∧
          Walk.honestReply? objects dispatch.request = some outcome) →
      sent.map Dispatch.message = readsUpTo mac device (objects.length + 1) ∧
        ended.isOver walking = true ∧
        (ended.endEnumeration walking).1 = ⟨objects.map ObjectIdentifier.reference, none⟩) ∧
    ∀ index outcome cause, (∀ earlier < index, ∃ dispatch reply,
        sent[earlier]? = some dispatch ∧ outcomes[earlier]? = some reply ∧
          Walk.honestReply? objects dispatch.request = some reply) →
      outcomes[index]? = some outcome → Walk.Spoils outcome cause →
      sent.map Dispatch.message = readsUpTo mac device (index + 1) ∧
        ended.isOver walking = true ∧
        (ended.endEnumeration walking).1 =
          ⟨(objects.take (index - 1)).map ObjectIdentifier.reference,
            some (.enumerationAborted cause)⟩ := by
  have hsound := (Engine.Sound.of_launch shared hdesk identity timing).of_reaches hreaches
  obtain ⟨hbegun, hreport⟩ := alive?_beginEnumeration hengine hbegin
  obtain rfl : engine.perform (.enumerate mac device) = first :=
    Option.some.inj (hbegun.symm.trans hfirst)
  let origin : Walk := Walk.onDevice mac device engine.desk.reports.length
  have hopens := engine.opens_enumerate mac device
  have hqueued : (engine.perform (.enumerate mac device)).queued (.report origin.report) =
      [.request origin.destination origin.firstRead (.walk origin)] :=
    hsound.queued_of_opens hopens
  have hempty : (engine.perform (.enumerate mac device)).desk.report origin.report = {} :=
    Engine.report_perform_enumerate mac device
  have horigin : origin.report = walking.report := hreport.symm
  rw [← horigin] at hrun hwaits
  obtain ⟨hfollows, hmessages, hcount⟩ :=
    hrun.follows (hsound.of_opens hopens) hqueued hempty hsent htaken hwaits
  have hreads : ((Course.begin origin).along outcomes).reads = sent.map Dispatch.request := by
    have hrequests := congrArg (List.map Prod.snd) hmessages
    rw [List.map_map, List.map_map] at hrequests
    exact (List.map_id _).symm.trans hrequests.symm
  have hcount : outcomes.length + ((Course.begin origin).along outcomes).walk?.isSome.toNat =
      ((Course.begin origin).along outcomes).reads.length := by
    rw [hcount, hreads, List.length_map]
  rw [horigin] at hfollows
  refine ⟨fun hhonest => ?_, fun index outcome cause hhonest houtcome hspoils => ?_⟩
  · have halong : (Course.begin origin).along outcomes =
        Course.onList origin objects (objects.length + 1) := by
      refine Course.along_of_honest rfl hlength hobjects hcount fun index request hrequest => ?_
      rw [hreads, List.getElem?_map] at hrequest
      obtain ⟨dispatch, hdispatch, rfl⟩ := Option.map_eq_some_iff.mp hrequest
      exact hhonest index dispatch hdispatch
    have hover : objects.length < objects.length + 1 := Nat.lt_succ_self _
    rw [halong] at hmessages hfollows
    obtain ⟨hend, hyield⟩ := endEnumeration_of_follows hended hfollows (decide_eq_true hover)
    refine ⟨?_, hend, ?_⟩
    · rw [hmessages, Course.onList, Nat.min_eq_right (Nat.le_of_lt hover), List.map_map]
      rfl
    · rw [hyield, Course.onList, Nat.add_sub_cancel, List.take_length]
      rfl
  · have halong : (Course.begin origin).along outcomes =
        Course.spoilt origin objects index cause := by
      refine Course.along_of_spoils rfl hlength hobjects hcount (fun earlier hearlier => ?_)
        houtcome hspoils
      obtain ⟨dispatch, reply, hdispatch, hreply, hanswer⟩ := hhonest earlier hearlier
      refine ⟨dispatch.request, reply, ?_, hreply, hanswer⟩
      rw [hreads, List.getElem?_map, hdispatch, Option.map_some]
    rw [halong] at hmessages hfollows
    obtain ⟨hend, hyield⟩ := endEnumeration_of_follows hended hfollows rfl
    refine ⟨?_, hend, hyield⟩
    rw [hmessages, Course.spoilt, List.map_map]
    rfl

/-- The identity of a session in the examples below. -/
def guest : LocalDevice := ⟨⟨.device, 599⟩, "", 1024, .none, 15⟩

/-- A session on a segment with one station, whose device has one object beside itself. -/
def oneStation : Session (Recorded Simulation.Segment) where
  link := ⟨{ stations := [{ mac := 5, device := 8, objects := [⟨.analogInput, 1⟩] }] }, []⟩
  clock := 0
  cache := .empty
  desk := {}
  holdsLink := false
  lifecycle := .running ⟨guest, {}, some { identity := guest, timing := {} }⟩

/-- An enumeration of the only station on a segment yields both objects of its device. -/
theorem enumeration_of_oneStation :
    ∃ walking begun first sent outcomes later,
      oneStation.beginEnumeration 5 8 100 = .ok (walking, begun) ∧ begun.alive? = some first ∧
        Engine.Watched (.report walking.report) first sent outcomes later ∧
        sent.map Dispatch.message = readsUpTo 5 8 3 ∧
        ({ begun with desk := later.desk }.endEnumeration walking).1 =
          ⟨[⟨"device", 8⟩, ⟨"analogInput", 1⟩], none⟩ := by
  let objects : List ObjectIdentifier := [⟨.device, 8⟩, ⟨.analogInput, 1⟩]
  obtain ⟨begun, hbegin, hfirst⟩ : ∃ begun,
      oneStation.beginEnumeration 5 8 100 = .ok (⟨0, 100, 100⟩, begun) ∧ begun.alive? =
        some ((Engine.launch oneStation.toShared guest {}).perform (.enumerate 5 8)) :=
    ⟨_, rfl, rfl⟩
  -- the engine carries out the command, and hears the three replies
  have hcomputed : (Engine.watch (.report 0)
      ((Engine.launch oneStation.toShared guest {}).perform (.enumerate 5 8))
      [.obey, .listen, .listen, .listen]).map
        (fun (sent, outcomes, later) => (sent, outcomes, (later.desk.report 0).abandoned)) =
      some
        ([⟨5, 0, .read ⟨⟨.device, 8⟩, .objectList, some 0⟩, true⟩,
          ⟨5, 1, .read ⟨⟨.device, 8⟩, .objectList, some 1⟩, true⟩,
          ⟨5, 2, .read ⟨⟨.device, 8⟩, .objectList, some 2⟩, true⟩],
         [.ack (.read ⟨⟨.device, 8⟩, .objectList, some 0, [33, 2]⟩),
          .ack (.read ⟨⟨.device, 8⟩, .objectList, some 1, [196, 2, 0, 0, 8]⟩),
          .ack (.read ⟨⟨.device, 8⟩, .objectList, some 2, [196, 0, 0, 0, 1]⟩)], false) := by
    decide +kernel
  obtain ⟨⟨sent, outcomes, later⟩, hwatch, hresult⟩ := Option.map_eq_some_iff.mp hcomputed
  obtain ⟨rfl, rfl, hwaits⟩ : sent = _ ∧ outcomes = _ ∧ _ = _ := by
    simpa only [Prod.mk.injEq] using hresult
  have hrun := Engine.watched_of_watch hwatch
  have hdesk : oneStation.desk.Sound := Desk.sound_empty
  have hended : ({ begun with desk := later.desk } : Session _).desk = later.desk := rfl
  have hexact := enumeration_of_honest hdesk .refl rfl hbegin hfirst hrun (by simp) (by simp) hwaits
    hended objects (by decide) (by decide)
  have hhonest := hexact.1 fun index dispatch hdispatch => by
    match index, hdispatch with
    | 0, h => cases h; exact ⟨_, rfl, rfl⟩
    | 1, h => cases h; exact ⟨_, rfl, rfl⟩
    | 2, h => cases h; exact ⟨_, rfl, rfl⟩
  exact ⟨_, begun, _, _, _, later, hbegin, hfirst, hrun, hhonest.1, hhonest.2.2⟩

end Session

end Fieldbus
