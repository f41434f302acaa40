import Mathlib.Data.List.DropRight
import Fieldbus.Proofs.Device.Records
import Fieldbus.Proofs.Session.Heard
import Fieldbus.Proofs.Session.Windows
import Fieldbus.Simulation.Segment

/-!
# The device cache of a session

The cache outlives the engines of a session.  Callers put records into it and clear it, and every
engine puts in what it hears of devices; nothing else touches it.  So at any time it has of each
device the last record that came since it was last cleared, whichever engine heard it, and no other.

## Main definitions

* `Deed`, `Scene.undergo`: what happens to a session whose cache is filled and cleared.
* `News`, `Scene.news`: what a deed brings to the cache.
* `News.known`: the records that have come since the cache was last cleared.

## Main results

* `Engine.cache_work`: what a work of the engine does to the cache.
* `Scene.records_undergo`: what a deed does to the cache.
* `Scene.cache_of_last_news`: what the cache has, over any life of a session.
-/

namespace Fieldbus

namespace Engine

variable {σ : Type}

/-! ### The engine -/

/-- What is left of the cache after a turn. -/
def Turn.cache : Turn σ → DeviceCache
  | .running engine => engine.cache
  | .stopped shared | .crashed shared => shared.cache

theorem cache_fail (engine : Engine σ) (responder : Responder) (cause : Failure) :
    (engine.fail responder cause).cache = engine.cache := by
  cases responder <;> rfl

theorem cache_foldl_cancel (entries : List Pending) (engine : Engine σ) :
    (entries.foldl cancel engine).cache = engine.cache := by
  induction entries generalizing engine with
  | nil => rfl
  | cons entry rest ih =>
    obtain ⟨change, hcancel⟩ := @cancel_eq σ entry
    rw [List.foldl_cons, ih, hcancel]

variable [Link σ]

theorem cache_start (engine : Engine σ) (destination : Mac) (request : ConfirmedRequest)
    (responder : Responder) :
    (engine.start destination request responder).cache = engine.cache := by
  rcases engine.start_cases destination request responder with
    ⟨cursor, link, cause, hstart⟩ | ⟨id, cursor, link, -, hstart⟩
  · rw [hstart, cache_fail]
  · rw [hstart]

theorem cache_complete (engine : Engine σ) (responder : Responder) (outcome : Outcome) :
    (engine.complete responder outcome).cache = engine.cache := by
  cases responder with
  | ticket ticket => rfl
  | walk walk =>
    rw [complete]
    dsimp only
    split
    · rfl
    · rw [cache_start]

theorem cache_expire (engine : Engine σ) : engine.expire.cache = engine.cache := by
  rw [expire]
  generalize engine.pending.filter engine.isOverdue = entries
  induction entries generalizing engine with
  | nil => rfl
  | cons entry rest ih => exact (ih _).trans (cache_complete (engine.release entry.id) _ _)

theorem cache_stop (engine : Engine σ) : engine.stop.cache = engine.cache :=
  cache_foldl_cancel engine.pending engine

theorem cache_handle (engine : Engine σ) (command : Command) :
    (engine.handle command).cache = engine.cache := by
  cases command with
  | request destination request responder => exact engine.cache_start _ _ _
  | _ => rfl

theorem cache_of_listen {engine after : Engine σ} (h : engine.listen = .ok after) :
    after.cache = engine.announced?.elim engine.cache engine.cache.put := by
  rcases listen_cases h with ⟨link, hreceive, rfl⟩ | ⟨error, link, hreceive, rfl⟩ |
    ⟨indication, link, hreceive, rfl⟩
  · simp [announced?, hreceive]
  · simp [announced?, hreceive]
  · cases indication with
    | iAm source announcement =>
      rw [indicate, hear, announced?, hreceive]
      by_cases hdevice : announcement.id.type = .device
      · simp only [hdevice, if_true]
        rfl
      · simp only [hdevice, if_false]
        rfl
    | completion source id outcome =>
      rw [indicate, completion, announced?, hreceive]
      split
      · rfl
      · split
        · rename_i entry _ _
          let heard : Engine σ := { engine with link := link }
          exact cache_complete (heard.release id) entry.responder outcome
        · rfl

theorem cache_of_listen_error {engine : Engine σ} {shared : Shared σ}
    (h : engine.listen = .error shared) : shared.cache = engine.cache := by
  rw [listen] at h
  cases hreceive : Link.receive engine.link with
  | mk reception link =>
    rw [hreceive] at h
    cases reception with
    | broken =>
      cases h
      rfl
    | _ => cases h

theorem cache_work_of_ne (engine : Engine σ) {work : Work} (h : work ≠ .listen) :
    (engine.work work).cache = engine.cache := by
  cases work with
  | obey =>
    cases hqueue : engine.commands with
    | nil =>
      rw [Engine.work, hqueue]
      rfl
    | cons command rest =>
      by_cases hcommand : command = .shutdown
      · subst hcommand
        rw [Engine.work, hqueue]
        exact engine.cache_stop
      · rw [work_obey_of_ne hqueue hcommand]
        exact cache_handle { engine with commands := rest } command
  | listen => exact absurd rfl h
  | expire => exact engine.cache_expire
  | crash => rfl

theorem cache_work_listen (engine : Engine σ) :
    (engine.work .listen).cache = engine.announced?.elim engine.cache engine.cache.put := by
  rw [Engine.work]
  cases hlisten : engine.listen with
  | ok after => exact cache_of_listen hlisten
  | error shared =>
    rw [(listen_error hlisten).1]
    exact cache_of_listen_error hlisten

end Engine

namespace Session

variable {σ : Type}

/-! ### Operations of a session -/

theorem cache_of_submit? {before after : Session σ} {command : Command}
    (h : before.submit? command = some after) : after.cache = before.cache := by
  obtain ⟨run, worker, -, -, rfl⟩ := exists_of_submit? h
  rfl

theorem Hands.cache {asked : Command → Prop} {before after : Session σ}
    (h : before.Hands asked after) : after.cache = before.cache := by
  obtain ⟨desk, rfl | ⟨command, -, hsubmit⟩⟩ := h
  · rfl
  · exact @cache_of_submit? _ { before with desk := desk } _ _ hsubmit

theorem cache_settle (session : Session σ) (left : Engine.Turn σ) :
    (session.settle left).cache = left.cache := by
  obtain ⟨shared, holdsLink, lifecycle⟩ := session
  cases left <;> cases lifecycle <;> rfl

variable [Link σ]

theorem cache_ensureStarted (session : Session σ) (config : Config) :
    (session.ensureStarted config).2.cache = session.cache := by
  rcases session.ensureStarted_cases config with ⟨-, hstart⟩ | ⟨-, ⟨cause, -, hstart⟩ |
    ⟨parameters, identity, -, ⟨-, hstart⟩ | ⟨-, ⟨error, link, -, hstart⟩ |
      ⟨link, -, hstart⟩⟩⟩⟩
  all_goals rw [hstart]

/-- What the engine of a session does to the cache. -/
theorem cache_work (session : Session σ) (work : Work) :
    (session.work work).cache =
      (Point.device? ⟨{ session := session }, .work work⟩).elim session.cache
        session.cache.put := by
  cases halive : session.alive? with
  | none =>
    have hsilent : Point.device? ⟨{ session := session }, .work work⟩ = none := by
      cases work <;> simp [Point.device?, halive]
    rw [hsilent, Session.work, halive]
    rfl
  | some engine =>
    have hcache : engine.cache = session.cache := by
      obtain ⟨worker, -, rfl⟩ := Option.map_eq_some_iff.mp halive
      rfl
    rw [work_of_alive? halive, cache_settle, ← hcache]
    cases work with
    | listen =>
      simp only [Point.device?, halive, Option.bind_some]
      exact engine.cache_work_listen
    | _ => exact engine.cache_work_of_ne (by rintro ⟨⟩)

end Session

/-! ### Deeds -/

/-- What happens to a session whose callers fill and clear the cache. -/
inductive Deed where
  /-- A caller puts a record into the cache. -/
  | put (record : DeviceRecord)
  | clear
  /-- Anything else that happens. -/
  | moment (moment : Moment) (hcallers : ∀ cache, moment ≠ .refill cache)

/-- What a deed is for a session with a cache. -/
def Deed.asMoment (cache : DeviceCache) : Deed → Moment
  | .put record => .refill (cache.put record)
  | .clear => .refill .empty
  | .moment other _ => other

/-- What is brought to the cache. -/
inductive News where
  /-- A record of a device, which a caller puts in or which was heard. -/
  | record (record : DeviceRecord)
  | cleared
  deriving DecidableEq, Repr

namespace News

/-- The record that news bring. -/
def record? : News → Option DeviceRecord
  | .record found => some found
  | .cleared => none

/-- The records that have come since the cache was last cleared, of devices that there can be. -/
def known (news : List News) : List DeviceRecord :=
  ((news.rtakeWhile (· ≠ .cleared)).filterMap record?).filter DeviceCache.accepts

theorem known_concat_record (news : List News) (found : DeviceRecord) :
    known (news ++ [.record found]) =
      known news ++ if DeviceCache.accepts found then [found] else [] := by
  rw [known, List.rtakeWhile_concat_pos _ _ _ (by simp), List.filterMap_append, List.filter_append,
    known]
  by_cases h : DeviceCache.accepts found <;> simp [record?, h]

theorem known_concat_cleared (news : List News) : known (news ++ [.cleared]) = [] := by
  rw [known, List.rtakeWhile_concat_neg _ _ _ (by simp)]
  rfl

theorem known_append {later : List News} (h : .cleared ∉ later) (earlier : List News) :
    known (earlier ++ later) = known earlier ++ known later := by
  induction later using List.reverseRecOn with
  | nil => simp [known]
  | append_singleton first last ih =>
    obtain ⟨hfirst, hlast⟩ := not_or.mp (List.mem_append.not.mp h)
    cases last with
    | cleared => exact absurd (List.mem_singleton_self _) hlast
    | record found =>
      rw [← List.append_assoc, known_concat_record, known_concat_record, ih hfirst,
        List.append_assoc]

theorem le_maxInstance_of_mem_known {news : List News} {found : DeviceRecord}
    (h : found ∈ known news) : found.device ≤ maxInstance :=
  of_decide_eq_true (List.mem_filter.mp h).2

theorem mem_known {news : List News} {found : DeviceRecord} (h : .record found ∈ news)
    (hcleared : .cleared ∉ news) (hfound : found.device ≤ maxInstance) : found ∈ known news := by
  have hall : news.rtakeWhile (· ≠ .cleared) = news :=
    List.rtakeWhile_eq_self_iff.mpr fun brought hmem =>
      decide_eq_true fun heq => hcleared (heq ▸ hmem)
  rw [known, hall, List.mem_filter, List.mem_filterMap]
  exact ⟨⟨_, h, rfl⟩, decide_eq_true hfound⟩

end News

theorem DeviceCache.records_put {cache : DeviceCache} {known : List DeviceRecord}
    (h : cache.records = latestRecords known) (record : DeviceRecord) :
    (cache.put record).records =
      latestRecords (known ++ if accepts record then [record] else []) := by
  rw [put]
  by_cases haccepts : accepts record = true
  · rw [if_pos haccepts, if_pos haccepts, latestRecords_concat, ← h]
  · rw [if_neg haccepts, if_neg haccepts, List.append_nil, h]

namespace Scene

variable {σ : Type} [Link σ]

/-- The scene after a deed. -/
def undergo (scene : Scene σ) (deed : Deed) : Scene σ :=
  scene.proceed (deed.asMoment scene.session.cache)

/-- The scene after one deed after the other. -/
def afterDeeds (scene : Scene σ) (deeds : List Deed) : Scene σ := deeds.foldl undergo scene

/-- What a deed brings to the cache. -/
def news (scene : Scene σ) : Deed → List News
  | .put record => [.record record]
  | .clear => [.cleared]
  | .moment moment _ => (Point.device? ⟨scene, moment⟩).toList.map .record

/-- What deeds bring to the cache, one after the other. -/
def chronicle (scene : Scene σ) : List Deed → List News
  | [] => []
  | deed :: rest => scene.news deed ++ (scene.undergo deed).chronicle rest

theorem afterDeeds_append (scene : Scene σ) (first second : List Deed) :
    scene.afterDeeds (first ++ second) = (scene.afterDeeds first).afterDeeds second :=
  List.foldl_append

theorem chronicle_append (scene : Scene σ) (first second : List Deed) :
    scene.chronicle (first ++ second) =
      scene.chronicle first ++ (scene.afterDeeds first).chronicle second := by
  induction first generalizing scene with
  | nil => rfl
  | cons deed rest ih =>
    rw [List.cons_append, chronicle, ih, chronicle, List.append_assoc]
    rfl

theorem afterDeeds_concat (scene : Scene σ) (deeds : List Deed) (deed : Deed) :
    scene.afterDeeds (deeds ++ [deed]) = (scene.afterDeeds deeds).undergo deed :=
  scene.afterDeeds_append deeds [deed]

theorem chronicle_concat (scene : Scene σ) (deeds : List Deed) (deed : Deed) :
    scene.chronicle (deeds ++ [deed]) =
      scene.chronicle deeds ++ (scene.afterDeeds deeds).news deed := by
  rw [chronicle_append, chronicle, chronicle, List.append_nil]

/-- Moments of callers leave the cache alone, and an engine puts in what it hears of devices. -/
theorem cache_proceed (scene : Scene σ) {moment : Moment}
    (hcallers : ∀ cache, moment ≠ .refill cache) :
    (scene.proceed moment).session.cache =
      (Point.device? ⟨scene, moment⟩).elim scene.session.cache scene.session.cache.put := by
  cases moment with
  | start config => exact scene.session.cache_ensureStarted config
  | shutdown =>
    rw [proceed]
    cases hsubmit : scene.session.submit? .shutdown with
    | none => rfl
    | some submitted => exact Session.cache_of_submit? hsubmit
  | announce => exact scene.session.hands_announce.cache
  | begin operation => exact (scene.session.hands_beginCall operation).cache
  | attend number =>
    rw [proceed]
    split
    · rfl
    · rename_i call hcall
      exact (scene.session.hands_attend call).cache
  | refill cache => exact absurd rfl (hcallers cache)
  | pass milliseconds => rfl
  | work work =>
    have hwork := scene.session.cache_work work
    cases work <;> exact hwork

/-- What is known of the devices after a deed is what was known before, and the news. -/
theorem records_undergo {scene : Scene σ} {news : List News}
    (h : scene.session.cache.records = latestRecords (News.known news)) (deed : Deed) :
    (scene.undergo deed).session.cache.records =
      latestRecords (News.known (news ++ scene.news deed)) := by
  cases deed with
  | put record =>
    rw [Scene.news, News.known_concat_record]
    exact DeviceCache.records_put h record
  | clear =>
    rw [Scene.news, News.known_concat_cleared]
    rfl
  | moment moment hcallers =>
    have hcache := scene.cache_proceed hcallers
    rw [undergo, Deed.asMoment, hcache, Scene.news]
    cases Point.device? ⟨scene, moment⟩ with
    | none => simpa using h
    | some record =>
      rw [Option.toList_some, List.map_singleton, News.known_concat_record]
      exact DeviceCache.records_put h record

theorem records_afterDeeds (link : σ) (deeds : List Deed) :
    ((onLink link).afterDeeds deeds).session.cache.records =
      latestRecords (News.known ((onLink link).chronicle deeds)) := by
  induction deeds using List.reverseRecOn with
  | nil => rfl
  | append_singleton deeds deed ih =>
    rw [afterDeeds_concat, chronicle_concat]
    exact records_undergo ih deed

/-! ### What is passed over -/

theorem undergo_put_of_lt (scene : Scene σ) {record : DeviceRecord}
    (h : maxInstance < record.device) : scene.undergo (.put record) = scene := by
  rw [undergo, Deed.asMoment, DeviceCache.put_of_lt h]
  rfl

variable {scene : Scene σ} {engine : Engine σ} {source : Option Mac} {announcement : Announcement}
  {link : σ}

/-- The announcement of an object that is no device means nothing. -/
theorem session_listen_of_ne_device (halive : scene.session.alive? = some engine)
    (hreceive : Link.receive scene.session.link = (.heard (.iAm source announcement), link))
    (h : announcement.id.type ≠ .device) :
    (scene.proceed (.work .listen)).session = { scene.session with link := link } := by
  obtain ⟨worker, hworker, rfl⟩ := Option.map_eq_some_iff.mp halive
  have hlisten : Engine.listen { scene.session.toShared with toWorker := worker } =
      .ok { scene.session.toShared with toWorker := worker, link := link } := by
    rw [Engine.listen, hreceive]
    exact congrArg Except.ok (if_neg h)
  let after : Session σ := { scene.session with link := link }
  have hafter : after.alive? = some { after.toShared with toWorker := worker } :=
    Option.map_eq_some_iff.mpr ⟨worker, hworker, rfl⟩
  change scene.session.work .listen = after
  rw [Session.work_of_alive? halive, Engine.work, hlisten]
  exact Session.settle_running_self hafter

/-- What the engine of a session hears next is what comes from the link of the session. -/
theorem announced?_of_receive (halive : scene.session.alive? = some engine)
    (hreceive : Link.receive scene.session.link = (.heard (.iAm source announcement), link)) :
    engine.announced? =
      if announcement.id.type = .device then some (Engine.recordOf source announcement)
      else none := by
  obtain ⟨worker, -, rfl⟩ := Option.map_eq_some_iff.mp halive
  rw [Engine.announced?, hreceive]

theorem cache_listen_of_lt (halive : scene.session.alive? = some engine)
    (hreceive : Link.receive scene.session.link = (.heard (.iAm source announcement), link))
    (h : maxInstance < announcement.id.number) :
    (scene.proceed (.work .listen)).session.cache = scene.session.cache := by
  have hdevice : Point.device? ⟨scene, .work .listen⟩ = engine.announced? := by
    simp only [Point.device?, halive, Option.bind_some]
  rw [scene.cache_proceed (by rintro cache ⟨⟩), hdevice, announced?_of_receive halive hreceive]
  split
  · have hrecord : maxInstance < (Engine.recordOf source announcement).device := h
    exact DeviceCache.put_of_lt hrecord _
  · rfl

/-- **The cache has the last news of each device.**  Over any life of a session, across all its
engines, whether they stop or crash: of each device the cache has the record that came last since it
was last cleared, put in by a caller or made of the announcement that an engine heard, and none if
none came; the station of the device is that of the record; the records are in strictly ascending
order, and there is one for each device.  What is passed over changes nothing: a record or an
announcement whose instance number is none, and the announcement of an object that is no device. -/
theorem cache_of_last_news (link : σ) (deeds : List Deed) :
    let scene := (onLink link).afterDeeds deeds
    let cache := scene.session.cache
    let known := News.known ((onLink link).chronicle deeds)
    (∀ device,
      cache.get? device = (known.filter fun record => record.device = device).getLast? ∧
      cache.mac? device =
        (known.filter fun record => record.device = device).getLast?.bind DeviceRecord.mac) ∧
    (∀ device, maxInstance < device → cache.get? device = none) ∧
    LatestOf cache.records known ∧
    cache.size = (known.map DeviceRecord.device).toFinset.card ∧
    (∀ record, maxInstance < record.device →
      DeviceCache.accepts record = false ∧ scene.undergo (.put record) = scene) ∧
    ∀ engine source announcement after, scene.session.alive? = some engine →
      Link.receive scene.session.link = (.heard (.iAm source announcement), after) →
      (announcement.id.type ≠ .device →
        (scene.proceed (.work .listen)).session = { scene.session with link := after }) ∧
      (maxInstance < announcement.id.number →
        (scene.proceed (.work .listen)).session.cache = cache) := by
  intro scene cache known
  have hrecords : cache.records = latestRecords known := records_afterDeeds link deeds
  have hget (device : UInt32) :
      cache.get? device = (known.filter fun record => record.device = device).getLast? := by
    rw [DeviceCache.get?, hrecords, find?_latestRecords]
  have hlatest : LatestOf cache.records known := hrecords ▸ latestOf_latestRecords known
  refine ⟨fun device => ⟨hget device, by rw [DeviceCache.mac?, hget]⟩, fun device hlarge => ?_,
    hlatest, hlatest.length_eq_card,
    fun record hlarge => ⟨DeviceCache.accepts_of_lt hlarge, scene.undergo_put_of_lt hlarge⟩,
    fun engine source announcement after halive hreceive =>
      ⟨session_listen_of_ne_device halive hreceive, cache_listen_of_lt halive hreceive⟩⟩
  have hnone : (known.filter fun record => record.device = device) = [] := by
    rw [List.filter_eq_nil_iff]
    intro record hrecord hdevice
    have haccepts : record.device ≤ maxInstance :=
      of_decide_eq_true (List.mem_filter.mp hrecord).2
    rw [of_decide_eq_true hdevice] at haccepts
    exact UInt32.not_le.mpr hlarge haccepts
  rw [hget, hnone]
  rfl

/-- A device that one engine heard from one station, and the next engine from another. -/
theorem cache_of_last_news_across_restart :
    let heard (mac : Mac) : Indication := .iAm (some mac) ⟨⟨.device, 400⟩, 480, .none, 260⟩
    let point : Announcement := ⟨⟨.analogInput, 1⟩, 480, .none, 260⟩
    let record (device : UInt32) (mac : Mac) : DeviceRecord :=
      ⟨device, 480, "noSegmentation", 260, some mac⟩
    let link : Simulation.Segment := { inbox := [heard 4, heard 9, .iAm none point] }
    let start : Moment := .start (.forStation 1 "/dev/ttyS1")
    let deeds : List Deed :=
      [.moment start nofun, .put (record 8 3), .clear, .moment (.work .listen) nofun,
        .put (record 4194304 3), .moment .shutdown nofun, .moment (.work .obey) nofun,
        .moment start nofun, .put (record 7 3), .moment (.work .listen) nofun]
    let scene := (onLink link).afterDeeds deeds
    News.known ((onLink link).chronicle deeds) = [record 400 4, record 7 3, record 400 9] ∧
      scene.session.cache.get? 400 = some (record 400 9) ∧
      scene.session.cache.mac? 7 = some 3 ∧ scene.session.cache.get? 8 = none ∧
      scene.session.cache.size = 2 ∧ scene.session.cache.get? 4194304 = none ∧
      scene.undergo (.put (record 4194304 3)) = scene ∧
      (scene.proceed (.work .listen)).session = { scene.session with link := { link with
        inbox := []
        parameters := scene.session.link.parameters
        connects := 2
        disconnects := 1 } } := by
  intro heard point record link start deeds scene
  have hknown : News.known ((onLink link).chronicle deeds) =
      [record 400 4, record 7 3, record 400 9] := by
    decide +kernel
  -- named, so that the scene is not worked out anew wherever it is compared
  have hscene : (onLink link).afterDeeds deeds = scene := rfl
  have hnews := cache_of_last_news link deeds
  rw [hscene] at hnews
  obtain ⟨hget, hnone, -, hsize, hput, hlisten⟩ := hnews
  rw [hknown] at hget hsize
  obtain ⟨engine, halive⟩ : ∃ engine, scene.session.alive? = some engine :=
    Option.isSome_iff_exists.mp (by decide +kernel)
  refine ⟨hknown, (hget 400).1, (hget 7).2, (hget 8).1, hsize.trans (by decide),
    hnone 4194304 (by decide), (hput _ (by decide)).2, ?_⟩
  have hreceive : Link.receive scene.session.link = (.heard (.iAm none point), { link with
      inbox := []
      parameters := scene.session.link.parameters
      connects := 2
      disconnects := 1 }) := by
    decide +kernel
  exact (hlisten engine none point _ halive hreceive).1 (by decide)

end Scene

end Fieldbus
