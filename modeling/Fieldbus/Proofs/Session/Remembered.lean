import Fieldbus.Proofs.Session.Cache
import Fieldbus.Proofs.Session.Discovery
import Fieldbus.Proofs.Session.Listing
import Fieldbus.Session.Property

/-!
# What a discovery yields is remembered

What an engine hears of a device it hands to the windows that are open, and puts into the cache.
The windows take what the cache takes and one thing more, a device whose instance number is none.
So, as long as the cache is not cleared, every other device that a discovery has yielded is in the
cache, with what has last come of it since the discovery began, and is found by its number at the
station that this names.

## Main definitions

* `Window.records`, `Desk.recordsOf`: the records that have come into a window.
* `Scene.Tells`: a discovery that yields only what has come as news.

## Main results

* `Scene.mem_recordsOf_proceed`: what comes into the windows was heard.
* `Scene.Tells.undergo`: what a discovery yields was heard since it began.
* `Scene.get?_of_mem_chronicle`: what has come is in the cache.
* `Scene.cached_of_discovery`: windows and cache agree.
-/

namespace Fieldbus

/-! ### What has come into a window -/

/-- The records that have come into a window, fetched or not. -/
def Window.records (window : Window) : List DeviceRecord := window.fetched ++ window.waiting

theorem Window.mem_records_deliver {window : Window} {record heard : DeviceRecord}
    (h : record ∈ (window.deliver heard).records) : record ∈ window.records ∨ record = heard := by
  rw [deliver] at h
  split at h
  · simpa [records, or_assoc] using h
  · exact .inl h

namespace Desk

/-- The records that have come into the window with a number. -/
def recordsOf (desk : Desk) (id : WindowId) : List DeviceRecord :=
  (desk.window? id).elim [] Window.records

variable {desk other : Desk} {id : WindowId} {record heard : DeviceRecord}

theorem mem_recordsOf : record ∈ desk.recordsOf id ↔
    ∃ window, desk.window? id = some window ∧ record ∈ window.records := by
  rw [recordsOf]
  cases desk.window? id <;> simp

theorem recordsOf_congr (h : other.windows = desk.windows) (id : WindowId) :
    other.recordsOf id = desk.recordsOf id := by
  rw [recordsOf, window?, h, recordsOf, window?]

theorem recordsOf_mapWindow {change : Window → Window}
    (h : ∀ window, (change window).records = window.records) (desk : Desk) (changed id : WindowId) :
    (desk.mapWindow changed change).recordsOf id = desk.recordsOf id := by
  rw [recordsOf, recordsOf]
  by_cases hsame : id = changed
  · rw [hsame, window?_mapWindow_self]
    cases desk.window? changed with
    | none => rfl
    | some window => exact h window
  · rw [window?_mapWindow_of_ne desk hsame]

theorem recordsOf_openWindow (desk : Desk) (capacity : Nat) (id : WindowId) :
    (desk.openWindow capacity).2.recordsOf id = desk.recordsOf id := by
  rw [recordsOf, recordsOf]
  change ((desk.windows ++ [_])[id]?).elim [] _ = (desk.windows[id]?).elim [] _
  rcases Nat.lt_trichotomy id desk.windows.length with hlt | rfl | hgt
  · rw [List.getElem?_append_left hlt]
  · rw [List.getElem?_concat_length, List.getElem?_eq_none le_rfl]
    rfl
  · rw [List.getElem?_eq_none hgt.le, List.getElem?_eq_none]
    rw [List.length_append]
    exact hgt

theorem mem_recordsOf_mapWindow_deliver {changed : WindowId}
    (h : record ∈ (desk.mapWindow changed fun window => window.deliver heard).recordsOf id) :
    record ∈ desk.recordsOf id ∨ record = heard := by
  by_cases hsame : id = changed
  · obtain ⟨window, hwindow, hmem⟩ := mem_recordsOf.mp h
    rw [hsame, window?_mapWindow_self] at hwindow
    obtain ⟨before, hbefore, rfl⟩ := Option.map_eq_some_iff.mp hwindow
    exact (Window.mem_records_deliver hmem).imp_left fun hold =>
      mem_recordsOf.mpr ⟨before, hsame ▸ hbefore, hold⟩
  · rw [recordsOf, window?_mapWindow_of_ne desk hsame] at h
    exact .inl h

theorem mem_recordsOf_deliver {windows : List WindowId}
    (h : record ∈ (desk.deliver windows heard).recordsOf id) :
    record ∈ desk.recordsOf id ∨ record = heard := by
  rw [deliver] at h
  induction windows generalizing desk with
  | nil => exact .inl h
  | cons first rest ih => exact (ih h).elim mem_recordsOf_mapWindow_deliver .inr

end Desk

namespace Session

variable {σ : Type}

theorem desk_of_submit? {before after : Session σ} {command : Command}
    (h : before.submit? command = some after) : after.desk = before.desk := by
  obtain ⟨run, worker, -, -, rfl⟩ := exists_of_submit? h
  rfl

theorem recordsOf_beginCall (session : Session σ) (operation : Operation) (id : WindowId) :
    (session.beginCall operation).2.desk.recordsOf id = session.desk.recordsOf id := by
  rcases hbegin : session.beginCall operation with ⟨call, after⟩
  cases begins_of_beginCall hbegin with
  | answered => rfl
  | requests _ _ hhands =>
    obtain ⟨desk, mac, request, responder, hwindows, hsubmit⟩ := hhands
    exact Desk.recordsOf_congr (by rw [desk_of_submit? hsubmit, hwindows]) id
  | opens hsubmit =>
    change Desk.recordsOf after.desk id = _
    rw [desk_of_submit? hsubmit]
    exact session.desk.recordsOf_openWindow _ id

theorem recordsOf_fetch (session : Session σ) (discovery : Discovery) (id : WindowId) :
    (session.fetch discovery).desk.recordsOf id = session.desk.recordsOf id := by
  refine session.desk.recordsOf_mapWindow (fun window => ?_) _ id
  rw [Window.fetch]
  split
  · rfl
  · simp [Window.records, *]

theorem recordsOf_endDiscovery (session : Session σ) (discovery : Discovery) (id : WindowId) :
    (session.endDiscovery discovery).desk.recordsOf id = session.desk.recordsOf id := by
  have hclosed := session.desk.recordsOf_mapWindow (fun window : Window =>
    show window.close.records = window.records from rfl) discovery.window id
  rw [endDiscovery]
  cases hsubmit : submit? { session with
      desk := session.desk.mapWindow discovery.window Window.close }
      (.endDiscovery discovery.window) with
  | none => exact hclosed
  | some submitted => exact (congrArg (·.recordsOf id) (desk_of_submit? hsubmit)).trans hclosed

theorem recordsOf_attend (session : Session σ) (call : Call) (id : WindowId) :
    (session.attend call).2.desk.recordsOf id = session.desk.recordsOf id := by
  rw [attend]
  split
  · cases call with
    | discover discovery waits => exact session.recordsOf_endDiscovery discovery id
    | enumerate walking => rfl
    | _ => rfl
  · rcases session.collect_eq_self_or_fetch call with hsame | ⟨discovery, -, hfetched⟩
    · rw [hsame]
    · rw [hfetched]
      exact session.recordsOf_fetch discovery id

theorem mem_recordsOf_of_mem_found {session : Session σ} {discovery : Discovery}
    {record : DeviceRecord} (h : record ∈ session.found discovery) :
    record ∈ session.desk.recordsOf discovery.window := by
  have hfetched := (latestOf_latestRecords _).mem h
  cases hwindow : session.desk.window? discovery.window with
  | none =>
    rw [hwindow] at hfetched
    cases hfetched
  | some window =>
    rw [hwindow] at hfetched
    exact Desk.mem_recordsOf.mpr ⟨window, hwindow, List.mem_append_left _ hfetched⟩

end Session

namespace Scene

variable {σ : Type} [Link σ] {scene : Scene σ} {id : WindowId} {record : DeviceRecord}

theorem recordsOf_proceed (scene : Scene σ) {moment : Moment} (h : ∀ work, moment ≠ .work work)
    (id : WindowId) :
    (scene.proceed moment).session.desk.recordsOf id = scene.session.desk.recordsOf id := by
  cases moment with
  | begin operation => exact scene.session.recordsOf_beginCall operation id
  | attend number =>
    rw [proceed]
    split
    · rfl
    · exact scene.session.recordsOf_attend _ id
  | work work => exact absurd rfl (h work)
  | _ =>
    have hspares := scene.sparesBut_proceed h
    rw [Desk.recordsOf, hspares.window id (by rintro ⟨⟩), Desk.recordsOf]

/-- **What is in a window was there before, or has just been heard.** -/
theorem mem_recordsOf_proceed {moment : Moment}
    (h : record ∈ (scene.proceed moment).session.desk.recordsOf id) :
    record ∈ scene.session.desk.recordsOf id ∨ Point.device? ⟨scene, moment⟩ = some record := by
  by_cases hwork : ∃ work, moment = .work work
  · obtain ⟨work, rfl⟩ := hwork
    change record ∈ (scene.session.work work).desk.recordsOf id at h
    cases halive : scene.session.alive? with
    | none =>
      rw [Session.work, halive] at h
      exact .inl h
    | some engine =>
      rw [Session.work_of_alive? halive] at h
      rw [← Session.desk_of_alive? halive]
      have haffects := engine.affects_work work
      generalize engine.work work = turn at h haffects
      cases haffects with
      | keeps hkeeps =>
        rw [Session.desk_settle_running, Desk.recordsOf_congr hkeeps.windows] at h
        exact .inl h
      | obeys hqueue =>
        rw [Session.desk_settle_running, Desk.recordsOf_congr (Engine.windows_handle _ _)] at h
        exact .inl h
      | hears hannounced hlisten =>
        obtain ⟨-, -, hdelivered⟩ := Engine.listen_announced hlisten hannounced
        rw [Session.desk_settle_running, hdelivered] at h
        refine (Desk.mem_recordsOf_deliver h).imp_right ?_
        rintro rfl
        simpa [Point.device?, halive] using hannounced
      | stops hqueue hwindows =>
        rw [Session.desk_settle_stopped, Desk.recordsOf_congr hwindows] at h
        exact .inl h
      | crashes hne hlisten hwindows =>
        rw [Session.desk_settle_crashed, Desk.recordsOf_congr hwindows] at h
        exact .inl h
  · rw [scene.recordsOf_proceed (fun work heq => hwork ⟨work, heq⟩)] at h
    exact .inl h

/-! ### What a discovery tells -/

/-- A discovery that yields only what has come as news: it is under way, and its window has nothing
else, or it has its answer, with nothing else in it. -/
inductive Tells (scene : Scene σ) (number : Nat) (news : List News) : Prop
  | underway (discovery : Discovery) (waits : Bool)
      (hcall : scene.calls[number]? = some (.discover discovery waits))
      (hwindow : ∀ record ∈ scene.session.desk.recordsOf discovery.window, .record record ∈ news)
  | answered (answer : Answer) (hcall : scene.calls[number]? = some (.answered answer))
      (hrecords : ∀ records, answer = .devices (.ok records) →
        ∀ record ∈ records, .record record ∈ news)

namespace Tells

variable {number : Nat} {news : List News}

theorem attend (h : scene.Tells number news) :
    (scene.proceed (.attend number)).Tells number news := by
  cases h with
  | answered answer hcall hrecords =>
    exact .answered answer (calls_proceed_of_answered hcall _) hrecords
  | underway discovery waits hcall hwindow =>
    have hlt : number < scene.calls.length := (List.getElem?_eq_some_iff.mp hcall).1
    have hattends := scene.session.attends_attend discovery waits
    rw [proceed_attend hcall]
    generalize scene.session.attend (.discover discovery waits) = attended at hattends
    obtain ⟨call, after⟩ := attended
    -- nothing comes into the window of a discovery that goes on; one that ends yields what is there
    cases hattends with
    | looks => exact .underway discovery true (List.getElem?_set_self hlt) hwindow
    | waits => exact .underway discovery true (List.getElem?_set_self hlt) hwindow
    | takes =>
      have hfetched := scene.session.recordsOf_fetch discovery discovery.window
      exact .underway discovery false (List.getElem?_set_self hlt) (hfetched ▸ hwindow)
    | leaves | stops =>
      refine .answered _ (List.getElem?_set_self hlt) fun records heq record hmem => ?_
      cases heq
      exact hwindow record (Session.mem_recordsOf_of_mem_found hmem)

/-- **What a discovery yields was heard since it began.** -/
theorem proceed (h : scene.Tells number news) (moment : Moment) :
    (scene.proceed moment).Tells number
      (news ++ (Point.device? ⟨scene, moment⟩).toList.map .record) := by
  by_cases hattend : moment = .attend number
  · subst hattend
    have hsilent : Point.device? ⟨scene, .attend number⟩ = none := rfl
    rw [hsilent, Option.toList_none, List.map_nil, List.append_nil]
    exact h.attend
  · cases h with
    | answered answer hcall hrecords =>
      exact .answered answer (calls_proceed_of_ne hcall hattend) fun records heq record hmem =>
        List.mem_append_left _ (hrecords records heq record hmem)
    | underway discovery waits hcall hwindow =>
      refine .underway discovery waits (calls_proceed_of_ne hcall hattend) fun record hmem => ?_
      rcases mem_recordsOf_proceed hmem with hold | hheard
      · exact List.mem_append_left _ (hwindow record hold)
      · exact List.mem_append_right _ (by simp [hheard])

omit [Link σ] in
theorem concat (h : scene.Tells number news) (more : List News) :
    scene.Tells number (news ++ more) := by
  cases h with
  | underway discovery waits hcall hwindow =>
    exact .underway discovery waits hcall fun record hmem =>
      List.mem_append_left _ (hwindow record hmem)
  | answered answer hcall hrecords =>
    exact .answered answer hcall fun records heq record hmem =>
      List.mem_append_left _ (hrecords records heq record hmem)

theorem undergo (h : scene.Tells number news) (deed : Deed) :
    (scene.undergo deed).Tells number (news ++ scene.news deed) := by
  cases deed with
  | moment moment hcallers => exact h.proceed moment
  | put record => exact Tells.concat (List.append_nil news ▸ h.proceed (.refill _)) _
  | clear => exact Tells.concat (List.append_nil news ▸ h.proceed (.refill _)) _

/-- What a discovery yields has come as news since it began. -/
theorem afterDeeds (h : scene.Tells number []) (deeds : List Deed) :
    (scene.afterDeeds deeds).Tells number (scene.chronicle deeds) := by
  induction deeds using List.reverseRecOn with
  | nil => exact h
  | append_singleton deeds deed ih =>
    rw [afterDeeds_concat, chronicle_concat]
    exact ih.undergo deed

theorem of_begin (scene : Scene σ) (timeout : Nat) (station : Option Mac)
    (low high : Option UInt32) :
    (scene.proceed (.begin (.discover timeout station low high))).Tells scene.calls.length [] := by
  have hlast (call : Call) : (scene.calls ++ [call])[scene.calls.length]? = some call :=
    List.getElem?_concat_length
  have hempty (id : WindowId) := scene.session.recordsOf_beginCall
    (.discover timeout station low high) id
  rcases scene.session.beginCall_discover_cases timeout station low high with
    ⟨-, hbegin⟩ | ⟨-, -, hbegin⟩ | ⟨run, worker, capacity, lowest, highest, -, -, hbegin, -⟩
  all_goals rw [Scene.proceed]
  all_goals rw [hbegin] at hempty ⊢
  · refine .answered _ (hlast _) fun records heq => ?_
    cases heq
  · refine .answered _ (hlast _) fun records heq record hmem => ?_
    cases heq
    cases hmem
  · refine .underway _ false (hlast _) fun record hmem => ?_
    rw [hempty, Desk.recordsOf, Desk.window?, List.getElem?_eq_none le_rfl] at hmem
    cases hmem

end Tells

/-! ### What is remembered -/

theorem cleared_notMem_chronicle (scene : Scene σ) {deeds : List Deed} (h : .clear ∉ deeds) :
    .cleared ∉ scene.chronicle deeds := by
  induction deeds generalizing scene with
  | nil => exact List.not_mem_nil
  | cons deed rest ih =>
    obtain ⟨hdeed, hrest⟩ := not_or.mp (List.mem_cons.not.mp h)
    refine List.mem_append.not.mpr (not_or.mpr ⟨?_, ih _ hrest⟩)
    cases deed with
    | clear => exact absurd rfl hdeed
    | put record => simp [news]
    | moment moment hcallers => simp [news]

/-- Of each device the cache has the last that is known of it. -/
theorem get?_afterDeeds (link : σ) (deeds : List Deed) (device : UInt32) :
    ((onLink link).afterDeeds deeds).session.cache.get? device =
      ((News.known ((onLink link).chronicle deeds)).filter
        fun record => record.device = device).getLast? := by
  rw [DeviceCache.get?, records_afterDeeds, find?_latestRecords]

/-- What has come of a device since some time is in the cache in its last form, if the cache was not
cleared since. -/
theorem get?_of_mem_chronicle (link : σ) (earlier : List Deed) {later : List Deed}
    (hclear : .clear ∉ later)
    (hrecord : .record record ∈ ((onLink link).afterDeeds earlier).chronicle later)
    (hdevice : record.device ≤ maxInstance) :
    ∃ cached, ((News.known (((onLink link).afterDeeds earlier).chronicle later)).filter
          fun other => other.device = record.device).getLast? = some cached ∧
      (((onLink link).afterDeeds earlier).afterDeeds later).session.cache.get? record.device =
        some cached := by
  have hcleared := ((onLink link).afterDeeds earlier).cleared_notMem_chronicle hclear
  have hmem : record ∈ (News.known (((onLink link).afterDeeds earlier).chronicle later)).filter
      fun other => other.device = record.device :=
    List.mem_filter.mpr ⟨News.mem_known hrecord hcleared hdevice, decide_eq_true rfl⟩
  have hlast := List.getLast?_eq_some_getLast (List.ne_nil_of_mem hmem)
  refine ⟨_, hlast, ?_⟩
  rw [← afterDeeds_append, get?_afterDeeds, chronicle_append, News.known_append hcleared,
    List.filter_append, List.getLast?_append, hlast]
  rfl

theorem le_maxInstance_of_get? (link : σ) (deeds : List Deed) {device : UInt32}
    {cached : DeviceRecord}
    (h : ((onLink link).afterDeeds deeds).session.cache.get? device = some cached) :
    device ≤ maxInstance := by
  rw [get?_afterDeeds] at h
  obtain ⟨hknown, hdevice⟩ := List.mem_filter.mp (List.mem_of_getLast? h)
  rw [← of_decide_eq_true hdevice]
  exact News.le_maxInstance_of_mem_known hknown

end Scene

theorem Session.locate_device {σ : Type} {session : Session σ} {device : UInt32}
    {cached : DeviceRecord} {mac : Mac} (hrun : session.run?.isSome = true)
    (hget : session.cache.get? device = some cached) (hmac : cached.mac = some mac) :
    session.locate (.device device) = .ok mac := by
  obtain ⟨run, hrun⟩ := Option.isSome_iff_exists.mp hrun
  rw [locate, engine, hrun, DeviceCache.mac?, hget, Option.bind_some, hmac]
  rfl

namespace Scene

variable {σ : Type} [Link σ]

theorem sound_afterDeeds (link : σ) (deeds : List Deed) :
    ((onLink link).afterDeeds deeds).Sound ∧ ((onLink link).afterDeeds deeds).ListsOnce := by
  induction deeds using List.reverseRecOn with
  | nil => exact ⟨sound_onLink link, listsOnce_onLink link⟩
  | append_singleton deeds deed ih =>
    rw [afterDeeds_concat]
    exact ⟨ih.1.proceed _, ih.2.proceed ih.1 _⟩

/-- **Windows and cache agree on all devices that there can be.**  Over any life of a session: an
announcement of an object that is no device changes nothing.  The record of a device that announces
itself comes once into every window that the engine lists, that is wanted and has room, and no other
window changes; and it comes into the cache, in place of the last one of its device, if its instance
number is one, and changes nothing there otherwise.  So, as long as the cache is not cleared, what a
discovery has yielded has come since it began; and if the instance number of a device that it has
yielded is one, the cache has what has last come of it since then, and its station, if that is
known, is found by its number while the session runs; of other devices the cache has nothing. -/
theorem cached_of_discovery (link : σ) (deeds : List Deed) :
    let scene := (onLink link).afterDeeds deeds
    (∀ engine source announcement after, scene.session.alive? = some engine →
      Link.receive scene.session.link = (.heard (.iAm source announcement), after) →
      let heard := (scene.proceed (.work .listen)).session
      let record := Engine.recordOf source announcement
      (announcement.id.type ≠ .device → heard = { scene.session with link := after }) ∧
      (announcement.id.type = .device →
        (∀ id window, scene.session.desk.window? id = some window →
          heard.desk.window? id = some (
            if id ∈ engine.listeners ∧ window.wanted = true ∧
              window.waiting.length < window.capacity
            then { window with waiting := window.waiting ++ [record] } else window)) ∧
        ∀ device, heard.cache.get? device =
          if record.device = device ∧ device ≤ maxInstance then some record
          else scene.session.cache.get? device)) ∧
    ∀ timeout station low high later records,
      let begun := scene.proceed (.begin (.discover timeout station low high))
      let ended := begun.afterDeeds later
      .clear ∉ later →
      ended.calls[scene.calls.length]? = some (.answered (.devices (.ok records))) →
      ∀ record ∈ records,
        .record record ∈ begun.chronicle later ∧
        (maxInstance < record.device → ended.session.cache.get? record.device = none) ∧
        (record.device ≤ maxInstance → ∃ cached,
          ((News.known (begun.chronicle later)).filter
            fun other => other.device = record.device).getLast? = some cached ∧
          ended.session.cache.get? record.device = some cached ∧
          ∀ mac, cached.mac = some mac → ended.session.run?.isSome = true →
            ended.session.locate (.device record.device) = .ok mac) := by
  intro scene
  obtain ⟨-, honce⟩ := sound_afterDeeds link deeds
  constructor
  · intro engine source announcement after halive hreceive heard record
    refine ⟨session_listen_of_ne_device halive hreceive, fun htype => ?_⟩
    have hannounced := announced?_of_receive halive hreceive
    rw [if_pos htype] at hannounced
    refine ⟨fun id window hwindow => ?_, fun device => ?_⟩
    · rw [honce.window?_listen halive hannounced hwindow, Window.deliver]
      congr 1
      split_ifs <;> tauto
    · have hdevice : Point.device? ⟨scene, .work .listen⟩ = some record := by
        simpa [Point.device?, halive] using hannounced
      rw [scene.cache_proceed (by rintro cache ⟨⟩), hdevice]
      exact scene.session.cache.get?_put record device
  · intro timeout station low high later records begun ended hclear hanswer record hmem
    have hbegun : (onLink link).afterDeeds
        (deeds ++ [.moment (.begin (.discover timeout station low high)) (by rintro cache ⟨⟩)]) =
          begun :=
      (onLink link).afterDeeds_concat deeds _
    have hheard : .record record ∈ begun.chronicle later := by
      cases (Tells.of_begin scene timeout station low high).afterDeeds later with
      | underway discovery waits hcall => cases hcall.symm.trans hanswer
      | answered answer hcall hrecords =>
        have heq := Call.answered.inj (Option.some.inj (hcall.symm.trans hanswer))
        exact hrecords records heq record hmem
    refine ⟨hheard, fun hlarge => ?_, fun hdevice => ?_⟩
    · refine Option.eq_none_iff_forall_ne_some.mpr fun cached hcached => ?_
      rw [show ended = begun.afterDeeds later from rfl, ← hbegun, ← afterDeeds_append] at hcached
      exact UInt32.not_le.mpr hlarge (le_maxInstance_of_get? link _ hcached)
    · rw [← hbegun] at hheard
      obtain ⟨cached, hlast, hcached⟩ := get?_of_mem_chronicle link _ hclear hheard hdevice
      rw [hbegun] at hlast hcached
      exact ⟨cached, hlast, hcached, fun mac hmac hrun =>
        Session.locate_device hrun hcached hmac⟩

/-- A segment where a device announces itself twice, an object that is no device once, and then a
device whose instance number is none. -/
def remembering : Simulation.Segment where
  inbox :=
    [.iAm (some 5) ⟨⟨.device, 8⟩, 480, .none, 260⟩,
     .iAm (some 5) ⟨⟨.analogInput, 3⟩, 480, .none, 260⟩,
     .iAm (some 6) ⟨⟨.device, 8⟩, 480, .none, 260⟩,
     .iAm (some 7) ⟨⟨.device, 4194304⟩, 480, .none, 260⟩]

/-- A device announces itself while a discovery is under way, and once more after it. -/
theorem cached_of_discovery_remembering :
    let start : Deed := .moment (.start (.forStation 1 "/dev/ttyS1")) nofun
    let listen : Deed := .moment (.work .listen) nofun
    let attend : Deed := .moment (.attend 0) nofun
    let record (mac : Mac) : DeviceRecord := ⟨8, 480, "noSegmentation", 260, some mac⟩
    let opening : List Deed := [start, .moment (.begin (.discover 100 none none none)) nofun,
      .moment (.work .obey) nofun]
    let heard := ((onLink remembering).afterDeeds opening).proceed (.work .listen)
    let later : List Deed := [.moment (.work .obey) nofun, listen, attend, attend,
      .moment (.pass 100) nofun, attend, listen, listen]
    let ended := (((onLink remembering).afterDeeds [start]).proceed
      (.begin (.discover 100 none none none))).afterDeeds later
    heard.session.desk.window? 0 = some { capacity := 256, waiting := [record 5] } ∧
      heard.session.cache.get? 8 = some (record 5) ∧
      (heard.proceed (.work .listen)).session.cache = heard.session.cache ∧
      ended.calls[0]? = some (.answered (.devices (.ok [record 5]))) ∧
      ended.session.cache.get? 8 = some (record 6) ∧
      ended.session.locate (.device 8) = .ok 6 := by
  intro start listen attend record opening heard later ended
  have hlists : ((onLink remembering).afterDeeds opening).session.alive?.map (·.listeners) =
      some [0] := by decide +kernel
  obtain ⟨engine, halive, hlisteners⟩ := Option.map_eq_some_iff.mp hlists
  have hnext : (Link.receive ((onLink remembering).afterDeeds opening).session.link).1 =
      .heard (.iAm (some 5) ⟨⟨.device, 8⟩, 480, .none, 260⟩) := by decide +kernel
  obtain ⟨hwindows, hcache⟩ := ((cached_of_discovery remembering opening).1
    engine _ _ _ halive (Prod.ext hnext rfl)).2 rfl
  obtain ⟨engine', halive'⟩ : ∃ engine, heard.session.alive? = some engine :=
    Option.isSome_iff_exists.mp (by decide +kernel)
  have hnext' : (Link.receive heard.session.link).1 =
      .heard (.iAm (some 5) ⟨⟨.analogInput, 3⟩, 480, .none, 260⟩) := by decide +kernel
  have hother := ((cached_of_discovery remembering (opening ++ [listen])).1
    engine' _ _ _ halive' (Prod.ext hnext' rfl)).1 (by decide)
  have hanswer : ended.calls[0]? = some (.answered (.devices (.ok [record 5]))) :=
    calls_of_devices? (by decide +kernel)
  obtain ⟨-, -, hcached⟩ := (cached_of_discovery remembering [start]).2 100 none none none later _
    (by simp [later, listen, attend]) hanswer (record 5) (List.mem_singleton_self _)
  obtain ⟨cached, hlast, hget, hlocate⟩ := hcached (by decide)
  have hknown : ((News.known ((((onLink remembering).afterDeeds [start]).proceed
      (.begin (.discover 100 none none none))).chronicle later)).filter
        fun other => other.device = 8).getLast? = some (record 6) := by
    decide +kernel
  obtain rfl : record 6 = cached := Option.some.inj (hknown.symm.trans hlast)
  -- written out, so that the scenes are not worked out where they are compared
  dsimp only [heard, ended]
  refine ⟨?_, (hcache 8).trans (by decide), congrArg (·.cache) hother, hanswer, hget,
    hlocate 6 rfl (by decide +kernel)⟩
  rw [hwindows 0 { capacity := 256 } (by decide +kernel), hlisteners]
  rfl

/-- The last device that announces itself on the segment is yielded to a discovery, and not
remembered. -/
theorem beyond_instances_forgotten :
    let listen : Moment := .work .listen
    let scene := (onLink remembering).after
      [.start (.forStation 1 "/dev/ttyS1"), listen, listen, listen,
        .begin (.discover 100 none none none), .work .obey, listen, .attend 0, .attend 0,
        .pass 100, .attend 0]
    scene.calls[0]? = some (.answered (.devices (.ok
        [⟨4194304, 480, "noSegmentation", 260, some 7⟩]))) ∧
      scene.session.cache.get? 4194304 = none ∧
      scene.session.locate (.device 4194304) = .error (.unknownDevice 4194304) := by
  intro listen scene
  exact ⟨calls_of_devices? (by decide +kernel), by decide +kernel, by decide +kernel⟩

end Scene

end Fieldbus
