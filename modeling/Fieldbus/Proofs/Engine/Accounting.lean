import Fieldbus.Proofs.Engine.Step

/-!
# Accounting for clients

In a run of an engine each client is in exactly one of three places: its command waits for the
engine, its request waits for an answer, or it has got its end.  Every step keeps this, and keeps
the ids of the waiting requests distinct.

## Main definitions

* `Engine.Takes`: an engine without the command or request that it deals with.
* `Engine.Sound`: the invariant of a run.

## Main results

* `Engine.Sound.deals`: what a step does for its client.
* `Engine.Sound.of_reaches`: the invariant holds at every point of a run.
-/

namespace Fieldbus.Engine

variable {σ : Type}

/-- An engine without the command or the waiting request of a client that it deals with. -/
structure Takes (before : Engine σ) (destination : Mac) (client : Client) (middle : Engine σ) :
    Prop where
  desk : middle.desk = before.desk
  taken : (∃ request responder, responder.client = client ∧
      before.commands = .request destination request responder :: middle.commands ∧
      middle.pending = before.pending) ∨
    ∃ entry ∈ before.pending, entry.responder.client = client ∧
      entry.destination = destination ∧ middle.commands = before.commands ∧
      middle.pending = (before.drop entry.id).pending

/-- An engine after something that is nobody's request: at most a caller has stopped waiting for a
walk. -/
structure Keeps (before after : Engine σ) : Prop where
  queued : ∀ client, after.queued client = before.queued client
  commanded : ∀ destination request responder,
    .request destination request responder ∈ after.commands →
      .request destination request responder ∈ before.commands
  pending : after.pending = before.pending
  tickets : after.desk.tickets = before.desk.tickets
  length_reports : after.desk.reports.length = before.desk.reports.length
  answers : ∀ ticket, after.desk.answers ticket = before.desk.answers ticket
  report : ∀ report, after.desk.report report = before.desk.report report ∨
    after.desk.report report = (before.desk.report report).abandon

/-- An engine after a new client has handed it a command. -/
structure Opens (before : Engine σ) (destination : Mac) (request : ConfirmedRequest)
    (responder : Responder) (after : Engine σ) : Prop where
  commands : after.commands = before.commands ++ [.request destination request responder]
  pending : after.pending = before.pending
  addressed : ∀ walk, responder = .walk walk → walk.destination = destination
  new : ¬ before.desk.Knows responder.client
  knows_iff : ∀ client,
    after.desk.Knows client ↔ before.desk.Knows client ∨ client = responder.client
  answers : ∀ ticket, after.desk.answers ticket = before.desk.answers ticket
  report : ∀ report, before.desk.Knows (.report report) →
    after.desk.report report = before.desk.report report
  ends : after.desk.ends responder.client = 0

theorem Opens.queued {before after : Engine σ} {destination : Mac} {request : ConfirmedRequest}
    {responder : Responder} (h : before.Opens destination request responder after)
    (client : Client) :
    after.queued client = before.queued client ++
      if responder.client = client then [.request destination request responder] else [] := by
  rw [Worker.queued, h.commands, List.filter_append]
  congr 1
  by_cases hclient : responder.client = client <;> simp [Command.client?, hclient]

/-- The invariant of a run that began with a given desk. -/
structure Sound (start : Desk) (engine : Engine σ) : Prop where
  desk : engine.desk.Sound
  grows : ∀ client, start.Knows client → engine.desk.Knows client
  ids : (engine.pending.map Pending.id).Nodup
  addressed : ∀ entry ∈ engine.pending, ∀ walk, entry.responder = .walk walk →
    walk.destination = entry.destination
  commanded : ∀ destination request walk,
    .request destination request (.walk walk) ∈ engine.commands → walk.destination = destination
  /-- Only clients of the run have commands or requests. -/
  current : ∀ client, engine.queued client ≠ [] ∨ engine.waiting client ≠ [] →
    engine.desk.Knows client ∧ ¬ start.Knows client
  /-- A client of the run is in one place. -/
  once : ∀ client, engine.desk.Knows client → ¬ start.Knows client →
    (engine.queued client).length + (engine.waiting client).length + engine.desk.ends client = 1

theorem Takes.ne_nil {before middle : Engine σ} {destination : Mac} {client : Client}
    (h : before.Takes destination client middle) :
    before.queued client ≠ [] ∨ before.waiting client ≠ [] := by
  rcases h.taken with ⟨request, responder, hclient, hcommands, -⟩ | ⟨entry, hentry, hclient, -⟩
  · have hmem : .request destination request responder ∈ before.queued client :=
      Worker.mem_queued.mpr ⟨hcommands ▸ List.mem_cons_self, congrArg some hclient⟩
    exact .inl (List.ne_nil_of_mem hmem)
  · exact .inr (List.ne_nil_of_mem (Worker.mem_waiting.mpr ⟨hentry, hclient⟩))

namespace Sound

variable {start : Desk} {before middle after : Engine σ} {destination : Mac} {client : Client}

/-- What is taken from a client is all it had. -/
theorem of_takes (h : before.Sound start) (htakes : before.Takes destination client middle) :
    before.desk.Knows client ∧ ¬ start.Knows client ∧ before.desk.ends client = 0 ∧
      middle.queued client = [] ∧ middle.waiting client = [] := by
  rcases htakes.taken with ⟨request, responder, hclient, hcommands, hpending⟩ |
    ⟨entry, hentry, hclient, -, hcommands, hpending⟩
  · have hqueued : before.queued client =
        .request destination request responder :: middle.queued client := by
      rw [Worker.queued, hcommands, List.filter_cons_of_pos (by simp [Command.client?, hclient])]
      rfl
    have hwaiting : middle.waiting client = before.waiting client := by
      rw [Worker.waiting, hpending]
      rfl
    obtain ⟨hknows, hnew⟩ := h.current client (.inl (by simp [hqueued]))
    have honce := h.once client hknows hnew
    rw [hqueued, List.length_cons] at honce
    refine ⟨hknows, hnew, by omega, List.length_eq_zero_iff.mp (by omega), ?_⟩
    exact List.length_eq_zero_iff.mp (by rw [hwaiting]; omega)
  · have hmem : entry ∈ before.waiting client := Worker.mem_waiting.mpr ⟨hentry, hclient⟩
    have hpos := List.length_pos_of_mem hmem
    obtain ⟨hknows, hnew⟩ := h.current client (.inr (List.ne_nil_of_mem hmem))
    have honce := h.once client hknows hnew
    have hqueued : middle.queued client = before.queued client := by
      rw [Worker.queued, hcommands]
      rfl
    -- the only waiting request of the client is the one under the id that is dropped
    obtain ⟨only, hwaiting⟩ := List.length_eq_one_iff.mp
      (show (before.waiting client).length = 1 by omega)
    have hsame : entry = only := by simpa [hwaiting] using hmem
    have hdropped : middle.waiting client =
        (before.waiting client).filter fun other => other.id ≠ entry.id := by
      rw [Worker.waiting, hpending, Worker.drop, Worker.waiting, List.filter_comm]
    refine ⟨hknows, hnew, by omega, ?_, ?_⟩
    · exact List.length_eq_zero_iff.mp (by rw [hqueued]; omega)
    · rw [hdropped, hwaiting, hsame]
      simp

/-- What is taken from a client is nothing of another one. -/
theorem of_takes_of_ne (h : before.Sound start) (htakes : before.Takes destination client middle)
    {other : Client} (hne : client ≠ other) :
    middle.queued other = before.queued other ∧ middle.waiting other = before.waiting other := by
  rcases htakes.taken with ⟨request, responder, hclient, hcommands, hpending⟩ |
    ⟨entry, hentry, hclient, -, hcommands, hpending⟩
  · constructor
    · rw [Worker.queued, Worker.queued, hcommands,
        List.filter_cons_of_neg (by simp [Command.client?, hclient, hne])]
    · rw [Worker.waiting, Worker.waiting, hpending]
  · constructor
    · rw [Worker.queued, Worker.queued, hcommands]
    · rw [Worker.waiting, hpending]
      exact Worker.waiting_drop_of_ne h.ids hentry (hclient ▸ hne)

theorem of_serves_of_ne (h : before.Sound start) (htakes : before.Takes destination client middle)
    (hserves : middle.Serves destination client after) {other : Client} (hne : client ≠ other) :
    after.queued other = before.queued other ∧ after.waiting other = before.waiting other ∧
      after.desk.ends other = before.desk.ends other := by
  obtain ⟨hqueued, hwaiting⟩ := h.of_takes_of_ne htakes hne
  refine ⟨?_, ?_, ?_⟩
  · rw [← hqueued, Worker.queued, hserves.commands, Worker.queued]
  · rw [← hwaiting]
    rcases hserves.served with ⟨hpending, -⟩ | ⟨entry, hpending, -, hclient, -⟩
    · rw [Worker.waiting, hpending, Worker.waiting]
    · rw [Worker.waiting, hpending, List.filter_append,
        List.filter_cons_of_neg (by simp [hclient, hne]), List.filter_nil, List.append_nil]
      rfl
  · rw [hserves.touches.ends_of_ne hne, htakes.desk]

theorem of_serves_self (h : before.Sound start) (htakes : before.Takes destination client middle)
    (hserves : middle.Serves destination client after) :
    (after.queued client).length + (after.waiting client).length + after.desk.ends client = 1 := by
  obtain ⟨-, -, -, hqueued, hwaiting⟩ := h.of_takes htakes
  have hcommands : after.queued client = [] := by
    rw [← hqueued, Worker.queued, hserves.commands, Worker.queued]
  rw [hcommands]
  rcases hserves.served with ⟨hpending, hend⟩ | ⟨entry, hpending, -, hclient, -, -, hend⟩
  · rw [Worker.waiting, hpending, hend]
    change 0 + (middle.waiting client).length + 1 = 1
    rw [hwaiting]
    rfl
  · rw [Worker.waiting, hpending, List.filter_append, hend]
    change 0 + (middle.waiting client ++ _).length + 0 = 1
    rw [hwaiting]
    simp [hclient]

/-- The ids stay distinct, since a request waits under one that was free. -/
theorem ids_of_serves (hids : (middle.pending.map Pending.id).Nodup)
    (hserves : middle.Serves destination client after) : (after.pending.map Pending.id).Nodup := by
  rcases hserves.served with ⟨hpending, -⟩ | ⟨entry, hpending, hfree, -⟩
  · rw [hpending]
    exact hids
  · rw [hpending, List.map_append, List.map_singleton]
    refine List.nodup_append.mpr ⟨hids, List.nodup_singleton _, fun id hid other hother heq => ?_⟩
    rw [heq, List.mem_singleton.mp hother] at hid
    exact Worker.isBusy_eq_false_iff.mp hfree hid

/-- An engine from which a client's command or request is taken, and which then serves the client,
keeps the invariant. -/
theorem of_serves (h : before.Sound start) (htakes : before.Takes destination client middle)
    (hserves : middle.Serves destination client after) : after.Sound start := by
  obtain ⟨hknows, hnew, -⟩ := h.of_takes htakes
  have hknown : ∀ other, after.desk.Knows other ↔ before.desk.Knows other := fun other =>
    (hserves.touches.knows_iff other).trans (by rw [htakes.desk])
  have hsublist : middle.pending.Sublist before.pending := by
    rcases htakes.taken with ⟨_, _, _, _, hpending⟩ | ⟨entry, _, _, _, _, hpending⟩
    · rw [hpending]
    · rw [hpending]
      exact List.filter_sublist
  have hothers := fun other => @of_serves_of_ne _ _ _ _ _ _ _ h htakes hserves other
  refine ⟨?_, fun other hother => (hknown other).mpr (h.grows other hother),
    ids_of_serves (h.ids.sublist (hsublist.map _)) hserves, ?_, ?_, ?_, ?_⟩
  · exact hserves.touches.sound (htakes.desk ▸ hknows) (htakes.desk ▸ h.desk)
  · intro entry hentry walk hwalk
    rcases hserves.served with ⟨hpending, -⟩ | ⟨new, hpending, -, -, hdestination, hnewWalk, -⟩
    · rw [hpending] at hentry
      exact h.addressed entry (hsublist.subset hentry) walk hwalk
    · rw [hpending] at hentry
      rcases List.mem_append.mp hentry with hold | hnew
      · exact h.addressed entry (hsublist.subset hold) walk hwalk
      · rw [List.mem_singleton.mp hnew] at hwalk ⊢
        exact (hnewWalk walk hwalk).trans hdestination.symm
  · intro destination request walk hcommand
    rw [hserves.commands] at hcommand
    apply h.commanded destination request walk
    rcases htakes.taken with ⟨_, _, _, hall, _⟩ | ⟨_, _, _, _, hall, _⟩
    · exact hall ▸ List.mem_cons_of_mem _ hcommand
    · exact hall ▸ hcommand
  · intro other hother
    by_cases hne : client = other
    · exact hne ▸ ⟨(hknown client).mpr hknows, hnew⟩
    · obtain ⟨hqueued', hwaiting', -⟩ := hothers other hne
      rw [hqueued', hwaiting'] at hother
      exact ⟨(hknown other).mpr (h.current other hother).1, (h.current other hother).2⟩
  · intro other hother hotherNew
    by_cases hne : client = other
    · exact hne ▸ h.of_serves_self htakes hserves
    · obtain ⟨hqueued', hwaiting', hends'⟩ := hothers other hne
      rw [hqueued', hwaiting', hends']
      exact h.once other ((hknown other).mp hother) hotherNew

variable [Link σ] {event : Event}

/-- What a step does for its client: it takes the client's command or request, and serves the
client. -/
theorem deals (h : before.Sound start) (hstep : Step before event after)
    (haddressee : before.addressee? event = some client) :
    ∃ destination middle, before.Takes destination client middle ∧
      middle.Serves destination client after := by
  rcases hstep.cases_of_addressee?_eq_some haddressee with
    ⟨destination, request, responder, rest, rfl, hqueue, -, rfl⟩ |
    ⟨entry, outcome, link, hentry, rfl, -, -, hafter⟩
  · let middle : Engine σ := { before with commands := rest }
    have htakes : before.Takes destination responder.client middle :=
      ⟨rfl, .inl ⟨request, responder, rfl, hqueue, rfl⟩⟩
    obtain ⟨hknows, -, hends, -⟩ := h.of_takes htakes
    have hknows : middle.desk.Knows responder.client := hknows
    have hdestination : ∀ walk, responder = .walk walk → walk.destination = destination :=
      fun walk hwalk => h.commanded destination request walk (hwalk ▸ hqueue ▸ List.mem_cons_self)
    have hserves : middle.Serves destination responder.client
        (middle.start destination request responder) :=
      start_serves hknows hends hdestination request
    exact ⟨destination, middle, htakes, hserves⟩
  · let middle : Engine σ := { before.release entry.id with link := link }
    have htakes : before.Takes entry.destination entry.responder.client middle :=
      ⟨rfl, .inr ⟨entry, hentry, rfl, rfl, rfl, rfl⟩⟩
    obtain ⟨hknows, -, hends, -⟩ := h.of_takes htakes
    have hknows : middle.desk.Knows entry.responder.client := hknows
    refine ⟨entry.destination, middle, htakes, ?_⟩
    rcases hafter with rfl | ⟨-, rfl⟩
    · exact complete_serves hknows hends (h.addressed entry hentry) outcome
    · exact cancel_serves hknows hends entry.destination

end Sound

/-! ### Steps without a client -/

section

variable {before after : Engine σ}

theorem deliver_eq (desk : Desk) (windows : List WindowId) (record : DeviceRecord) :
    ∃ changed, desk.deliver windows record = { desk with windows := changed } := by
  rw [Desk.deliver]
  induction windows generalizing desk with
  | nil => exact ⟨desk.windows, rfl⟩
  | cons window rest ih =>
    obtain ⟨changed, heq⟩ := ih (desk.mapWindow window fun window => window.deliver record)
    exact ⟨changed, by rw [List.foldl_cons, heq]; rfl⟩

/-- What changes nothing but what is outside the requests keeps them all. -/
theorem Keeps.of_eq (hqueued : ∀ client, after.queued client = before.queued client)
    (hcommanded : ∀ destination request responder,
      .request destination request responder ∈ after.commands →
        .request destination request responder ∈ before.commands)
    (hpending : after.pending = before.pending)
    (htickets : after.desk.tickets = before.desk.tickets)
    (houtcomes : after.desk.outcomes = before.desk.outcomes)
    (hreports : after.desk.reports = before.desk.reports) : before.Keeps after where
  queued := hqueued
  commanded := hcommanded
  pending := hpending
  tickets := htickets
  length_reports := by rw [hreports]
  answers ticket := by rw [Desk.answers, houtcomes, Desk.answers]
  report report := .inl (by rw [Desk.report, hreports, Desk.report])

theorem Keeps.of_append {command : Command} (hclient : command.client? = none)
    (hcommands : after.commands = before.commands ++ [command])
    (hpending : after.pending = before.pending)
    (htickets : after.desk.tickets = before.desk.tickets)
    (houtcomes : after.desk.outcomes = before.desk.outcomes)
    (hreports : after.desk.reports = before.desk.reports) : before.Keeps after := by
  refine .of_eq (fun client => ?_) (fun destination request responder h => ?_) hpending htickets
    houtcomes hreports
  · rw [Worker.queued, hcommands, List.filter_append,
      List.filter_cons_of_neg (by simp [hclient]), List.filter_nil, List.append_nil]
    rfl
  · rw [hcommands] at h
    rcases List.mem_append.mp h with hold | hnew
    · exact hold
    · rw [← List.mem_singleton.mp hnew] at hclient
      cases hclient

/-- A command that makes no request can be carried out. -/
theorem Keeps.of_cons {command : Command} (hclient : command.client? = none)
    (hcommands : before.commands = command :: after.commands)
    (hpending : after.pending = before.pending)
    (htickets : after.desk.tickets = before.desk.tickets)
    (houtcomes : after.desk.outcomes = before.desk.outcomes)
    (hreports : after.desk.reports = before.desk.reports) : before.Keeps after := by
  refine .of_eq (fun client => ?_) (fun destination request responder h => ?_) hpending htickets
    houtcomes hreports
  · rw [Worker.queued, Worker.queued, hcommands, List.filter_cons_of_neg (by simp [hclient])]
  · exact hcommands ▸ List.mem_cons_of_mem _ h

theorem Keeps.knows_iff (h : before.Keeps after) (client : Client) :
    after.desk.Knows client ↔ before.desk.Knows client := by
  cases client <;> simp [Desk.Knows, h.tickets, h.length_reports]

theorem opens_ask (hdesk : before.desk.Sound) (destination : Mac) (request : ConfirmedRequest) :
    before.Opens destination request (.ticket before.desk.tickets)
      (before.perform (.ask destination request)) where
  commands := rfl
  pending := rfl
  addressed := nofun
  new := Nat.lt_irrefl _
  knows_iff client := by
    cases client with
    | ticket ticket =>
      change ticket < before.desk.tickets + 1 ↔ _
      rw [Nat.lt_succ_iff_lt_or_eq]
      simp [Desk.Knows, Responder.client]
    | report report =>
      change report < before.desk.reports.length ↔ _
      simp [Desk.Knows, Responder.client]
  answers _ := rfl
  report _ _ := rfl
  ends := by
    change (before.desk.answers before.desk.tickets).length = 0
    rw [hdesk _ (Nat.le_refl _)]
    rfl

theorem report_perform_enumerate (destination : Mac) (device : UInt32) :
    (before.perform (.enumerate destination device)).desk.report before.desk.reports.length =
      {} := by
  change (before.desk.reports ++ [({} : WalkReport)]).getD before.desk.reports.length {} = {}
  simp

/-- A caller that starts a walk makes a new client of it. -/
theorem opens_enumerate (before : Engine σ) (destination : Mac) (device : UInt32) :
    let walk := Walk.onDevice destination device before.desk.reports.length
    before.Opens destination walk.firstRead (.walk walk)
      (before.perform (.enumerate destination device)) where
  commands := rfl
  pending := rfl
  addressed := by
    rintro walk ⟨⟩
    rfl
  new := Nat.lt_irrefl _
  knows_iff client := by
    cases client with
    | ticket ticket =>
      change ticket < before.desk.tickets ↔ _
      simp [Desk.Knows, Responder.client]
    | report report =>
      change report < (before.desk.reports ++ [({} : WalkReport)]).length ↔ _
      rw [List.length_append, List.length_singleton, Nat.lt_succ_iff_lt_or_eq]
      simp [Desk.Knows, Responder.client, Walk.onDevice]
  answers _ := rfl
  report report hreport := by
    change (before.desk.reports ++ [({} : WalkReport)]).getD report {} =
      before.desk.reports.getD report {}
    rw [List.getD, List.getElem?_append_left hreport, List.getD]
  ends := by
    have hempty := @report_perform_enumerate _ before destination device
    exact congrArg (fun report : WalkReport => report.finished.toNat) hempty

theorem keeps_abandon (before : Engine σ) (report : WalkId) :
    before.Keeps (before.perform (.abandon report)) where
  queued _ := rfl
  commanded _ _ _ h := h
  pending := rfl
  tickets := rfl
  length_reports := (before.desk.touches_mapReport report _).length_reports
  answers _ := rfl
  report other := before.desk.report_mapReport report _ other

/-- What happens around an engine opens a place for a new client, or keeps all requests. -/
theorem perform_cases (hdesk : before.desk.Sound) (action : Action) :
    (∃ destination request responder,
      before.Opens destination request responder (before.perform action)) ∨
      before.Keeps (before.perform action) := by
  cases action with
  | ask destination request => exact .inl ⟨_, _, _, opens_ask hdesk destination request⟩
  | enumerate destination device =>
    exact .inl ⟨_, _, _, before.opens_enumerate destination device⟩
  | discover => exact .inr (.of_append (by rfl) rfl rfl rfl rfl rfl)
  | endDiscovery => exact .inr (.of_append (by rfl) rfl rfl rfl rfl rfl)
  | announce => exact .inr (.of_append (by rfl) rfl rfl rfl rfl rfl)
  | shutdown => exact .inr (.of_append (by rfl) rfl rfl rfl rfl rfl)
  | abandon report => exact .inr (before.keeps_abandon report)
  | fetch => exact .inr (.of_eq (fun _ => rfl) (fun _ _ _ h => h) rfl rfl rfl rfl)
  | refill => exact .inr (.of_eq (fun _ => rfl) (fun _ _ _ h => h) rfl rfl rfl rfl)
  | pass => exact .inr (.of_eq (fun _ => rfl) (fun _ _ _ h => h) rfl rfl rfl rfl)

/-- A step that deals with no client opens a place for one, or keeps all requests. -/
theorem Step.cases_of_addressee?_eq_none [Link σ] {event : Event}
    (hdesk : before.desk.Sound) (hstep : Step before event after)
    (haddressee : before.addressee? event = none) :
    (∃ destination request responder, before.Opens destination request responder after) ∨
      before.Keeps after := by
  cases hstep with
  | act action => exact perform_cases hdesk action
  | @obey command rest hqueue hcommand =>
    have hclient : command.client? = none := by simpa [addressee?, hqueue] using haddressee
    right
    cases command with
    | request destination request responder => cases hclient
    | _ => exact .of_cons hclient hqueue rfl rfl rfl rfl
  | listen hlisten =>
    right
    rcases listen_cases hlisten with ⟨link, hreceive, rfl⟩ | ⟨error, link, hreceive, rfl⟩ |
      ⟨indication, link, hreceive, rfl⟩
    · exact .of_eq (fun _ => rfl) (fun _ _ _ h => h) rfl rfl rfl rfl
    · exact .of_eq (fun _ => rfl) (fun _ _ _ h => h) rfl rfl rfl rfl
    · cases indication with
      | iAm source announcement =>
        rw [indicate, hear]
        split
        · obtain ⟨windows, hdeliver⟩ := deliver_eq before.desk
            (before.listeners.filter before.desk.isWanted) (recordOf source announcement)
          simp only [hdeliver]
          exact .of_eq (fun _ => rfl) (fun _ _ _ h => h) rfl rfl rfl rfl
        · exact .of_eq (fun _ => rfl) (fun _ _ _ h => h) rfl rfl rfl rfl
      | completion source id outcome =>
        let heard : Engine σ := { before with link := link }
        have hignored : heard.completion source id outcome = heard := by
          rw [completion]
          cases hfound : heard.pending? id with
          | none => rfl
          | some entry =>
            have hfound : before.pending? id = some entry := hfound
            simp only [addressee?, hreceive, hfound, Option.bind_some] at haddressee
            split at haddressee
            · cases haddressee
            · rename_i hsource
              exact if_neg hsource
        change before.Keeps (heard.completion source id outcome)
        rw [hignored]
        exact .of_eq (fun _ => rfl) (fun _ _ _ h => h) rfl rfl rfl rfl
  | giveUp => cases haddressee
  | cancel => cases haddressee

namespace Sound

variable {start : Desk}

theorem of_keeps (h : before.Sound start) (hkeeps : before.Keeps after) : after.Sound start := by
  have hknows := hkeeps.knows_iff
  have hwaiting : ∀ client, after.waiting client = before.waiting client := fun client => by
    rw [Worker.waiting, hkeeps.pending, Worker.waiting]
  have hends : ∀ client, after.desk.ends client = before.desk.ends client := fun client => by
    cases client with
    | ticket ticket => rw [Desk.ends, Desk.ends, hkeeps.answers]
    | report report =>
      rw [Desk.ends, Desk.ends]
      rcases hkeeps.report report with hreport | hreport <;> rw [hreport]
      rfl
  refine ⟨fun ticket hticket => ?_, fun client hclient =>
      (hknows client).mpr (h.grows client hclient),
    hkeeps.pending ▸ h.ids, hkeeps.pending ▸ h.addressed, fun destination request walk hcommand =>
      h.commanded destination request walk (hkeeps.commanded _ _ _ hcommand), ?_, ?_⟩
  · rw [hkeeps.answers]
    exact h.desk ticket (hkeeps.tickets ▸ hticket)
  · intro client hclient
    rw [hkeeps.queued, hwaiting] at hclient
    rw [hknows]
    exact h.current client hclient
  · intro client hclient hnew
    rw [hkeeps.queued, hwaiting, hends]
    exact h.once client ((hknows client).mp hclient) hnew

theorem eq_nil_of_opens (h : before.Sound start) {destination : Mac} {request : ConfirmedRequest}
    {responder : Responder} (hopens : before.Opens destination request responder after) :
    before.queued responder.client = [] ∧ before.waiting responder.client = [] := by
  by_contra hsome
  exact hopens.new (h.current responder.client (by tauto)).1

/-- What a new client has is its command. -/
theorem queued_of_opens (h : before.Sound start) {destination : Mac} {request : ConfirmedRequest}
    {responder : Responder} (hopens : before.Opens destination request responder after) :
    after.queued responder.client = [.request destination request responder] := by
  rw [hopens.queued, (h.eq_nil_of_opens hopens).1, if_pos rfl, List.nil_append]

theorem of_opens (h : before.Sound start) {destination : Mac} {request : ConfirmedRequest}
    {responder : Responder} (hopens : before.Opens destination request responder after) :
    after.Sound start := by
  have hold : ∀ client, before.desk.Knows client → client ≠ responder.client :=
    fun client hclient heq => hopens.new (heq ▸ hclient)
  have hqueued := hopens.queued
  have hwaiting : ∀ client, after.waiting client = before.waiting client := fun client => by
    rw [Worker.waiting, hopens.pending, Worker.waiting]
  have hends : ∀ client, before.desk.Knows client →
      after.desk.ends client = before.desk.ends client := by
    intro client hclient
    cases client with
    | ticket ticket => rw [Desk.ends, Desk.ends, hopens.answers]
    | report report => rw [Desk.ends, Desk.ends, hopens.report report hclient]
  have hnothing := h.eq_nil_of_opens hopens
  have hstart : ∀ client, client = responder.client → ¬ start.Knows client :=
    fun client heq hclient => hopens.new (h.grows _ (heq ▸ hclient))
  refine ⟨fun ticket hticket => ?_, fun client hclient =>
    (hopens.knows_iff client).mpr (.inl (h.grows client hclient)), hopens.pending ▸ h.ids,
    hopens.pending ▸ h.addressed, ?_, ?_, ?_⟩
  · rw [hopens.answers]
    apply h.desk ticket
    by_contra hlt
    have hknown : after.desk.Knows (.ticket ticket) :=
      (hopens.knows_iff _).mpr (.inl (Nat.lt_of_not_le hlt))
    exact absurd hknown (Nat.not_lt.mpr hticket)
  · intro destination' request' walk hcommand
    rw [hopens.commands] at hcommand
    rcases List.mem_append.mp hcommand with hcommand | hcommand
    · exact h.commanded destination' request' walk hcommand
    · obtain ⟨rfl, -, heq⟩ := Command.request.inj (List.mem_singleton.mp hcommand)
      exact hopens.addressed walk heq.symm
  · intro client hclient
    rw [hopens.knows_iff]
    by_cases heq : client = responder.client
    · exact ⟨.inr heq, hstart client heq⟩
    · rw [hqueued, if_neg (Ne.symm heq), List.append_nil, hwaiting] at hclient
      exact ⟨.inl (h.current client hclient).1, (h.current client hclient).2⟩
  · intro client hclient hnew
    rw [hqueued, hwaiting]
    rcases (hopens.knows_iff client).mp hclient with hclient | rfl
    · rw [if_neg (Ne.symm (hold client hclient)), List.append_nil, hends client hclient]
      exact h.once client hclient hnew
    · rw [hnothing.1, hnothing.2, hopens.ends, if_pos rfl]
      rfl

/-! ### Runs -/

variable [Link σ]

/-- Every step keeps the invariant. -/
theorem step {event : Event} (h : before.Sound start) (hstep : Step before event after) :
    after.Sound start := by
  cases haddressee : before.addressee? event with
  | some client =>
    obtain ⟨destination, middle, htakes, hserves⟩ := h.deals hstep haddressee
    exact h.of_serves htakes hserves
  | none =>
    rcases hstep.cases_of_addressee?_eq_none h.desk haddressee with
      ⟨destination, request, responder, hopens⟩ | hkeeps
    · exact h.of_opens hopens
    · exact h.of_keeps hkeeps

theorem knows_of_step {event : Event} (h : before.Sound start) (hstep : Step before event after)
    {client : Client} (hknows : before.desk.Knows client) : after.desk.Knows client := by
  cases haddressee : before.addressee? event with
  | some served =>
    obtain ⟨destination, middle, htakes, hserves⟩ := h.deals hstep haddressee
    exact (hserves.touches.knows_iff client).mpr (htakes.desk ▸ hknows)
  | none =>
    rcases hstep.cases_of_addressee?_eq_none h.desk haddressee with
      ⟨destination, request, responder, hopens⟩ | hkeeps
    · exact (hopens.knows_iff client).mpr (.inl hknows)
    · exact (hkeeps.knows_iff client).mpr hknows

/-- No step displaces a waiting request but those of the client that it deals with. -/
theorem mem_pending_of_step {event : Event} (h : before.Sound start)
    (hstep : Step before event after) {entry : Pending} (hentry : entry ∈ before.pending) :
    entry ∈ after.pending ∨ before.addressee? event = some entry.responder.client := by
  cases haddressee : before.addressee? event with
  | some client =>
    obtain ⟨destination, middle, htakes, hserves⟩ := h.deals hstep haddressee
    by_cases hclient : client = entry.responder.client
    · exact .inr (congrArg some hclient)
    · have hmiddle : entry ∈ middle.waiting entry.responder.client :=
        (h.of_takes_of_ne htakes hclient).2 ▸ Worker.mem_waiting.mpr ⟨hentry, rfl⟩
      have hmiddle := (Worker.mem_waiting.mp hmiddle).1
      rcases hserves.served with ⟨hpending, -⟩ | ⟨new, hpending, -⟩
      · exact .inl (hpending ▸ hmiddle)
      · exact .inl (hpending ▸ List.mem_append_left _ hmiddle)
  | none =>
    left
    rcases hstep.cases_of_addressee?_eq_none h.desk haddressee with
      ⟨destination, request, responder, hopens⟩ | hkeeps
    · exact hopens.pending ▸ hentry
    · exact hkeeps.pending ▸ hentry

/-- A caller that has stopped waiting for a walk does not begin again. -/
theorem abandoned_of_step {event : Event} (h : before.Sound start)
    (hstep : Step before event after) {report : WalkId}
    (hknows : before.desk.Knows (.report report))
    (hafter : (after.desk.report report).abandoned = false) :
    (before.desk.report report).abandoned = false := by
  cases haddressee : before.addressee? event with
  | some client =>
    obtain ⟨destination, middle, htakes, hserves⟩ := h.deals hstep haddressee
    rw [hserves.abandoned, htakes.desk] at hafter
    exact hafter
  | none =>
    rcases hstep.cases_of_addressee?_eq_none h.desk haddressee with
      ⟨destination, request, responder, hopens⟩ | hkeeps
    · rwa [hopens.report report hknows] at hafter
    · rcases hkeeps.report report with hreport | hreport
      · rwa [hreport] at hafter
      · rw [hreport, WalkReport.abandon, Bool.or_eq_false_iff] at hafter
        exact hafter.1

/-- A step that deals with another client leaves a walk as it is; at most its caller stops
waiting. -/
theorem of_addressee?_ne {event : Event} (h : before.Sound start)
    (hstep : Step before event after) {report : WalkId}
    (hknows : before.desk.Knows (.report report))
    (haddressee : before.addressee? event ≠ some (.report report)) :
    after.queued (.report report) = before.queued (.report report) ∧
      after.waiting (.report report) = before.waiting (.report report) ∧
      (after.desk.report report = before.desk.report report ∨
        after.desk.report report = (before.desk.report report).abandon) := by
  cases hclient : before.addressee? event with
  | some client =>
    obtain ⟨destination, middle, htakes, hserves⟩ := h.deals hstep hclient
    have hne : client ≠ .report report := fun heq => haddressee (heq ▸ hclient)
    obtain ⟨hqueued, hwaiting, -⟩ := h.of_serves_of_ne htakes hserves hne
    refine ⟨hqueued, hwaiting, .inl ?_⟩
    rw [hserves.touches.report_of_ne report hne, htakes.desk]
  | none =>
    rcases hstep.cases_of_addressee?_eq_none h.desk hclient with
      ⟨destination, request, responder, hopens⟩ | hkeeps
    · have hne : responder.client ≠ .report report := fun heq => hopens.new (heq ▸ hknows)
      refine ⟨?_, ?_, .inl (hopens.report report hknows)⟩
      · rw [hopens.queued, if_neg hne, List.append_nil]
      · rw [Worker.waiting, hopens.pending, Worker.waiting]
    · refine ⟨hkeeps.queued _, ?_, hkeeps.report report⟩
      rw [Worker.waiting, hkeeps.pending, Worker.waiting]

/-- The invariant holds at every point of a run. -/
theorem of_reaches (h : before.Sound start) (hreaches : before.Reaches after) :
    after.Sound start := by
  induction hreaches with
  | refl => exact h
  | tail _ hstep ih =>
    obtain ⟨event, hstep⟩ := hstep
    exact ih.step hstep

theorem knows_of_reaches (h : before.Sound start) (hreaches : before.Reaches after)
    {client : Client} (hknows : before.desk.Knows client) : after.desk.Knows client := by
  induction hreaches with
  | refl => exact hknows
  | tail hreaches hstep ih =>
    obtain ⟨event, hstep⟩ := hstep
    exact (h.of_reaches hreaches).knows_of_step hstep ih

omit [Link σ] in
theorem of_launch (shared : Shared σ) (hdesk : shared.desk.Sound) (identity : LocalDevice)
    (timing : Timing) : (launch shared identity timing).Sound shared.desk where
  desk := hdesk
  grows _ hclient := hclient
  ids := List.nodup_nil
  addressed := nofun
  commanded := nofun
  current _ h := by simp [launch, Worker.queued, Worker.waiting] at h
  once _ hclient hnew := absurd hclient hnew

end Sound

end

end Fieldbus.Engine
