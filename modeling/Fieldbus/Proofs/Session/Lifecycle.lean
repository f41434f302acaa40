import Fieldbus.Proofs.Link.Connections
import Fieldbus.Proofs.Session.Calls
import Fieldbus.Proofs.Session.Happening
import Fieldbus.Simulation.Segment

/-!
# The life of a session

A session opens its link when it starts an engine, and gets it back, closed, when the engine stops.
In between the engine has the link, and an engine that crashes takes it along.  So the connections
of the link come in rounds, each opened and then closed, and a session holds its link between two
rounds.  A start that fails is none: it leaves the session as it was.  Once an engine has crashed no
connection is made any more, and after a shutdown no start succeeds.

## Main definitions

* `Session.Standing`, `Session.Stands`: where the link of a session is.

## Main results

* `Session.Stands.happen`: how a session may go on.
* `Session.rounds_of_link`: the connections of a link over any life of its session.
-/

namespace Fieldbus

/-- Connections that are opened and closed so many times, one after the other. -/
def Connection.rounds (count : Nat) : List Connection :=
  (List.replicate count [Connection.opened, Connection.closed]).flatten

namespace Connection

theorem rounds_succ (count : Nat) : rounds (count + 1) = rounds count ++ [.opened] ++ [.closed] := by
  rw [rounds, List.replicate_succ', List.flatten_append, List.flatten_singleton, rounds,
    List.append_assoc]
  rfl

/-- In full rounds the link is closed as often as it is opened. -/
theorem count_rounds (count : Nat) (connection : Connection) :
    (rounds count).count connection = count := by
  induction count with
  | zero => rfl
  | succ count ih =>
    rw [rounds_succ, List.count_append, List.count_append, ih]
    cases connection <;> rfl

end Connection

namespace Session

variable {σ : Type} [Link σ]

/-- Where a session stands. -/
inductive Standing where
  /-- No engine runs, and the session holds the link. -/
  | stopped
  /-- An engine is alive and has the link. -/
  | working
  /-- The engine has crashed and taken the link along. -/
  | wrecked
  /-- No engine runs, and the link is gone. -/
  | lost
  deriving DecidableEq, Repr

/-- What is true of a session that stands somewhere, and of the connections of its link so far. -/
inductive Stands (session : Session (Logged σ)) : Standing → Prop
  | stopped {rounds : Nat} (hlifecycle : session.lifecycle = .notStarted)
      (hlink : session.holdsLink = true) (hlog : session.link.log = Connection.rounds rounds) :
      Stands session .stopped
  | working {rounds : Nat} {run : EngineRun} (hlifecycle : session.lifecycle = .running run)
      (hworker : run.worker.isSome = true) (hlink : session.holdsLink = false)
      (hlog : session.link.log = Connection.rounds rounds ++ [.opened]) :
      Stands session .working
  | wrecked {rounds : Nat} {run : EngineRun} (hlifecycle : session.lifecycle = .running run)
      (hworker : run.worker = none) (hlink : session.holdsLink = false)
      (hlog : session.link.log = Connection.rounds rounds ++ [.opened]) :
      Stands session .wrecked
  | lost {rounds : Nat} (hlifecycle : session.lifecycle = .notStarted)
      (hlink : session.holdsLink = false)
      (hlog : session.link.log = Connection.rounds rounds ++ [.opened]) :
      Stands session .lost

namespace Standing

/-- How a session goes on from where it stands, unless its engine crashes. -/
inductive Moves : Standing → Standing → Prop
  | stay (standing : Standing) : Moves standing standing
  | start : Moves .stopped .working
  | stop : Moves .working .stopped
  | lose : Moves .wrecked .lost

end Standing

namespace Stands

variable {session next : Session (Logged σ)} {standing : Standing}

omit [Link σ] in
/-- What leaves the link alone leaves a session where it stands. -/
theorem of_leavesLink (h : session.Stands standing) (hleaves : session.LeavesLink next) :
    next.Stands standing := by
  have hlink := hleaves.holdsLink
  have hlog : next.link.log = session.link.log := by rw [hleaves.link]
  cases h with
  | stopped hlifecycle hholds hrounds =>
    have hsame := hleaves.lifecycle_eq (worker?_of_notStarted hlifecycle)
    exact .stopped (hsame.trans hlifecycle) (hlink.trans hholds) (hlog.trans hrounds)
  | working hlifecycle hworker hholds hrounds =>
    rcases hleaves.lifecycle with hsame | ⟨other, worker, -, -, hother⟩
    · exact .working (hsame.trans hlifecycle) hworker (hlink.trans hholds) (hlog.trans hrounds)
    · exact .working hother rfl (hlink.trans hholds) (hlog.trans hrounds)
  | wrecked hlifecycle hworker hholds hrounds =>
    have hsame := hleaves.lifecycle_eq ((worker?_of_running hlifecycle).trans hworker)
    exact .wrecked (hsame.trans hlifecycle) hworker (hlink.trans hholds) (hlog.trans hrounds)
  | lost hlifecycle hholds hrounds =>
    have hsame := hleaves.lifecycle_eq (worker?_of_notStarted hlifecycle)
    exact .lost (hsame.trans hlifecycle) (hlink.trans hholds) (hlog.trans hrounds)

omit [Link σ] in
/-- Wherever a session stands, its link was opened and closed in turn. -/
theorem exists_rounds (h : session.Stands standing) :
    ∃ rounds, session.link.log = Connection.rounds rounds ∨
      session.link.log = Connection.rounds rounds ++ [.opened] := by
  cases h with
  | stopped _ _ hlog => exact ⟨_, .inl hlog⟩
  | working _ _ _ hlog => exact ⟨_, .inr hlog⟩
  | wrecked _ _ _ hlog => exact ⟨_, .inr hlog⟩
  | lost _ _ hlog => exact ⟨_, .inr hlog⟩

omit [Link σ] in
theorem lifecycle_ne_starting (h : session.Stands standing) : session.lifecycle ≠ .starting := by
  intro hstarting
  cases h with
  | stopped hlifecycle => cases hlifecycle.symm.trans hstarting
  | working hlifecycle => cases hlifecycle.symm.trans hstarting
  | wrecked hlifecycle => cases hlifecycle.symm.trans hstarting
  | lost hlifecycle => cases hlifecycle.symm.trans hstarting

omit [Link σ] in
theorem eq_stopped_of_holdsLink (h : session.Stands standing) (hholds : session.holdsLink = true) :
    standing = .stopped ∧ session.lifecycle = .notStarted ∧
      ∃ rounds, session.link.log = Connection.rounds rounds := by
  cases h with
  | stopped hlifecycle _ hrounds => exact ⟨rfl, hlifecycle, _, hrounds⟩
  | working _ _ hlink => rw [hlink] at hholds; cases hholds
  | wrecked _ _ hlink => rw [hlink] at hholds; cases hholds
  | lost _ hlink => rw [hlink] at hholds; cases hholds

/-- A start opens the link of a session that holds it, or leaves the session where it stands. -/
theorem ensureStarted (h : session.Stands standing) (config : Config) :
    ∃ next, (session.ensureStarted config).2.Stands next ∧ standing.Moves next := by
  rcases session.ensureStarted_cases config with ⟨-, hstart⟩ | ⟨hrun, ⟨cause, -, hstart⟩ |
    ⟨parameters, identity, -, ⟨-, hstart⟩ | ⟨hholds, ⟨error, link, hconnect, hstart⟩ |
      ⟨link, hconnect, hstart⟩⟩⟩⟩
  all_goals rw [hstart]
  · exact ⟨standing, h, .stay standing⟩
  · exact ⟨standing, h, .stay standing⟩
  · exact ⟨standing, h, .stay standing⟩
  · obtain ⟨rfl, -, rounds, hlog⟩ := h.eq_stopped_of_holdsLink hholds
    exact ⟨.stopped, .stopped rfl rfl ((Logged.of_connect_error hconnect).1.trans hlog), .stay _⟩
  · obtain ⟨rfl, -, rounds, hlog⟩ := h.eq_stopped_of_holdsLink hholds
    have hopened : link.log = Connection.rounds rounds ++ [.opened] := by
      rw [(Logged.of_connect_ok hconnect).1, hlog]
    exact ⟨.working, .working rfl rfl rfl hopened, .start⟩

omit [Link σ] in
theorem eq_working_of_worker? {worker : Worker} (h : session.Stands standing)
    (halive : session.worker? = some worker) : standing = .working ∧ session.holdsLink = false ∧
      ∃ rounds, session.link.log = Connection.rounds rounds ++ [.opened] := by
  cases h with
  | stopped hlifecycle =>
    rw [worker?_of_notStarted hlifecycle] at halive
    cases halive
  | working _ _ hlink hrounds => exact ⟨rfl, hlink, _, hrounds⟩
  | wrecked hlifecycle hdead =>
    rw [worker?_of_running hlifecycle, hdead] at halive
    cases halive
  | lost hlifecycle =>
    rw [worker?_of_notStarted hlifecycle] at halive
    cases halive

omit [Link σ] in
theorem eq_working_of_alive? {engine : Engine (Logged σ)} (h : session.Stands standing)
    (halive : session.alive? = some engine) : standing = .working ∧ session.holdsLink = false ∧
      ∃ rounds, session.link.log = Connection.rounds rounds ++ [.opened] := by
  obtain ⟨worker, hworker, -⟩ := Option.map_eq_some_iff.mp halive
  exact h.eq_working_of_worker? hworker

/-- A turn lets the engine go on, stop and give the link back, or crash. -/
theorem turn (h : session.Stands standing) :
    ∃ next, session.turn.Stands next ∧
      if session.crashes .turn then standing = .working ∧ next = .wrecked
      else standing.Moves next := by
  cases halive : session.alive? with
  | none =>
    rw [turn_of_alive?_eq_none halive, crashes, halive]
    exact ⟨standing, h, .stay standing⟩
  | some engine =>
    obtain ⟨rfl, hholds, rounds, hlog⟩ := h.eq_working_of_alive? halive
    obtain ⟨run, hrun, hworker, hlink, hturn⟩ := turn_of_alive? halive
    rw [hturn, crashes, halive, Option.map_some]
    have hcarried {link : Logged σ} (hcarries : Link.Carries engine.link link) :
        link.log = Connection.rounds rounds ++ [.opened] := by
      rw [Logged.log_of_carries hcarries, hlink, hlog]
    cases hengine : engine.turn with
    | running after =>
      exact ⟨.working, .working rfl rfl hholds (hcarried (Engine.carries_of_turn_running hengine)),
        .stay _⟩
    | crashed shared =>
      exact ⟨.wrecked, .wrecked rfl rfl hholds (hcarried (Engine.carries_of_turn_crashed hengine)),
        rfl, rfl⟩
    | stopped shared =>
      obtain ⟨last, hcarries, hleft⟩ := Engine.exists_carries_of_turn_stopped hengine
      have hclosed : shared.link.log = Connection.rounds (rounds + 1) := by
        rw [hleft, Connection.rounds_succ, ← hcarried hcarries]
        rfl
      exact ⟨.stopped, .stopped rfl rfl hclosed, .stop⟩

theorem shutdown (h : session.Stands standing) :
    ∃ next, session.shutdown.Stands next ∧ standing.Moves next ∧
      (next = .stopped ∨ next = .lost) := by
  rw [Session.shutdown]
  cases hsubmit : session.submit? .shutdown with
  | some submitted =>
    obtain ⟨engine, halive, hstops⟩ := exists_alive?_of_submit? hsubmit
    obtain ⟨shared, hengine⟩ := Engine.exists_turn_eq_stopped hstops
    obtain ⟨next, hnext, hmoves⟩ := (h.of_leavesLink (.of_submit? hsubmit)).turn
    obtain ⟨run, -, -, -, hturn⟩ := turn_of_alive? halive
    rw [crashes, halive, Option.map_some, hengine] at hmoves
    rw [hengine] at hturn
    obtain ⟨rfl, -⟩ := hnext.eq_stopped_of_holdsLink (by rw [hturn])
    exact ⟨.stopped, hnext, hmoves, .inl rfl⟩
  | none =>
    have hworker : session.worker? = none := Option.map_eq_none_iff.mp hsubmit
    cases h with
    | stopped hlifecycle hlink hlog => exact ⟨.stopped, .stopped rfl hlink hlog, .stay _, .inl rfl⟩
    | working hlifecycle halive =>
      rw [worker?_of_running hlifecycle] at hworker
      rw [hworker] at halive
      cases halive
    | wrecked hlifecycle _ hlink hlog => exact ⟨.lost, .lost rfl hlink hlog, .lose, .inr rfl⟩
    | lost hlifecycle hlink hlog => exact ⟨.lost, .lost rfl hlink hlog, .stay _, .inr rfl⟩

theorem crash (h : session.Stands standing) (cache : DeviceCache) (desk : Desk) :
    ∃ next, (session.happen (.crash cache desk)).Stands next ∧
      if session.crashes (.crash cache desk) then standing = .working ∧ next = .wrecked
      else standing.Moves next := by
  rw [happen, crashes]
  cases hworker : session.worker? with
  | none => exact ⟨standing, h, .stay standing⟩
  | some worker =>
    obtain ⟨run, hrun, hruns⟩ := exists_running_of_worker? hworker
    obtain ⟨rfl, hlink, rounds, hlog⟩ := h.eq_working_of_worker? hworker
    dsimp only
    rw [withWorker, hrun]
    exact ⟨.wrecked, .wrecked rfl rfl hlink hlog, rfl, rfl⟩

/-- **A session goes on from where it stands.**  Whatever happens to it, it stays there, opens its
link, closes it or lets it go for lost, unless its engine crashes and wrecks it. -/
theorem happen (h : session.Stands standing) (happening : Happening) :
    ∃ next, (session.happen happening).Stands next ∧
      if session.crashes happening then standing = .working ∧ next = .wrecked
      else standing.Moves next := by
  have hleaves {next : Session (Logged σ)} (hleaves : session.LeavesLink next) :
      ∃ other, next.Stands other ∧ standing.Moves other :=
    ⟨standing, h.of_leavesLink hleaves, .stay standing⟩
  cases happening with
  | start config => exact h.ensureStarted config
  | shutdown =>
    obtain ⟨next, hnext, hmoves, -⟩ := h.shutdown
    exact ⟨next, hnext, hmoves⟩
  | turn => exact h.turn
  | crash cache desk => exact h.crash cache desk
  | announce => exact hleaves session.hands_announce.leavesLink
  | begin operation => exact hleaves (leavesLink_beginCall session operation)
  | attend call => exact hleaves (leavesLink_attend session call)
  | conclude call => exact hleaves (leavesLink_conclude session call)
  | refill cache => exact hleaves ⟨rfl, rfl, .inl rfl⟩
  | pass milliseconds => exact hleaves ⟨rfl, rfl, .inl rfl⟩

/-- What every move keeps, and a crash where there is one, holds wherever a session comes to
stand. -/
theorem after (P : Standing → Prop)
    (hmoves : ∀ {standing next : Standing}, standing.Moves next → P standing → P next)
    (h : session.Stands standing) (hP : P standing) (history : List Happening)
    (hcrash : ∀ earlier happening later, history = earlier ++ happening :: later →
      (session.after earlier).crashes happening = true → P .working → P .wrecked) :
    ∃ next, (session.after history).Stands next ∧ P next := by
  induction history generalizing session standing with
  | nil => exact ⟨standing, h, hP⟩
  | cons happening rest ih =>
    obtain ⟨next, hnext, hgoes⟩ := h.happen happening
    refine ih hnext ?_ fun earlier other later hsplit =>
      hcrash (happening :: earlier) other later (by rw [hsplit, List.cons_append])
    cases hcrashes : session.crashes happening with
    | true =>
      rw [hcrashes, if_pos rfl] at hgoes
      obtain ⟨rfl, rfl⟩ := hgoes
      exact hcrash [] happening rest rfl hcrashes hP
    | false =>
      rw [hcrashes] at hgoes
      exact hmoves hgoes hP

theorem exists_stands_after (h : session.Stands standing) (history : List Happening) :
    ∃ next, (session.after history).Stands next := by
  obtain ⟨next, hnext, -⟩ := after (fun _ => True) (fun _ _ => trivial) h trivial history
    fun _ _ _ _ _ _ => trivial
  exact ⟨next, hnext⟩

theorem lost_after (h : session.Stands .lost) (history : List Happening) :
    (session.after history).Stands .lost := by
  obtain ⟨next, hnext, rfl⟩ := after (· = .lost) (fun hmoves hlost => by cases hmoves <;> simp_all)
    h rfl history fun _ _ _ _ _ hworking => absurd hworking nofun
  exact hnext

/-- A start that fails leaves the session as it was, but for what the link made of it. -/
theorem eq_of_ensureStarted_error (h : session.Stands standing) {config : Config}
    {error : StartError} {failed : Session (Logged σ)}
    (hfailed : session.ensureStarted config = (.error error, failed)) :
    failed = { session with link := failed.link } ∧ failed.link.log = session.link.log ∧
      (failed = session ∨ ∃ parameters identity cause,
        config.resolve = .ok (parameters, identity) ∧ error = .link cause ∧
          Link.connect parameters session.link.link = (.error cause, failed.link.link)) := by
  rcases session.ensureStarted_cases config with ⟨-, hstart⟩ | ⟨hrun, ⟨cause, -, hstart⟩ |
    ⟨parameters, identity, hresolve, ⟨-, hstart⟩ | ⟨hholds, ⟨error, link, hconnect, hstart⟩ |
      ⟨link, hconnect, hstart⟩⟩⟩⟩
  all_goals
    rw [hstart] at hfailed
    cases hfailed
  · exact ⟨rfl, rfl, .inl rfl⟩
  · exact ⟨rfl, rfl, .inl rfl⟩
  · obtain ⟨hlog, hinner⟩ := Logged.of_connect_error hconnect
    obtain ⟨-, hlifecycle, -⟩ := h.eq_stopped_of_holdsLink hholds
    refine ⟨?_, hlog, .inr ⟨parameters, identity, error, hresolve, rfl, hinner⟩⟩
    rw [← hholds, ← hlifecycle]

theorem ensureStarted_of_lost (h : session.Stands .lost) (config : Config) :
    ∃ error, session.ensureStarted config = (.error error, session) ∧
      (error = .linkLost ∨ ∃ cause, error = .config cause) := by
  cases h with
  | lost hlifecycle hlink =>
    rcases session.ensureStarted_cases config with ⟨hrun, -⟩ | ⟨-, ⟨cause, -, hstart⟩ |
      ⟨parameters, identity, -, ⟨-, hstart⟩ | ⟨hholds, -⟩⟩⟩
    · rw [run?, hlifecycle] at hrun
      cases hrun
    · exact ⟨.config cause, hstart, .inr ⟨cause, rfl⟩⟩
    · exact ⟨.linkLost, hstart, .inl rfl⟩
    · rw [hlink] at hholds
      cases hholds

end Stands

/-- A start opens the link once if it brings an engine to run, and does not open it otherwise. -/
theorem log_ensureStarted (session : Session (Logged σ)) (config : Config) :
    (session.ensureStarted config).2.link.log = session.link.log ++
      if session.run? = none ∧ (session.ensureStarted config).1.toBool = true then [.opened]
      else [] := by
  rcases session.ensureStarted_cases config with ⟨hrun, hstart⟩ | ⟨hrun, ⟨cause, -, hstart⟩ |
    ⟨parameters, identity, -, ⟨-, hstart⟩ | ⟨-, ⟨error, link, hconnect, hstart⟩ |
      ⟨link, hconnect, hstart⟩⟩⟩⟩
  all_goals rw [hstart]
  · have hgoes : session.run? ≠ none := Option.isSome_iff_ne_none.mp hrun
    rw [if_neg fun hopens => hgoes hopens.1, List.append_nil]
  · rw [if_neg fun hopens => absurd hopens.2 nofun, List.append_nil]
  · rw [if_neg fun hopens => absurd hopens.2 nofun, List.append_nil]
  · rw [if_neg fun hopens => absurd hopens.2 nofun, List.append_nil]
    exact (Logged.of_connect_error hconnect).1
  · rw [if_pos ⟨hrun, rfl⟩]
    exact (Logged.of_connect_ok hconnect).1

namespace Stands

variable {session : Session (Logged σ)} {standing : Standing}

/-- A session without a crash is stopped or working. -/
theorem after_of_calm {history : List Happening} (h : session.Stands .stopped)
    (hcalm : session.Calm history) :
    ∃ next, (session.after history).Stands next ∧ (next = .stopped ∨ next = .working) := by
  refine after (fun next => next = .stopped ∨ next = .working) ?_ h (.inl rfl) history ?_
  · intro standing next hmoves hwhole
    cases hmoves <;> simp_all
  · intro earlier happening later hsplit hcrashes
    rw [hcalm earlier happening later hsplit] at hcrashes
    cases hcrashes

omit [Link σ] in
/-- A stopped session holds its link, which is closed as often as it was opened, and a working one
does not hold its link, which was opened once more. -/
theorem balance (h : session.Stands standing) (hwhole : standing = .stopped ∨ standing = .working) :
    (session.holdsLink = true ↔ session.lifecycle = .notStarted) ∧
      session.link.log.count .opened =
        session.link.log.count .closed + if session.run?.isSome then 1 else 0 := by
  cases h with
  | stopped hlifecycle hlink hlog =>
    refine ⟨⟨fun _ => hlifecycle, fun _ => hlink⟩, ?_⟩
    rw [hlog, Connection.count_rounds, Connection.count_rounds, run?, hlifecycle]
    rfl
  | working hlifecycle _ hlink hlog =>
    rw [hlink, hlifecycle, hlog, List.count_append, List.count_append, Connection.count_rounds,
      Connection.count_rounds, run?, hlifecycle]
    refine ⟨⟨fun hholds => ?_, fun hstopped => ?_⟩, rfl⟩
    · cases hholds
    · cases hstopped
  | wrecked => simp at hwhole
  | lost => simp at hwhole

/-- A start after one that failed does what it would have done without it, if the link opens as it
would have before. -/
theorem ensureStarted_of_failed (h : session.Stands standing) {config : Config} {error : StartError}
    {failed : Session (Logged σ)} (hfailed : session.ensureStarted config = (.error error, failed))
    (hopens : ∀ parameters, (Link.connect parameters failed.link.link).1 =
      (Link.connect parameters session.link.link).1) (later : Config) :
    let other := failed.ensureStarted later
    other.1 = (session.ensureStarted later).1 ∧
      other.2 = { (session.ensureStarted later).2 with link := other.2.link } ∧
      other.2.link.log = (session.ensureStarted later).2.link.log := by
  intro other
  obtain ⟨hsame, hlog, -⟩ := h.eq_of_ensureStarted_error hfailed
  have hopensLogged (parameters : LinkParameters) : (Link.connect parameters failed.link).1 =
      (Link.connect parameters session.link).1 := by
    rw [Logged.connect_fst, Logged.connect_fst, hopens]
  obtain ⟨hresult, hafter⟩ := session.ensureStarted_withLink failed.link hopensLogged later
  rw [← hsame] at hresult hafter
  have hrun : failed.run? = session.run? := (congrArg run? hsame).trans rfl
  refine ⟨hresult, hafter, ?_⟩
  rw [log_ensureStarted, log_ensureStarted, hrun, hlog, hresult]

/-- A session whose engine has crashed before loses its link in the next shutdown. -/
theorem lost_after_shutdown (h : session.Stands .wrecked) (between later : List Happening) :
    (session.after (between ++ .shutdown :: later)).Stands .lost := by
  obtain ⟨middle, hmiddle, hbroken⟩ := after (fun next => next = .wrecked ∨ next = .lost)
    (fun hmoves hbroken => by cases hmoves <;> simp_all) h (.inl rfl) between
    fun _ _ _ _ _ hworking => by simp at hworking
  obtain ⟨next, hnext, hmoves, hrests⟩ := hmiddle.shutdown
  have hlost : next = .lost := by
    rcases hbroken with rfl | rfl <;> cases hmoves <;> simp_all
  subst hlost
  rw [Session.after, List.foldl_append]
  exact hnext.lost_after later

theorem lost_of_crashes (h : session.Stands standing) {happening : Happening}
    (hcrashes : session.crashes happening = true) (between later : List Happening) :
    ((session.happen happening).after (between ++ .shutdown :: later)).Stands .lost := by
  obtain ⟨next, hnext, hgoes⟩ := h.happen happening
  rw [hcrashes, if_pos rfl] at hgoes
  obtain ⟨-, rfl⟩ := hgoes
  exact hnext.lost_after_shutdown between later

omit [Link σ] in
theorem lifecycle_of_lost (h : session.Stands .lost) : session.lifecycle = .notStarted := by
  cases h with
  | lost hlifecycle => exact hlifecycle

end Stands

/-- **The connections of a link come in rounds.**  Whatever happens to a session over any link, in
whatever order, the link is opened and closed in turn, beginning with an opening, and between two
things that happen no link is being opened.  Unless an engine crashes, the session holds the link
exactly while it is not started, and the link has been opened once more than closed exactly while it
runs.

A start that fails opens nothing and leaves the session as it was: either nothing at all has
changed, or the link has refused to open, and then only the link itself may have.  If that makes no
difference to whether the link opens, then a later start does what it would have done without the one
that failed.

Once an engine has crashed and the session was shut down, the session is not started, and every
start is refused, because of the settings or because the link is lost, and changes nothing.

The log makes no difference to any of this. -/
theorem rounds_of_link (link : σ) (history : List Happening) :
    let first : Session (Logged σ) := onLink ⟨link, []⟩
    let session := first.after history
    session.mapLink Logged.link = (onLink link).after history ∧
    (∃ rounds, session.link.log = Connection.rounds rounds ∨
      session.link.log = Connection.rounds rounds ++ [.opened]) ∧
    session.lifecycle ≠ .starting ∧
    (first.Calm history →
      (session.holdsLink = true ↔ session.lifecycle = .notStarted) ∧
      session.link.log.count .opened =
        session.link.log.count .closed + if session.run?.isSome then 1 else 0) ∧
    (∀ config error failed, session.ensureStarted config = (.error error, failed) →
      failed = { session with link := failed.link } ∧ failed.link.log = session.link.log ∧
      (failed = session ∨ ∃ parameters identity cause,
        config.resolve = .ok (parameters, identity) ∧ error = .link cause ∧
          Link.connect parameters session.link.link = (.error cause, failed.link.link)) ∧
      ((∀ parameters, (Link.connect parameters failed.link.link).1 =
          (Link.connect parameters session.link.link).1) →
        ∀ later, let other := failed.ensureStarted later
          other.1 = (session.ensureStarted later).1 ∧
            other.2 = { (session.ensureStarted later).2 with link := other.2.link } ∧
            other.2.link.log = (session.ensureStarted later).2.link.log)) ∧
    ∀ earlier happening between later,
      history = earlier ++ happening :: (between ++ .shutdown :: later) →
      (first.after earlier).crashes happening = true →
        session.lifecycle = .notStarted ∧ ∀ config, ∃ error,
          session.ensureStarted config = (.error error, session) ∧
            (error = .linkLost ∨ ∃ cause, error = .config cause) := by
  intro first session
  have hfirst : first.Stands .stopped := @Stands.stopped σ _ 0 rfl rfl rfl
  obtain ⟨standing, hstands⟩ := hfirst.exists_stands_after history
  refine ⟨(mapLink_after Logged.isView_link first history).symm, hstands.exists_rounds,
    hstands.lifecycle_ne_starting, fun hcalm => ?_, fun config error failed hfailed => ?_,
    fun earlier happening between later hhistory hcrashes => ?_⟩
  · obtain ⟨next, hnext, hwhole⟩ := hfirst.after_of_calm hcalm
    exact hnext.balance hwhole
  · obtain ⟨hsame, hlog, hcause⟩ := hstands.eq_of_ensureStarted_error hfailed
    exact ⟨hsame, hlog, hcause, fun hopens => hstands.ensureStarted_of_failed hfailed hopens⟩
  · obtain ⟨before, hbefore⟩ := hfirst.exists_stands_after earlier
    have hsession : session =
        ((first.after earlier).happen happening).after (between ++ .shutdown :: later) := by
      change first.after history = _
      rw [hhistory, after, List.foldl_append]
      rfl
    have hlost : session.Stands .lost := by
      rw [hsession]
      exact hbefore.lost_of_crashes hcrashes between later
    exact ⟨hlost.lifecycle_of_lost, hlost.ensureStarted_of_lost⟩

/-- Settings that every check accepts. -/
def ownAddress : Config := { link := { address := some 1, interface := some "/dev/ttyS1" } }

/-- A stopped session on a segment, whose link may refuse to open. -/
def onSegment (refusal : Option LinkError) : Session (Logged Simulation.Segment) :=
  onLink ⟨{ connectError := refusal }, []⟩

/-- A link that does not open, a session that is started again after a shutdown, and one whose
engine crashes before the shutdown. -/
theorem rounds_of_link_onSegment :
    let calm : List Happening := [.start ownAddress, .turn, .shutdown, .start ownAddress]
    let restart : List Happening := [.turn] ++ .shutdown :: [.start ownAddress]
    let wreck : List Happening := [.start ownAddress] ++ .crash .empty {} :: restart
    (∃ failed, (onSegment (some .closed)).ensureStarted ownAddress =
        (.error (.link .closed), failed) ∧ failed.link.log = [] ∧
        (failed.ensureStarted ownAddress).1 =
          ((onSegment (some .closed)).ensureStarted ownAddress).1) ∧
      ((onSegment none).Calm calm ∧ ((onSegment none).after calm).link.log.count .opened =
        ((onSegment none).after calm).link.log.count .closed + 1) ∧
      ((onSegment none).after [.start ownAddress]).crashes (.crash .empty {}) = true ∧
        (((onSegment none).after wreck).ensureStarted ownAddress).1.toBool = false := by
  intro calm restart wreck
  have hfailed : (onSegment (some .closed)).ensureStarted ownAddress =
      (.error (.link .closed), onSegment (some .closed)) := rfl
  have hcalm : (onSegment none).Calm calm :=
    calm_cons_iff.mpr ⟨rfl, calm_cons_iff.mpr ⟨rfl, calm_cons_iff.mpr ⟨rfl,
      calm_cons_iff.mpr ⟨rfl, calm_nil _⟩⟩⟩⟩
  have hcrashes : ((onSegment none).after [.start ownAddress]).crashes (.crash .empty {}) = true :=
    rfl
  obtain ⟨-, -, -, -, hstart, -⟩ := rounds_of_link (onSegment (some .closed)).link.link []
  obtain ⟨-, -, -, hbalance, -⟩ := rounds_of_link (onSegment none).link.link calm
  obtain ⟨-, -, -, -, -, hlost⟩ := rounds_of_link (onSegment none).link.link wreck
  obtain ⟨-, hlog, -, hagain⟩ := hstart ownAddress _ _ hfailed
  obtain ⟨error, hrefused, -⟩ := (hlost _ _ [.turn] _ rfl hcrashes).2 ownAddress
  exact ⟨⟨_, hfailed, hlog, (hagain (fun _ => rfl) ownAddress).1⟩, ⟨hcalm, (hbalance hcalm).2⟩,
    hcrashes, congrArg (fun result => result.1.toBool) hrefused⟩

end Session

end Fieldbus
