import Fieldbus.Proofs.Config.Checks
import Fieldbus.Proofs.Session.Configuration

/-!
# Settings and the sessions started with them

A session checks its settings before it touches its link.  Settings with a fault leave it as it was,
so whatever happens to a session, its link is opened only with parameters that faultless settings
of one of its starts have resolved to.

## Main results

* `Session.ensureStarted_of_error`: a start with refused settings changes nothing.
* `Session.exists_start_of_opened`: every opening of the link comes from a start with valid
  settings.
* `Session.settings_checked`: settings are checked exactly, carried over without loss and refused
  before the link is touched.
-/

namespace Fieldbus.Session

variable {σ : Type} [Link σ]

/-- A start with refused settings changes nothing, and fails unless the session runs already. -/
theorem ensureStarted_of_error {config : Config} {error : ConfigError}
    (h : config.resolve = .error error) (session : Session σ) :
    session.ensureStarted config =
      (if session.run?.isSome then .ok () else .error (.config error), session) := by
  rw [ensureStarted]
  split
  · rfl
  · rw [h]

/-- Every opening of the link comes from a start with valid settings. -/
theorem exists_start_of_opened (link : σ) (history : List Happening) {parameters : LinkParameters}
    (h : .opened parameters ∈ ((onLink (⟨link, []⟩ : Tapped σ)).after history).link.log) :
    ∃ config identity, .start config ∈ history ∧
      config.resolve = .ok (parameters, identity) := by
  induction history using List.reverseRecOn with
  | nil => cases h
  | append_singleton history happening ih =>
    rw [after_concat] at h
    have hearlier : .opened parameters ∈
        ((onLink (⟨link, []⟩ : Tapped σ)).after history).link.log →
          ∃ config identity, .start config ∈ history ++ [happening] ∧
            config.resolve = .ok (parameters, identity) := fun hopened =>
      have ⟨config, identity, hstart, hresolve⟩ := ih hopened
      ⟨config, identity, List.mem_append_left _ hstart, hresolve⟩
    generalize (onLink (⟨link, []⟩ : Tapped σ)).after history = session at h hearlier
    by_cases hstart : ∀ config, happening ≠ .start config
    · obtain ⟨more, hlog, hwithin⟩ := (passes_happen
        (fun worker _ => .of_all (fun _ => trivial) worker) (.of_all fun _ => trivial)
        hstart : session.Passes (fun _ => True) _).log
      rw [hlog] at h
      exact (List.mem_append.mp h).elim hearlier fun hmore => (hwithin _ hmore).elim
    · push Not at hstart
      obtain ⟨config, rfl⟩ := hstart
      rcases session.ensureStarted_passes_or_opens config with ⟨-, hlog, -⟩ |
        ⟨opened, identity, hresolve, -, -, hlog, -⟩
      · exact hearlier (hlog ▸ h)
      · have h : .opened parameters ∈ (session.ensureStarted config).2.link.log := h
        rw [hlog] at h
        rcases List.mem_append.mp h with h | h
        · exact hearlier h
        · cases List.mem_singleton.mp h
          exact ⟨config, identity, List.mem_append_right _ (List.mem_singleton_self _), hresolve⟩

/-- **Settings are checked exactly, carried over without loss and refused before the link is
touched.**  Settings are resolved if and only if they meet all conditions; then the link parameters
and the identity have the numbers, the texts and the segmentation that are set.  Otherwise the
refusal is that of the first condition in the order of the checks that the settings violate, and a
start with them, at whatever point of a session's life and over whatever link, leaves the session as
it was.  A session opens its link only with parameters that settings of one of its starts were
resolved to, so one that is started with refused settings only never opens it. -/
theorem settings_checked (config : Config) :
    (config.resolve.toBool = true ↔ ∀ check : Config.Check, check.Holds config) ∧
    (∀ parameters identity, config.resolve = .ok (parameters, identity) →
      config.Carries parameters identity) ∧
    (∀ error, config.resolve = .error error ↔
      ∃ check, Config.Check.inOrder.find? (fun check => ¬ check.Holds config) = some check ∧
        error = check.error config) ∧
    (∀ error, config.resolve = .error error → ∀ session : Session σ,
      session.ensureStarted config =
        (if session.run?.isSome then .ok () else .error (.config error), session)) ∧
    ∀ (link : σ) (history : List Happening),
      (∀ parameters,
        .opened parameters ∈ ((onLink (⟨link, []⟩ : Tapped σ)).after history).link.log →
          ∃ started identity, .start started ∈ history ∧
            started.resolve = .ok (parameters, identity)) ∧
      (config.resolve.toBool = false → (∀ started, .start started ∈ history → started = config) →
        ∀ parameters,
          .opened parameters ∉ ((onLink (⟨link, []⟩ : Tapped σ)).after history).link.log) := by
  refine ⟨?_, fun parameters identity hresolve => ?_, fun error => Config.resolve_eq_error_iff,
    fun error => ensureStarted_of_error, fun link history =>
      ⟨fun parameters => exists_start_of_opened link history,
        fun hrefused honly parameters hopened => ?_⟩⟩
  · rw [← Config.fault?_eq_none_iff, Config.resolve_eq]
    cases config.fault? <;> simp [Except.toBool]
  · obtain ⟨hholds, hresolved⟩ := Config.resolve_eq_ok_iff.mp hresolve
    cases hresolved
    exact Config.carries hholds
  · obtain ⟨started, identity, hstart, hresolve⟩ := exists_start_of_opened link history hopened
    rw [← honly started hstart, hresolve] at hrefused
    cases hrefused

/-- Settings with two faults are refused for the first of them, and never open the link; the default
settings of a station are carried over. -/
theorem settings_checked_with_two_faults :
    let refused : Config :=
      { link := { address := some 1, interface := some "/dev/ttyS1", maxMasters := 200,
                  baudrate := 0 } }
    let first := onLink (⟨{}, []⟩ : Tapped Simulation.Segment)
    refused.resolve = .error (.maxMasters 200) ∧
      first.ensureStarted refused = (.error (.config (.maxMasters 200)), first) ∧
      (∀ parameters, .opened parameters ∉
        (first.after [.start refused, .announce, .start refused, .turn]).link.log) ∧
      (Config.forStation 1 "/dev/ttyS1").Carries ⟨1, "/dev/ttyS1", 38400, 127, 1⟩
        ⟨⟨.device, 599⟩, "MSTP-Client", 1024, .none, 15⟩ := by
  intro refused first
  obtain ⟨-, -, herror, -, hhistories⟩ := @settings_checked Simulation.Segment _ refused
  obtain ⟨-, -, -, hstart, -⟩ := @settings_checked (Tapped Simulation.Segment) _ refused
  have hrefused : refused.resolve = .error (.maxMasters 200) :=
    (herror _).mpr ⟨.maxMasters, by decide +kernel, rfl⟩
  obtain ⟨-, hcarries, -⟩ :=
    @settings_checked Simulation.Segment _ (Config.forStation 1 "/dev/ttyS1")
  refine ⟨hrefused, hstart _ hrefused first, (hhistories {} _).2 ?_ ?_, hcarries _ _ ?_⟩
  · rw [hrefused]
    rfl
  · simp
  · decide +kernel

end Fieldbus.Session
