import Fieldbus.Proofs.Session.Windows

/-!
# The windows of a scene

Every discovery window has come with a call.  A caller touches the window of its own call only, and
of a window that has not come yet nothing is known.

## Main definitions

* `Scene.Sound`: the windows of all calls have come, and nothing is known of others.
* `Scene.own?`: the window that a caller touches in a moment.

## Main results

* `Scene.sparesBut_proceed`: a caller leaves all other windows alone.
* `Scene.window?_of_calls_proceed`: a window comes with a new call.
* `Scene.Sound.after`: every scene is sound.
-/

namespace Fieldbus.Scene

variable {σ : Type}

/-- A window has come with a call, and nothing is known of one that has not. -/
structure Sound (scene : Scene σ) : Prop where
  known : ∀ call ∈ scene.calls, ∀ window, call.window? = some window →
    window < scene.session.desk.windows.length
  fresh : ∀ window, scene.session.desk.windows.length ≤ window → scene.session.ear window = .deaf

theorem sound_onLink (link : σ) : (onLink link).Sound where
  known _ hmem := absurd hmem List.not_mem_nil
  fresh _ _ := rfl

namespace Sound

variable {scene next : Scene σ} {own : Option WindowId}

/-- What touches a known window only leaves a scene sound. -/
theorem of_sparesBut (h : scene.Sound) (hspares : Session.SparesBut own scene.session next.session)
    (hown : ∀ window, own = some window → window < next.session.desk.windows.length)
    (hcalls : ∀ call ∈ next.calls, ∀ window, call.window? = some window →
      own = some window ∨ ∃ old ∈ scene.calls, old.window? = some window) : next.Sound where
  known call hmem window hwindow := by
    rcases hcalls call hmem window hwindow with hnew | ⟨old, hold, heq⟩
    · exact hown window hnew
    · exact (h.known old hold window heq).trans_le hspares.length
  fresh window hge := by
    rw [hspares.ear window fun heq => absurd hge (Nat.not_le.mpr (hown window heq))]
    exact h.fresh window (hspares.length.trans hge)

variable [Link σ]

theorem work (h : scene.Sound) (work : Work) : (scene.proceed (.work work)).Sound := by
  suffices hsuffices :
      (scene.session.work work).desk.windows.length = scene.session.desk.windows.length ∧
        ∀ window, scene.session.ear window = .deaf →
          (scene.session.work work).ear window = .deaf by
    obtain ⟨hlength, hdeaf⟩ := hsuffices
    exact ⟨fun call hmem window hwindow => hlength ▸ h.known call hmem window hwindow,
      fun window hge => hdeaf window (h.fresh window (hlength ▸ hge))⟩
  cases halive : scene.session.alive? with
  | none =>
    rw [Session.work, halive]
    exact ⟨rfl, fun _ hdeaf => hdeaf⟩
  | some engine =>
    have hdesk := Session.desk_of_alive? halive
    rw [Session.work_of_alive? halive, ← hdesk]
    simp only [Session.ear_of_alive? halive]
    have haffects := engine.affects_work work
    generalize engine.work work = turn at haffects
    cases haffects with
    | keeps hkeeps =>
      rw [Session.desk_settle_running]
      refine ⟨by rw [hkeeps.windows], fun window hdeaf => ?_⟩
      rw [Session.ear_settle_running halive, hkeeps.ear_eq, hdeaf]
    | @obeys command rest hqueue =>
      rw [Session.desk_settle_running]
      refine ⟨by rw [Engine.windows_handle], fun window hdeaf => ?_⟩
      rw [Session.ear_settle_running halive]
      exact Engine.ear_handle_of_deaf hqueue hdeaf
    | hears hannounced hlisten =>
      obtain ⟨-, -, hdelivered⟩ := Engine.listen_announced hlisten hannounced
      rw [Session.desk_settle_running]
      refine ⟨by rw [hdelivered, Desk.length_windows_deliver], fun window hdeaf => ?_⟩
      rw [Session.ear_settle_running halive]
      exact Engine.ear_listen_of_deaf hlisten hannounced hdeaf
    | stops hqueue hwindows =>
      rw [Session.desk_settle_stopped]
      exact ⟨by rw [hwindows], fun _ _ => rfl⟩
    | crashes hne hlisten hwindows =>
      rw [Session.desk_settle_crashed]
      exact ⟨by rw [hwindows], fun window _ => Session.ear_settle_crashed _ _ window⟩

end Sound

variable [Link σ]

/-- The window that a caller touches in a moment, if it touches any. -/
def own? (scene : Scene σ) : Moment → Option WindowId
  | .begin operation => (scene.session.beginCall operation).1.window?
  | .attend number => scene.calls[number]?.bind Call.window?
  | .start _ | .shutdown | .announce | .refill _ | .pass _ | .work _ => none

/-- What is not the engine's work spares all windows but one at most. -/
theorem sparesBut_proceed (scene : Scene σ) {moment : Moment} (h : ∀ work, moment ≠ .work work) :
    Session.SparesBut (scene.own? moment) scene.session (scene.proceed moment).session := by
  cases moment with
  | start config => exact scene.session.sparesBut_ensureStarted config
  | shutdown => exact scene.session.sparesBut_shutdown
  | announce => exact scene.session.sparesBut_announce
  | begin operation => exact scene.session.sparesBut_beginCall operation
  | attend number =>
    rw [own?, proceed]
    cases scene.calls[number]? with
    | none => exact .refl _ scene.session
    | some call => exact scene.session.sparesBut_attend call
  | refill cache => exact .of_eq rfl rfl
  | pass milliseconds => exact .of_eq rfl rfl
  | work work => exact absurd rfl (h work)

theorem calls_proceed_of_ne {scene : Scene σ} {moment : Moment} {number : Nat} {call : Call}
    (h : scene.calls[number]? = some call) (hattend : moment ≠ .attend number) :
    (scene.proceed moment).calls[number]? = some call := by
  cases moment with
  | begin operation => exact (List.getElem?_append_left (List.getElem?_eq_some_iff.mp h).1).trans h
  | attend other =>
    have hne : other ≠ number := fun heq => hattend (congrArg Moment.attend heq)
    rw [proceed]
    cases scene.calls[other]? with
    | none => exact h
    | some otherCall => exact (List.getElem?_set_ne hne).trans h
  | _ => exact h

/-- The windows of the calls after a moment are those of before and the one that was touched. -/
theorem window?_of_calls_proceed {scene : Scene σ} {moment : Moment} {number : Nat} {call : Call}
    {window : WindowId} (hcall : (scene.proceed moment).calls[number]? = some call)
    (hwindow : call.window? = some window) :
    (∃ old, scene.calls[number]? = some old ∧ old.window? = some window) ∨
      number = scene.calls.length ∧ window = scene.session.desk.windows.length ∧
        scene.own? moment = some window := by
  cases moment with
  | begin operation =>
    change (scene.calls ++ [(scene.session.beginCall operation).1])[number]? = some call at hcall
    rcases Nat.lt_or_ge number scene.calls.length with hlt | hge
    · rw [List.getElem?_append_left hlt] at hcall
      exact .inl ⟨call, hcall, hwindow⟩
    · rw [List.getElem?_append_right hge, List.getElem?_singleton] at hcall
      obtain ⟨hlast, hnew⟩ := Option.ite_none_right_eq_some.mp hcall
      cases hnew
      exact .inr ⟨by omega, (Session.window?_beginCall hwindow).1, hwindow⟩
  | attend other =>
    left
    rw [proceed] at hcall
    cases hother : scene.calls[other]? with
    | none =>
      rw [hother] at hcall
      exact ⟨call, hcall, hwindow⟩
    | some old =>
      rw [hother] at hcall
      change (scene.calls.set other (scene.session.attend old).1)[number]? = some call at hcall
      by_cases hsame : other = number
      · subst hsame
        rw [List.getElem?_set_self (List.getElem?_eq_some_iff.mp hother).1] at hcall
        cases hcall
        exact ⟨old, hother, Session.window?_attend hwindow⟩
      · rw [List.getElem?_set_ne hsame] at hcall
        exact ⟨call, hcall, hwindow⟩
  | _ => exact .inl ⟨call, hcall, hwindow⟩

theorem Sound.own?_lt {scene : Scene σ} (h : scene.Sound) {moment : Moment} {window : WindowId}
    (hown : scene.own? moment = some window) :
    window < (scene.proceed moment).session.desk.windows.length := by
  cases moment with
  | begin operation => exact (Session.window?_beginCall hown).2
  | attend number =>
    obtain ⟨call, hcall, hwindow⟩ := Option.bind_eq_some_iff.mp hown
    have hspares := @sparesBut_proceed _ _ scene (.attend number) nofun
    exact (h.known call (List.mem_of_getElem? hcall) window hwindow).trans_le hspares.length
  | _ => cases hown

/-- **Every moment leaves a scene sound.** -/
theorem Sound.proceed {scene : Scene σ} (h : scene.Sound) (moment : Moment) :
    (scene.proceed moment).Sound := by
  by_cases hwork : ∃ work, moment = .work work
  · obtain ⟨work, rfl⟩ := hwork
    exact h.work work
  · have hspares := scene.sparesBut_proceed fun work heq => hwork ⟨work, heq⟩
    refine h.of_sparesBut hspares (fun window hown => h.own?_lt hown) ?_
    intro call hmem window hwindow
    obtain ⟨number, hcall⟩ := List.mem_iff_getElem?.mp hmem
    rcases window?_of_calls_proceed hcall hwindow with ⟨old, hold, heq⟩ | ⟨-, -, hown⟩
    · exact .inr ⟨old, List.mem_of_getElem? hold, heq⟩
    · exact .inl hown

theorem Sound.after {scene : Scene σ} (h : scene.Sound) (history : List Moment) :
    (scene.after history).Sound := by
  induction history generalizing scene with
  | nil => exact h
  | cons moment rest ih => exact ih (h.proceed moment)

end Fieldbus.Scene
