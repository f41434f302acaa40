import Mathlib.Data.List.TakeWhile
import Fieldbus.Proofs.Engine.Hearing
import Fieldbus.Proofs.Session.Scene

/-!
# What a discovery hears

Seen from a discovery, a moment of a scene is one in which the engine carries out the command that
opens its window, hears of a device, or ends, one in which the caller takes a record from the
window, or none of these.  What is heard counts from the opening on until the engine ends.

## Main definitions

* `Point.opens`, `Point.taken?`, `Point.ends`, `Point.device?`: what a moment is to a discovery.
* `heardSince`, `taken`: what a discovery has heard, and what its caller has taken.

## Main results

* `heardSince_concat_of_alive`, `heardSince_concat_of_over`, `heardSince_concat_of_silent`: what one
  more moment adds to what is heard.
* `heardSince_prefix_concat`: nothing that was heard is forgotten.
-/

namespace Fieldbus

/-! ### Moments -/

/-- Whether a command opens a window. -/
def Command.opens (window : WindowId) : Command → Bool
  | .discover id _ _ _ => id = window
  | _ => false

theorem Command.window?_of_opens {window : WindowId} {command : Command}
    (h : command.opens window = true) : command.window? = some window := by
  cases command with
  | discover id destination low high => exact congrArg some (of_decide_eq_true h)
  | _ => cases h

/-- Whether an engine has ended. -/
def Engine.Turn.isOver {σ : Type} : Engine.Turn σ → Bool
  | .running _ => false
  | .stopped _ | .crashed _ => true

namespace Point

variable {σ : Type}

/-- The record that the caller of a discovery takes: the oldest that waits, if the caller waits for
one. -/
def taken? (number : Nat) (point : Point σ) : Option DeviceRecord :=
  match point.moment, point.scene.calls[number]? with
  | .attend other, some (.discover discovery true) =>
    if other = number then point.scene.session.oldest? discovery else none
  | _, _ => none

/-- The engine carries out the command that opens the window of a discovery under way. -/
def opens (number : Nat) (point : Point σ) : Bool :=
  match point.moment, point.scene.calls[number]? with
  | .work .obey, some (.discover discovery _) =>
    point.scene.session.alive?.any fun engine =>
      engine.commands.head?.any (Command.opens discovery.window)
  | _, _ => false

variable [Link σ]

/-- The engine stops or crashes. -/
def ends (point : Point σ) : Bool :=
  match point.moment with
  | .work work => point.scene.session.alive?.any fun engine => (engine.work work).isOver
  | _ => false

/-- The record of the device whose announcement the engine hears. -/
def device? (point : Point σ) : Option DeviceRecord :=
  match point.moment with
  | .work .listen => point.scene.session.alive?.bind Engine.announced?
  | _ => none

end Point

/-! ### What is heard -/

section Course

variable {σ : Type} {number : Nat} {trace : List (Point σ)} {point : Point σ}

/-- The points from the opening of the window of a discovery on. -/
def sinceOpening (number : Nat) (trace : List (Point σ)) : List (Point σ) :=
  trace.dropWhile fun point => !point.opens number

theorem sinceOpening_concat_of_nil (h : sinceOpening number trace = []) :
    sinceOpening number (trace ++ [point]) = if point.opens number then [point] else [] := by
  rw [sinceOpening] at h ⊢
  rw [List.dropWhile_append, h]
  cases hopens : point.opens number <;> simp [hopens]

theorem sinceOpening_concat_of_closed (h : sinceOpening number trace = [])
    (hopens : point.opens number = false) : sinceOpening number (trace ++ [point]) = [] := by
  rw [sinceOpening_concat_of_nil h, hopens]
  rfl

theorem sinceOpening_concat_of_ne_nil (h : sinceOpening number trace ≠ []) :
    sinceOpening number (trace ++ [point]) = sinceOpening number trace ++ [point] := by
  rw [sinceOpening] at h ⊢
  rw [List.dropWhile_append, if_neg (by simpa using h)]
  rfl

/-- The records that the caller of a discovery has taken. -/
def taken (number : Nat) (trace : List (Point σ)) : List DeviceRecord :=
  trace.filterMap (Point.taken? number)

theorem taken_concat (number : Nat) (trace : List (Point σ)) (point : Point σ) :
    taken number (trace ++ [point]) = taken number trace ++ (point.taken? number).toList := by
  rw [taken, List.filterMap_append]
  cases h : point.taken? number <;> simp [taken, h]

theorem taken_concat_of_eq_none (h : point.taken? number = none) :
    taken number (trace ++ [point]) = taken number trace := by
  rw [taken_concat, h, Option.toList_none, List.append_nil]

variable [Link σ]

/-- The records of the devices that are heard after the window of a discovery has been opened, until
the engine ends. -/
def heardSince (number : Nat) (trace : List (Point σ)) : List DeviceRecord :=
  ((sinceOpening number trace).takeWhile fun point => !point.ends).filterMap Point.device?

theorem heardSince_of_nil (h : sinceOpening number trace = []) : heardSince number trace = [] := by
  rw [heardSince, h]
  rfl

theorem heardSince_concat_of_closed (h : sinceOpening number trace = [])
    (hopens : point.opens number = false) :
    heardSince number (trace ++ [point]) = heardSince number trace := by
  rw [heardSince_of_nil h, heardSince_of_nil (sinceOpening_concat_of_closed h hopens)]

/-- While the engine lives, what it hears after the opening counts. -/
theorem heardSince_concat_of_alive (hopen : sinceOpening number trace ≠ [])
    (halive : ∀ earlier ∈ sinceOpening number trace, earlier.ends = false) :
    heardSince number (trace ++ [point]) =
      heardSince number trace ++ if point.ends then [] else point.device?.toList := by
  have hall : ∀ earlier ∈ sinceOpening number trace, (!earlier.ends) = true := by
    intro earlier hmem
    rw [halive earlier hmem]
    rfl
  rw [heardSince, heardSince, sinceOpening_concat_of_ne_nil hopen,
    List.takeWhile_append_of_pos hall, List.takeWhile_eq_self_iff.mpr hall, List.filterMap_append]
  cases hends : point.ends with
  | true => simp [hends]
  | false => cases hdevice : point.device? <;> simp [hends, hdevice]

/-- Once the engine has ended, nothing counts any more. -/
theorem heardSince_concat_of_over
    (hover : ∃ earlier ∈ sinceOpening number trace, earlier.ends = true) :
    heardSince number (trace ++ [point]) = heardSince number trace := by
  obtain ⟨earlier, hmem, hends⟩ := hover
  rw [heardSince, heardSince, sinceOpening_concat_of_ne_nil (List.ne_nil_of_mem hmem),
    List.takeWhile_append, if_neg]
  intro hlength
  have hself := (List.takeWhile_prefix _).eq_of_length hlength
  have hlives := List.takeWhile_eq_self_iff.mp hself earlier hmem
  rw [hends] at hlives
  cases hlives

/-- One more moment adds nothing, or the device that is heard in it. -/
theorem heardSince_concat (number : Nat) (trace : List (Point σ)) (point : Point σ) :
    heardSince number (trace ++ [point]) = heardSince number trace ∨
      heardSince number (trace ++ [point]) = heardSince number trace ++ point.device?.toList := by
  by_cases hopen : sinceOpening number trace = []
  · rw [heardSince_of_nil hopen, heardSince, sinceOpening_concat_of_nil hopen]
    split
    · cases hends : point.ends with
      | true => exact .inl (by simp [hends])
      | false => cases hdevice : point.device? <;> simp [hends, hdevice]
    · exact .inl rfl
  · by_cases hover : ∃ earlier ∈ sinceOpening number trace, earlier.ends = true
    · exact .inl (heardSince_concat_of_over hover)
    · have halive : ∀ earlier ∈ sinceOpening number trace, earlier.ends = false :=
        fun earlier hmem => Bool.eq_false_iff.mpr fun hends => hover ⟨earlier, hmem, hends⟩
      rw [heardSince_concat_of_alive hopen halive]
      cases point.ends with
      | true => exact .inl (List.append_nil _)
      | false => exact .inr rfl

/-- Where no device is heard there is nothing new. -/
theorem heardSince_concat_of_silent (h : point.device? = none) :
    heardSince number (trace ++ [point]) = heardSince number trace := by
  rcases heardSince_concat number trace point with hsame | hmore
  · exact hsame
  · rw [hmore, h]
    exact List.append_nil _

/-- What was heard stays heard. -/
theorem heardSince_prefix_concat (number : Nat) (trace : List (Point σ)) (point : Point σ) :
    heardSince number trace <+: heardSince number (trace ++ [point]) := by
  rcases heardSince_concat number trace point with hsame | hmore
  · exact hsame ▸ List.prefix_rfl
  · rw [hmore]
    exact List.prefix_append _ _

end Course

namespace Scene

variable {σ : Type}

/-! ### Moments of callers -/

section Callers

variable {scene : Scene σ} {moment : Moment}

/-- A moment of a caller opens no window, ends no engine, and nothing is heard in it. -/
theorem opens_of_caller (h : ∀ work, moment ≠ .work work) (number : Nat) :
    Point.opens number ⟨scene, moment⟩ = false := by
  cases moment with
  | work work => exact absurd rfl (h work)
  | _ => rfl

theorem taken?_of_ne {number : Nat} (h : moment ≠ .attend number) :
    Point.taken? number ⟨scene, moment⟩ = none := by
  rw [Point.taken?]
  split
  · rename_i other _ _ _
    exact if_neg fun heq : other = number => h (by simp_all)
  · rfl

variable [Link σ]

theorem ends_of_caller (h : ∀ work, moment ≠ .work work) : Point.ends ⟨scene, moment⟩ = false := by
  cases moment with
  | work work => exact absurd rfl (h work)
  | _ => rfl

theorem device?_of_caller (h : ∀ work, moment ≠ .work work) :
    Point.device? ⟨scene, moment⟩ = none := by
  cases moment with
  | work work => exact absurd rfl (h work)
  | _ => rfl

end Callers

end Scene

end Fieldbus
