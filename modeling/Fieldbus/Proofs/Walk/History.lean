import Fieldbus.Proofs.Walk.Course

/-!
# Histories of walks

A walk and the caller that waits for it share a report.  The engine brings the walk replies, or
fails it without one, and at any time between two of these the caller may stop waiting and look at
the report.  Each of these is done as a whole, so a history is a row of them in any order.  Once the
walk is over, or its caller has stopped waiting, what the walk has found is frozen.

## Main definitions

* `Walk.Happening`: what happens to a walk and its report.
* `Course.after`: the course of a walk after a history.
* `WalkReport.Grows`: what no history takes back.

## Main results

* `Course.grows_after`: a report only grows.
* `Course.Frozen.after`: a frozen course makes no reads and finds nothing.
-/

namespace Fieldbus

/-- What happens to a walk and its report. -/
inductive Walk.Happening where
  /-- The walk is brought a reply. -/
  | reply (outcome : Outcome)
  /-- The walk is failed without a reply. -/
  | fail (cause : Failure)
  /-- The caller looks at the report and stops waiting. -/
  | wait
  deriving DecidableEq, Repr

theorem WalkReport.abandon_of_finished {report : WalkReport} (h : report.finished = true) :
    report.abandon = report := by
  obtain ⟨objects, error, finished, abandoned⟩ := report
  obtain rfl : finished = true := h
  rw [abandon, Bool.not_true, Bool.or_false]

/-- What is never taken back from a report. -/
structure WalkReport.Grows (before after : WalkReport) : Prop where
  objects : before.objects <+: after.objects
  error : ∀ cause, before.error = some cause → after.error = some cause
  finished : before.finished = true → after.finished = true

namespace WalkReport.Grows

theorem refl (report : WalkReport) : report.Grows report :=
  ⟨List.prefix_refl _, fun _ h => h, fun h => h⟩

theorem trans {before middle after : WalkReport} (h : before.Grows middle)
    (h' : middle.Grows after) : before.Grows after :=
  ⟨h.objects.trans h'.objects, fun cause hcause => h'.error cause (h.error cause hcause),
    fun hfinished => h'.finished (h.finished hfinished)⟩

/-- A caller that stops waiting takes nothing back. -/
theorem abandon (report : WalkReport) : report.Grows report.abandon :=
  ⟨List.prefix_refl _, fun _ h => h, fun h => h⟩

theorem abort (report : WalkReport) (cause : WalkError) : report.Grows (report.abort cause) := by
  refine ⟨List.prefix_refl _, fun first hfirst => ?_, fun _ => rfl⟩
  rw [WalkReport.abort, hfirst]
  rfl

theorem onReply (walk : Walk) (outcome : Outcome) (report : WalkReport) :
    report.Grows (walk.onReply outcome report).2 := by
  rw [Walk.onReply]
  split
  · exact ⟨List.prefix_refl _, fun _ h => h, fun _ => rfl⟩
  · split
    · exact abort report _
    · split
      · exact ⟨List.prefix_append _ _, fun _ h => h, fun _ => rfl⟩
      · exact ⟨List.prefix_append _ _, fun _ h => h, fun h => h⟩

end WalkReport.Grows

namespace Course

variable {course : Course}

/-- The course once something has happened.  A walk that is over is brought no replies and not
failed. -/
def happen (course : Course) : Walk.Happening → Course
  | .reply outcome => course.onReply outcome
  | .fail cause =>
    match course.walk? with
    | none => course
    | some _ => { course with walk? := none, report := course.report.abort (.failure cause) }
  | .wait => { course with report := course.report.abandon }

/-- The course after a history. -/
def after (course : Course) (history : List Walk.Happening) : Course := history.foldl happen course

theorem after_append (course : Course) (history later : List Walk.Happening) :
    course.after (history ++ later) = (course.after history).after later := List.foldl_append

/-! ### Reports only grow -/

theorem grows_happen (course : Course) (happening : Walk.Happening) :
    course.report.Grows (course.happen happening).report := by
  cases happening with
  | reply outcome =>
    rw [happen, onReply]
    split
    · exact .refl _
    · rename_i walk hwalk
      have hgrows := WalkReport.Grows.onReply walk outcome course.report
      split <;> rename_i hreply <;> rw [hreply] at hgrows <;> exact hgrows
  | fail cause =>
    rw [happen]
    split
    · exact .refl _
    · exact .abort _ _
  | wait => exact .abandon _

/-- Whatever happens, a report only grows. -/
theorem grows_after (course : Course) (history : List Walk.Happening) :
    course.report.Grows (course.after history).report := by
  induction history generalizing course with
  | nil => exact .refl _
  | cons happening rest ih => exact (course.grows_happen happening).trans (ih _)

/-! ### A walk that goes on is not finished -/

/-- Whether a walk that waits for a reply has an unfinished report. -/
def Open (course : Course) : Prop := course.walk?.isSome = true → course.report.finished = false

theorem open_begin (walk : Walk) : (begin walk).Open := fun _ => rfl

theorem Open.happen (h : course.Open) (happening : Walk.Happening) :
    (course.happen happening).Open := by
  cases happening with
  | reply outcome =>
    rw [Course.happen, onReply]
    cases hwalk : course.walk? with
    | none => exact h
    | some walk =>
      have hbefore : course.report.finished = false := h (by rw [hwalk]; rfl)
      rcases walk.onReply_cases outcome course.report with
        ⟨report, hreply, -⟩ | ⟨index, rest, objects, hreply⟩
      · simp only [hreply]
        exact fun hgoes => by cases hgoes
      · simp only [hreply]
        exact fun _ => hbefore
  | fail cause =>
    rw [Course.happen]
    split
    · exact h
    · exact fun hgoes => by cases hgoes
  | wait => exact h

theorem Open.after (h : course.Open) (history : List Walk.Happening) :
    (course.after history).Open := by
  induction history generalizing course with
  | nil => exact h
  | cons happening rest ih => exact ih (h.happen happening)

/-! ### A walk that has met a cause is finished -/

/-- Whether a report that is not finished has no cause. -/
def Untroubled (course : Course) : Prop :=
  course.report.finished = false → course.report.error = none

theorem untroubled_begin (walk : Walk) : (begin walk).Untroubled := fun _ => rfl

theorem Untroubled.happen (h : course.Untroubled) (happening : Walk.Happening) :
    (course.happen happening).Untroubled := by
  cases happening with
  | reply outcome =>
    rw [Course.happen, onReply]
    cases hwalk : course.walk? with
    | none => exact h
    | some walk =>
      rcases walk.onReply_cases outcome course.report with
        ⟨report, hreply, hfinished⟩ | ⟨index, rest, objects, hreply⟩
      · simp only [hreply]
        exact fun hunfinished => by simp [hfinished] at hunfinished
      · simp only [hreply]
        exact h
  | fail cause =>
    rw [Course.happen]
    split
    · exact h
    · exact fun hunfinished => by cases hunfinished
  | wait => exact h

theorem Untroubled.after (h : course.Untroubled) (history : List Walk.Happening) :
    (course.after history).Untroubled := by
  induction history generalizing course with
  | nil => exact h
  | cons happening rest ih => exact ih (h.happen happening)

/-! ### Frozen courses -/

/-- Whether a walk is over, or its caller has stopped waiting. -/
def Frozen (course : Course) : Prop := course.walk? = none ∨ course.report.abandoned = true

theorem Open.frozen_wait (h : course.Open) : (course.happen .wait).Frozen := by
  cases hwalk : course.walk? with
  | none => exact .inl hwalk
  | some walk =>
    right
    have hunfinished : course.report.finished = false := h (by rw [hwalk]; rfl)
    simp [Course.happen, WalkReport.abandon, hunfinished]

theorem Frozen.onReply_eq_none (h : course.Frozen) {walk : Walk} (hwalk : course.walk? = some walk)
    (outcome : Outcome) : walk.onReply outcome course.report = (none, course.report.finish) := by
  have habandoned : course.report.abandoned = true := by
    rcases h with hnone | habandoned
    · rw [hnone] at hwalk
      cases hwalk
    · exact habandoned
  rw [Walk.onReply, if_pos habandoned]

theorem Frozen.happen (h : course.Frozen) (happening : Walk.Happening) :
    (course.happen happening).Frozen ∧
      (course.happen happening).report.objects = course.report.objects ∧
      (course.happen happening).reads = course.reads := by
  cases happening with
  | reply outcome =>
    cases hwalk : course.walk? with
    | none =>
      rw [Course.happen, onReply_of_walk?_eq_none hwalk]
      exact ⟨h, rfl, rfl⟩
    | some walk =>
      have hover : course.happen (.reply outcome) =
          { course with walk? := none, report := course.report.finish } := by
        simp only [Course.happen, onReply, hwalk, h.onReply_eq_none hwalk outcome]
      rw [hover]
      exact ⟨.inl rfl, rfl, rfl⟩
  | fail cause =>
    rw [Course.happen]
    split
    · exact ⟨h, rfl, rfl⟩
    · exact ⟨.inl rfl, rfl, rfl⟩
  | wait =>
    refine ⟨h.imp_right fun habandoned => ?_, rfl, rfl⟩
    rw [Course.happen, WalkReport.abandon, habandoned, Bool.true_or]

/-- Whatever happens, a frozen course makes no reads and finds nothing. -/
theorem Frozen.after (h : course.Frozen) (history : List Walk.Happening) :
    (course.after history).Frozen ∧
      (course.after history).report.objects = course.report.objects ∧
      (course.after history).reads = course.reads := by
  induction history generalizing course with
  | nil => exact ⟨h, rfl, rfl⟩
  | cons happening rest ih =>
    obtain ⟨hfrozen, hobjects, hreads⟩ := h.happen happening
    obtain ⟨hafter, hsame, hsameReads⟩ := ih hfrozen
    exact ⟨hafter, hsame.trans hobjects, hsameReads.trans hreads⟩

theorem after_of_finished (hwalk : course.walk? = none) (hfinished : course.report.finished = true)
    (history : List Walk.Happening) : course.after history = course := by
  have hhappen : ∀ happening, course.happen happening = course := by
    intro happening
    cases happening with
    | reply outcome => exact onReply_of_walk?_eq_none hwalk outcome
    | fail cause => rw [happen, hwalk]
    | wait => rw [happen, WalkReport.abandon_of_finished hfinished]
  induction history with
  | nil => rfl
  | cons happening rest ih => rw [after, List.foldl_cons, hhappen, ← after, ih]

/-- A caller that has stopped waiting knows all that is ever found, and the walk makes no further
read. -/
theorem Open.after_wait (h : course.Open) (more : List Walk.Happening) :
    ((course.happen .wait).after more).report.objects = (course.happen .wait).report.objects ∧
      ((course.happen .wait).after more).reads = (course.happen .wait).reads ∧
      ∀ walk ∈ ((course.happen .wait).after more).walk?, ∀ outcome,
        (walk.onReply outcome ((course.happen .wait).after more).report).1 = none := by
  obtain ⟨hfrozen, hobjects, hreads⟩ := h.frozen_wait.after more
  refine ⟨hobjects, hreads, fun walk hwalk outcome => ?_⟩
  rw [hfrozen.onReply_eq_none hwalk outcome]

theorem Open.after_of_finished (h : course.Open) (hfinished : course.report.finished = true)
    (more : List Walk.Happening) : course.after more = course := by
  refine Course.after_of_finished ?_ hfinished more
  cases hwalk : course.walk? with
  | none => rfl
  | some walk =>
    have hunfinished : course.report.finished = false := h (by rw [hwalk]; rfl)
    rw [hfinished] at hunfinished
    cases hunfinished

end Course

end Fieldbus
