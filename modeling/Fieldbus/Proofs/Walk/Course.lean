import Fieldbus.Walk.Basic

/-!
# The course of a walk

A walk alone with its replies: nothing else happens, and each reply answers the read before it.

## Main definitions

* `Course`: a walk with its report and the reads it has made.
* `Course.along`: the course along a row of replies.
-/

namespace Fieldbus

namespace Walk

/-- A walk that is brought a reply is over, or goes on with the first index that is left. -/
theorem onReply_steps (walk : Walk) (outcome : Outcome) (report : WalkReport) :
    (∃ after, walk.onReply outcome report = (none, after) ∧ after.finished = true) ∨
      ∃ objects span index rest, walk.step outcome = .ok (objects, span) ∧
        span.take? = some (index, rest) ∧ walk.onReply outcome report =
          (some (walk.readAt index, { walk with remaining := rest }), report.extend objects) := by
  unfold onReply
  split
  · exact .inl ⟨_, rfl, rfl⟩
  · split
    · exact .inl ⟨_, rfl, rfl⟩
    · rename_i objects span hstep
      split
      · exact .inl ⟨_, rfl, rfl⟩
      · rename_i index rest htake
        exact .inr ⟨objects, span, index, rest, hstep, htake, rfl⟩

/-- A walk either is over, its report finished, or goes on with the next read of its device and
adds what it found to its report. -/
theorem onReply_cases (walk : Walk) (outcome : Outcome) (report : WalkReport) :
    (∃ after, walk.onReply outcome report = (none, after) ∧ after.finished = true) ∨
      ∃ index rest objects, walk.onReply outcome report =
        (some (walk.readAt index, { walk with remaining := rest }), report.extend objects) := by
  rcases walk.onReply_steps outcome report with
    hover | ⟨objects, span, index, rest, -, -, hreply⟩
  · exact .inl hover
  · exact .inr ⟨index, rest, objects, hreply⟩

theorem abandoned_onReply (walk : Walk) (outcome : Outcome) (report : WalkReport) :
    (walk.onReply outcome report).2.abandoned = report.abandoned := by
  unfold onReply
  split
  · rfl
  · split
    · rfl
    · split <;> rfl

end Walk

/-- A walk with its report and the reads it has made. -/
structure Course where
  /-- The walk that waits for a reply, unless it is over. -/
  walk? : Option Walk
  report : WalkReport
  /-- The reads, the oldest first. -/
  reads : List ConfirmedRequest

namespace Course

/-- A walk that has made its first read. -/
def begin (walk : Walk) : Course := ⟨some walk, {}, [walk.firstRead]⟩

/-- The course once the reply to the last read has come. -/
def onReply (course : Course) (outcome : Outcome) : Course :=
  match course.walk? with
  | none => course
  | some walk =>
    match walk.onReply outcome course.report with
    | (none, report) => { course with walk? := none, report := report }
    | (some (request, following), report) =>
      ⟨some following, report, course.reads ++ [request]⟩

/-- The course along a row of replies. -/
def along (course : Course) (outcomes : List Outcome) : Course := outcomes.foldl onReply course

variable {course : Course}

theorem along_append (course : Course) (outcomes later : List Outcome) :
    course.along (outcomes ++ later) = (course.along outcomes).along later := List.foldl_append

/-- The course goes on from where the first replies have led it. -/
theorem along_eq_along_drop {middle : Course} {outcomes : List Outcome} {count : Nat}
    (h : course.along (outcomes.take count) = middle) :
    course.along outcomes = middle.along (outcomes.drop count) := by
  rw [← h, ← along_append, List.take_append_drop]

theorem onReply_of_walk?_eq_none (h : course.walk? = none) (outcome : Outcome) :
    course.onReply outcome = course := by
  rw [onReply, h]

theorem along_of_walk?_eq_none (h : course.walk? = none) (outcomes : List Outcome) :
    course.along outcomes = course := by
  induction outcomes with
  | nil => rfl
  | cons outcome rest ih => rw [along, List.foldl_cons, onReply_of_walk?_eq_none h, ← along, ih]

theorem reads_prefix_along (course : Course) (outcomes : List Outcome) :
    course.reads <+: (course.along outcomes).reads := by
  induction outcomes generalizing course with
  | nil => exact List.prefix_refl _
  | cons outcome rest ih =>
    refine List.IsPrefix.trans ?_ (ih (course.onReply outcome))
    rw [onReply]
    split
    · exact List.prefix_refl _
    · split
      · exact List.prefix_refl _
      · exact List.prefix_append _ _

/-- The course of a walk is that of the walk it began with: its caller waits, and it goes to the
same station for the same report. -/
structure Of (course : Course) (walk : Walk) : Prop where
  abandoned : course.report.abandoned = false
  walk : ∀ following ∈ course.walk?,
    following.destination = walk.destination ∧ following.report = walk.report

theorem begin_of (walk : Walk) : (begin walk).Of walk :=
  ⟨rfl, fun following h => by cases h; exact ⟨rfl, rfl⟩⟩

theorem Of.onReply {walk : Walk} (h : course.Of walk) (outcome : Outcome) :
    (course.onReply outcome).Of walk := by
  rw [Course.onReply]
  cases hwalk : course.walk? with
  | none => exact h
  | some current =>
    have habandoned := current.abandoned_onReply outcome course.report
    rcases current.onReply_cases outcome course.report with
      ⟨after, hreply, -⟩ | ⟨index, rest, objects, hreply⟩
    · rw [hreply, h.abandoned] at habandoned
      simp only [hreply]
      exact ⟨habandoned, nofun⟩
    · simp only [hreply]
      refine ⟨h.abandoned, ?_⟩
      rintro following ⟨⟩
      exact h.walk current hwalk

theorem Of.along {walk : Walk} (h : course.Of walk) (outcomes : List Outcome) :
    (course.along outcomes).Of walk := by
  induction outcomes generalizing course with
  | nil => exact h
  | cons outcome rest ih => exact ih (h.onReply outcome)

end Course

end Fieldbus
