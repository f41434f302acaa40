import Fieldbus.Proofs.Result
import Fieldbus.Proofs.Walk.Order
import Fieldbus.Session.Enumeration
import Mathlib.Data.List.Basic

/-!
# What a complete walk holds

A walk that ends without an error has heard a reply to each of its reads, and holds the objects that
the replies name, in the order in which they came.  How many these are is up to the device.  After
the last length that it reports there come exactly as many replies as it says, but a reply may name
any number of objects: a whole list counts as often as it comes.  Only where every reply to the read
of an element names one object and no more does the walk hold as many objects as the list is long,
the object of each element in its place.

## Main definitions

* `Outcome.named`: the objects that an outcome names.
* `Course.Tally`: what a walk holds of the replies that it has heard.

## Main results

* `Walk.eq_named_of_step`: a walk takes from a reply the objects that it names.
* `Course.Tally.along`: the tally of a walk along any replies.
* `Course.objects_of_complete`: what a complete walk has heard and holds.
* `Course.whole_list_twice`: a complete walk with twice as many objects as the list is long.
-/

namespace Fieldbus

/-- The object that a value names, if it identifies one. -/
def Value.object? : Value → Option ObjectReference
  | .atom (.objectIdentifier id) => some id.reference
  | _ => none

/-- The objects that a value names: those that its items identify, if it is an array. -/
def Value.named : Value → List ObjectReference
  | .array items => items.filterMap Value.object?
  | single => single.object?.toList

/-- The objects that an outcome names, decoded as it says itself. -/
def Outcome.named : Outcome → List ObjectReference
  | .ack (.read reading) => reading.decode.toOption.elim [] fun decoded => decoded.1.named
  | _ => []

theorem Value.Identifies.named_eq {value : Value} {ids : List ObjectIdentifier}
    (h : value.Identifies ids) : value.named = ids.map ObjectIdentifier.reference := by
  cases h with
  | one id => rfl
  | row ids =>
    rw [named, List.filterMap_map]
    change ids.filterMap (some ∘ ObjectIdentifier.reference) = _
    rw [List.filterMap_eq_map]

namespace Walk

variable {walk : Walk} {outcome : Outcome} {objects : List ObjectReference} {span : Span}

theorem named_of_spanOfLength {value : Value} (h : spanOfLength value = .ok span) :
    value.named = [] := by
  obtain ⟨count, rfl, -⟩ := spanOfLength_eq_ok_iff.mp h
  rfl

theorem eq_named_of_apply {ack : ReadAck} (h : walk.apply ack = .ok (objects, span)) :
    objects = (Outcome.ack (.read ack)).named := by
  obtain ⟨value, datatype, hdecode, hmeaning⟩ := apply_eq_ok_iff.mp h
  have hnamed : (Outcome.ack (.read ack)).named = value.named := by
    rw [Outcome.named, hdecode]
    rfl
  rw [hnamed]
  rcases hmeaning with ⟨-, hspan, rfl⟩ | ⟨-, hobjects, -⟩
  · exact (named_of_spanOfLength hspan).symm
  · obtain ⟨ids, hids, rfl⟩ := references_eq_ok_iff.mp hobjects
    exact hids.named_eq.symm

/-- A walk takes from an outcome the objects that it names. -/
theorem eq_named_of_step (h : walk.step outcome = .ok (objects, span)) :
    objects = outcome.named := by
  cases outcome with
  | failure cause => cases h
  | ack ack =>
    cases ack with
    | read reading => exact eq_named_of_apply h
    | _ => cases h

theorem named_of_count? {count : UInt32} (h : outcome.count? = some count) : outcome.named = [] :=
  (eq_named_of_step (step_of_count? h (.onDevice 0 0 0))).symm

end Walk

theorem Span.take?_eq_none {span : Span} : span.take? = none ↔ span.last.toNat < span.next := by
  simp [take?]

theorem WalkReport.error_abort_ne_none (report : WalkReport) (cause : WalkError) :
    (report.abort cause).error ≠ none := by
  rw [abort]
  cases report.error <;> nofun

/-- An enumeration is complete if its walk is over and no error ended it. -/
theorem Enumeration.isComplete_ofReport {report : WalkReport} {nanoseconds : Nat} :
    (ofReport report nanoseconds).isComplete = true ↔
      report.finished = true ∧ report.error = none := by
  cases hfinished : report.finished <;> cases herror : report.error <;>
    simp [ofReport, isComplete, hfinished, herror]

namespace Course

variable {course : Course} {walk : Walk} {outcome : Outcome} {heard : List Outcome}

/-- A reply that a walk waits for ends it with an error, or adds what it names to the report; then
the walk ends without an error if no index is left, or makes the next read. -/
theorem onReply_cases (hwalk : course.walk? = some walk)
    (hwaits : course.report.abandoned = false) (outcome : Outcome) :
    (∃ cause, walk.step outcome = .error cause ∧
      course.onReply outcome = ⟨none, course.report.abort cause, course.reads⟩) ∨
    ∃ span, walk.step outcome = .ok (outcome.named, span) ∧
      (span.take? = none ∧ course.onReply outcome =
          ⟨none, (course.report.extend outcome.named).finish, course.reads⟩ ∨
        ∃ index rest, span.take? = some (index, rest) ∧ course.onReply outcome =
          ⟨some { walk with remaining := rest }, course.report.extend outcome.named,
            course.reads ++ [walk.readAt index]⟩) := by
  have hgoes : ¬course.report.abandoned = true := by rw [hwaits]; exact Bool.false_ne_true
  cases hstep : walk.step outcome with
  | error cause =>
    refine .inl ⟨cause, rfl, ?_⟩
    simp only [onReply, hwalk, Walk.onReply, if_neg hgoes, hstep]
  | ok found =>
    obtain ⟨objects, span⟩ := found
    obtain rfl := Walk.eq_named_of_step hstep
    refine .inr ⟨span, rfl, ?_⟩
    cases htake : span.take? with
    | none =>
      refine .inl ⟨rfl, ?_⟩
      simp only [onReply, hwalk, Walk.onReply, if_neg hgoes, hstep, htake]
    | some taken =>
      obtain ⟨index, rest⟩ := taken
      refine .inr ⟨index, rest, rfl, ?_⟩
      simp only [onReply, hwalk, Walk.onReply, if_neg hgoes, hstep, htake]

/-- How far a walk has come since the last length: it waits for the reply to the read of the index
behind the replies, or is over, and unless an error ended it there were as many replies as the list
is long. -/
structure Since (course : Course) (length : UInt32) (replies : Nat) : Prop where
  waits : ∀ walk ∈ course.walk?,
    walk.remaining = ⟨replies + 2, length⟩ ∧ replies < length.toNat
  ends : course.walk? = none → course.report.error = none → replies = length.toNat

/-- What a walk holds of the replies that it has heard. -/
structure Tally (course : Course) (heard : List Outcome) : Prop where
  /-- Every read but the one under way has its reply. -/
  reads : course.reads.length = heard.length + course.walk?.toList.length
  waits : course.walk?.isSome = true →
    course.report.abandoned = false ∧ course.report.finished = false ∧ course.report.error = none
  objects : course.report.error = none → course.report.objects = heard.flatMap Outcome.named
  since : ∀ earlier last later length, heard = earlier ++ last :: later →
    last.count? = some length → (∀ outcome ∈ later, outcome.count? = none) →
      course.Since length later.length

theorem tally_begin (walk : Walk) : (begin walk).Tally [] where
  reads := rfl
  waits _ := ⟨rfl, rfl, rfl⟩
  objects _ := rfl
  since earlier last later length h := by simp at h

/-- A reply that reports a length starts a walk at the first index, unless the list is empty. -/
theorem since_of_count? {length : UInt32} (hwalk : course.walk? = some walk)
    (hwaits : course.report.abandoned = false) (hcount : outcome.count? = some length) :
    (course.onReply outcome).Since length 0 := by
  have hstep := Walk.step_of_count? hcount walk
  rcases onReply_cases hwalk hwaits outcome with
    ⟨cause, hfailed, -⟩ | ⟨span, hfound, ⟨htake, hreply⟩ | ⟨index, rest, htake, hreply⟩⟩
  · rw [hstep] at hfailed
    cases hfailed
  · obtain ⟨-, rfl⟩ := Prod.mk.inj (Except.ok.inj (hfound.symm.trans hstep))
    have hempty := Span.take?_eq_none.mp htake
    rw [hreply]
    exact ⟨nofun, fun _ _ => (Nat.lt_one_iff.mp hempty).symm⟩
  · obtain ⟨-, rfl⟩ := Prod.mk.inj (Except.ok.inj (hfound.symm.trans hstep))
    obtain ⟨-, hle, rfl⟩ := Span.take?_eq_some htake
    rw [hreply]
    refine ⟨?_, nofun⟩
    rintro following ⟨⟩
    exact ⟨rfl, hle⟩

/-- A reply that reports no length brings a walk to the next index, or to its end. -/
theorem Since.onReply {length : UInt32} {replies : Nat} (h : course.Since length replies)
    (hwalk : course.walk? = some walk) (hwaits : course.report.abandoned = false)
    (hcount : outcome.count? = none) : (course.onReply outcome).Since length (replies + 1) := by
  obtain ⟨hremaining, hlt⟩ := h.waits walk hwalk
  have hspan {objects : List ObjectReference} {span : Span}
      (hstep : walk.step outcome = .ok (objects, span)) : span = ⟨replies + 2, length⟩ := by
    rcases Walk.span_of_step hstep with rfl | ⟨count, hsome, -⟩
    · exact hremaining
    · rw [hcount] at hsome
      cases hsome
  rcases onReply_cases hwalk hwaits outcome with
    ⟨cause, -, hreply⟩ | ⟨span, hfound, ⟨htake, hreply⟩ | ⟨index, rest, htake, hreply⟩⟩
  · rw [hreply]
    exact ⟨nofun, fun _ hnone => absurd hnone (WalkReport.error_abort_ne_none _ _)⟩
  · obtain rfl := hspan hfound
    have hover : length.toNat < replies + 2 := Span.take?_eq_none.mp htake
    rw [hreply]
    exact ⟨nofun, fun _ _ => by omega⟩
  · obtain rfl := hspan hfound
    obtain ⟨-, hle, rfl⟩ := Span.take?_eq_some htake
    rw [hreply]
    refine ⟨?_, nofun⟩
    rintro following ⟨⟩
    exact ⟨rfl, hle⟩

theorem Tally.onReply (h : course.Tally heard) (hwalk : course.walk? = some walk)
    (outcome : Outcome) : (course.onReply outcome).Tally (heard ++ [outcome]) := by
  obtain ⟨hwaits, hfinished, herror⟩ := h.waits (by rw [hwalk]; rfl)
  have hlength : course.reads.length = heard.length + 1 := by
    rw [h.reads, hwalk]
    rfl
  have hobjects : course.report.objects ++ outcome.named =
      (heard ++ [outcome]).flatMap Outcome.named := by
    rw [List.flatMap_append, List.flatMap_singleton, h.objects herror]
  have hsince : ∀ earlier last later length, heard ++ [outcome] = earlier ++ last :: later →
      last.count? = some length → (∀ outcome ∈ later, outcome.count? = none) →
        (course.onReply outcome).Since length later.length := by
    intro earlier last later length hsplit hlast hlater
    rcases List.eq_nil_or_concat' later with rfl | ⟨others, newest, rfl⟩
    · obtain ⟨-, hnewest⟩ := List.append_inj' hsplit rfl
      cases hnewest
      exact since_of_count? hwalk hwaits hlast
    · rw [← List.cons_append, ← List.append_assoc] at hsplit
      obtain ⟨rfl, hnewest⟩ := List.append_inj' hsplit rfl
      cases hnewest
      obtain ⟨hothers, hnone⟩ := List.forall_mem_append.mp hlater
      rw [List.length_append, List.length_singleton]
      exact (h.since earlier last others length rfl hlast hothers).onReply hwalk hwaits
        (hnone outcome (List.mem_singleton_self _))
  rcases onReply_cases hwalk hwaits outcome with
    ⟨cause, -, hreply⟩ | ⟨span, -, ⟨-, hreply⟩ | ⟨index, rest, -, hreply⟩⟩
  · refine ⟨?_, ?_, ?_, hsince⟩
    all_goals rw [hreply]
    · rw [hlength, List.length_append, List.length_singleton]
      rfl
    · exact nofun
    · exact fun hnone => absurd hnone (WalkReport.error_abort_ne_none _ _)
  · refine ⟨?_, ?_, ?_, hsince⟩
    all_goals rw [hreply]
    · rw [hlength, List.length_append, List.length_singleton]
      rfl
    · exact nofun
    · exact fun _ => hobjects
  · refine ⟨?_, ?_, ?_, hsince⟩
    all_goals rw [hreply]
    · rw [List.length_append, hlength, List.length_append, List.length_singleton]
      rfl
    · exact fun _ => ⟨hwaits, hfinished, herror⟩
    · exact fun _ => hobjects

/-- Along any replies a walk hears those at the front, and keeps the tally of them. -/
theorem Tally.along (h : course.Tally heard) (outcomes : List Outcome) :
    ∃ more others, outcomes = more ++ others ∧ (course.along outcomes).Tally (heard ++ more) := by
  induction outcomes generalizing course heard with
  | nil => exact ⟨[], [], rfl, by rwa [List.append_nil]⟩
  | cons outcome rest ih =>
    cases hwalk : course.walk? with
    | none =>
      refine ⟨[], outcome :: rest, rfl, ?_⟩
      rwa [along_of_walk?_eq_none hwalk, List.append_nil]
    | some walk =>
      obtain ⟨more, others, rfl, htally⟩ := ih (h.onReply hwalk outcome)
      exact ⟨outcome :: more, others, rfl, by rwa [List.append_assoc] at htally⟩

theorem map_singleton_flatMap_named (h : ∀ outcome ∈ heard, outcome.named.length = 1) :
    (heard.flatMap Outcome.named).map ([·]) = heard.map Outcome.named := by
  induction heard with
  | nil => rfl
  | cons outcome rest ih =>
    obtain ⟨hone, hrest⟩ := List.forall_mem_cons.mp h
    obtain ⟨object, hobject⟩ := List.length_eq_one_iff.mp hone
    rw [List.flatMap_cons, List.map_append, List.map_cons, ih hrest, hobject]
    rfl

/-- **A complete walk holds what the replies to its reads name.**  A walk that heard of a length
first and ended without an error has heard one reply to each of its reads, and holds the objects
that these name, in order.  After the last length that was reported there came exactly as many
replies as it says.  If each of the replies to the reads of elements names one object, the walk
holds as many objects as the first reply says, and each is the one that the reply in its place
names. -/
theorem objects_of_complete (destination : Mac) (device : UInt32) (report : WalkId)
    {first : Outcome} {count : UInt32} (hcount : first.count? = some count) (rest : List Outcome)
    (nanoseconds : Nat) :
    let course := (begin (.onDevice destination device report)).along (first :: rest)
    (Enumeration.ofReport course.report nanoseconds).isComplete = true →
      ∃ heard others, rest = heard ++ others ∧ course.reads.length = heard.length + 1 ∧
        course.report.objects = heard.flatMap Outcome.named ∧
        (∀ earlier last later length, first :: heard = earlier ++ last :: later →
          last.count? = some length → (∀ outcome ∈ later, outcome.count? = none) →
            later.length = length.toNat) ∧
        ((∀ outcome ∈ heard, outcome.named.length = 1) →
          course.report.objects.length = count.toNat ∧
            course.report.objects.map ([·]) = heard.map Outcome.named) := by
  intro course hcomplete
  obtain ⟨hfinished, herror⟩ := Enumeration.isComplete_ofReport.mp hcomplete
  have hfirst := (tally_begin (.onDevice destination device report)).onReply rfl first
  obtain ⟨heard, others, hrest, htally⟩ : ∃ heard others, rest = heard ++ others ∧
    course.Tally (first :: heard) := hfirst.along rest
  have hwalk : course.walk? = none := by
    rw [← Option.not_isSome_iff_eq_none]
    intro hgoes
    have hopen := (htally.waits hgoes).2.1
    rw [hfinished] at hopen
    cases hopen
  have hobjects : course.report.objects = heard.flatMap Outcome.named := by
    rw [htally.objects herror, List.flatMap_cons, Walk.named_of_count? hcount, List.nil_append]
  have hsince : ∀ earlier last later length, first :: heard = earlier ++ last :: later →
      last.count? = some length → (∀ outcome ∈ later, outcome.count? = none) →
        later.length = length.toNat :=
    fun earlier last later length hsplit hlast hlater =>
      (htally.since earlier last later length hsplit hlast hlater).ends hwalk herror
  refine ⟨heard, others, hrest, ?_, hobjects, hsince, fun hone => ?_⟩
  · rw [htally.reads, hwalk]
    rfl
  · have hnone : ∀ outcome ∈ heard, outcome.count? = none := by
      intro outcome hmem
      rw [Option.eq_none_iff_forall_ne_some]
      intro length hlength
      have hnamed := hone outcome hmem
      rw [Walk.named_of_count? hlength] at hnamed
      cases hnamed
    have hmap : course.report.objects.map ([·]) = heard.map Outcome.named := by
      rw [hobjects]
      exact map_singleton_flatMap_named hone
    have hlength := congrArg List.length hmap
    rw [List.length_map, List.length_map] at hlength
    exact ⟨hlength.trans (hsince [] first heard count rfl hcount hnone), hmap⟩

/-- A list of two elements, each answered by its object. -/
theorem objects_of_complete_pair :
    let length : Outcome := .ack (.read ⟨⟨.device, 400⟩, .objectList, some 0,
      (Atom.unsigned 2).encode⟩)
    let first : Outcome := .ack (.read ⟨⟨.device, 400⟩, .objectList, some 1,
      (Atom.objectIdentifier ⟨.device, 400⟩).encode⟩)
    let second : Outcome := .ack (.read ⟨⟨.device, 400⟩, .objectList, some 2,
      (Atom.objectIdentifier ⟨.analogInput, 1⟩).encode⟩)
    let course := (begin (.onDevice 4 400 0)).along [length, first, second]
    length.count? = some 2 ∧ (Enumeration.ofReport course.report 0).isComplete = true ∧
      ∃ heard others, [first, second] = heard ++ others ∧
        course.reads.length = heard.length + 1 ∧
        course.report.objects = heard.flatMap Outcome.named := by
  intro length first second course
  have hcount : length.count? = some 2 := by decide +kernel
  have hcomplete : (Enumeration.ofReport course.report 0).isComplete = true := by decide +kernel
  obtain ⟨heard, others, hrest, hreads, hobjects, -⟩ :=
    objects_of_complete 4 400 0 hcount [first, second] 0 hcomplete
  exact ⟨hcount, hcomplete, heard, others, hrest, hreads, hobjects⟩

/-- Where both elements of a list of two are answered by the whole list, the walk is complete and
holds each object twice. -/
theorem whole_list_twice :
    let length : Outcome := .ack (.read ⟨⟨.device, 400⟩, .objectList, some 0,
      (Atom.unsigned 2).encode⟩)
    let whole : Outcome := .ack (.read ⟨⟨.device, 400⟩, .objectList, none,
      (Value.ofAtoms [.objectIdentifier ⟨.device, 400⟩,
        .objectIdentifier ⟨.analogInput, 1⟩]).encode⟩)
    let course := (begin (.onDevice 4 400 0)).along [length, whole, whole]
    length.count? = some 2 ∧ (Enumeration.ofReport course.report 0).isComplete = true ∧
      course.report.objects = [⟨"device", 400⟩, ⟨"analogInput", 1⟩, ⟨"device", 400⟩,
        ⟨"analogInput", 1⟩] := by
  decide +kernel

end Course

end Fieldbus
