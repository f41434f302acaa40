import Fieldbus.Proofs.Walk.Course
import Fieldbus.Proofs.Walk.Interpretation

/-!
# The order of the reads of a walk

A walk reads the indices in ascending order as long as no reply but the first reports a length.  A
reply that reports a length sets the indices to read anew, whatever was asked, so a walk starts over
at index 1 after each, and over a device that reports a length each time it never ends.

## Main definitions

* `Outcome.count?`: the length that an outcome reports.
* `Course.Counts`: a walk that has read the indices up to one.

## Main results

* `Walk.span_of_step`: which indices are left to read.
* `Course.reads_ascend`: which index a walk reads next, and when the indices ascend.
* `Course.reads_start_over`: a walk that reads one index for ever.
-/

namespace Fieldbus

/-- The length that a read acknowledgement reports, if it names element 0 of an array. -/
def ReadAck.count? (ack : ReadAck) : Option UInt32 :=
  match ack.datatype with
  | .error _ => none
  | .ok datatype =>
    if datatype.element?.isSome ∧ ack.index = some 0 then
      match ack.valueAs .unsigned with
      | .error _ => none
      | .ok value => (Walk.spanOfLength value).toOption.map Span.last
    else none

/-- The length that an outcome reports. -/
def Outcome.count? : Outcome → Option UInt32
  | .ack (.read reading) => reading.count?
  | _ => none

theorem Walk.map_last_spanOfLength_eq_some_iff {value : Value} {count : UInt32} :
    (spanOfLength value).toOption.map Span.last = some count ↔
      spanOfLength value = .ok (.upTo count) := by
  cases hspan : spanOfLength value with
  | error cause => simp [Except.toOption]
  | ok span =>
    obtain ⟨found, -, -, rfl⟩ := spanOfLength_eq_ok_iff.mp hspan
    simp [Except.toOption, Span.upTo]

/-- A read acknowledgement reports the length that it is decoded to. -/
theorem ReadAck.count?_eq_some_iff {ack : ReadAck} {count : UInt32} :
    ack.count? = some count ↔ ack.NamesLength ∧ ∃ value datatype,
      ack.decode = .ok (value, datatype) ∧ Walk.spanOfLength value = .ok (.upTo count) := by
  by_cases h : ack.NamesLength
  · obtain ⟨hindex, element, hdatatype⟩ := id h
    have hdecode : ack.decode = (ack.valueAs .unsigned).map (·, .unsigned) := by
      rw [decode_of_datatype hdatatype, hindex]
      rfl
    rw [count?, hdatatype, hdecode]
    simp only [Datatype.element?, hindex, Option.isSome_some, and_self, if_true, h, true_and]
    cases ack.valueAs .unsigned with
    | error cause => simp [Except.map]
    | ok value =>
      change (Walk.spanOfLength value).toOption.map Span.last = some count ↔ _
      rw [Walk.map_last_spanOfLength_eq_some_iff]
      simp [Except.map]
  · refine iff_of_false (fun hcount => h ?_) fun hcount => h hcount.1
    unfold count? at hcount
    split at hcount
    · cases hcount
    · rename_i datatype hdatatype
      split at hcount
      · rename_i hlength
        obtain ⟨element, rfl⟩ := Datatype.eq_array_of_element?_ne_none
          (Option.ne_none_iff_isSome.mpr hlength.1)
        exact ⟨hlength.2, element, hdatatype⟩
      · cases hcount

namespace Walk

variable {walk : Walk} {outcome : Outcome}

/-- A read acknowledgement leaves the indices to read, or reports a length, which sets them anew. -/
theorem span_of_apply {ack : ReadAck} {objects : List ObjectReference} {span : Span}
    (h : walk.apply ack = .ok (objects, span)) :
    span = walk.remaining ∨ ∃ count, ack.count? = some count ∧ span = .upTo count := by
  obtain ⟨value, datatype, hdecode, ⟨hlength, hspan, -⟩ | ⟨-, -, hspan⟩⟩ := apply_eq_ok_iff.mp h
  · obtain ⟨count, -, -, rfl⟩ := spanOfLength_eq_ok_iff.mp hspan
    exact .inr ⟨_, ReadAck.count?_eq_some_iff.mpr ⟨hlength, value, datatype, hdecode, hspan⟩, rfl⟩
  · exact .inl hspan

theorem apply_of_count? {ack : ReadAck} {count : UInt32} (h : ack.count? = some count)
    (walk : Walk) : walk.apply ack = .ok ([], .upTo count) := by
  obtain ⟨hlength, value, datatype, hdecode, hspan⟩ := ReadAck.count?_eq_some_iff.mp h
  exact apply_eq_ok_iff.mpr ⟨value, datatype, hdecode, .inl ⟨hlength, hspan, rfl⟩⟩

/-- An outcome that a walk goes on after leaves the indices to read, or reports a length, which sets
them anew. -/
theorem span_of_step {objects : List ObjectReference} {span : Span}
    (h : walk.step outcome = .ok (objects, span)) :
    span = walk.remaining ∨ ∃ count, outcome.count? = some count ∧ span = .upTo count := by
  cases outcome with
  | failure cause => cases h
  | ack ack =>
    cases ack with
    | read reading => exact span_of_apply h
    | _ => cases h

theorem step_of_count? {count : UInt32} (h : outcome.count? = some count) (walk : Walk) :
    walk.step outcome = .ok ([], .upTo count) := by
  cases outcome with
  | failure cause => cases h
  | ack ack =>
    cases ack with
    | read reading => exact apply_of_count? h walk
    | _ => cases h

end Walk

namespace Course

variable {course : Course} {walk origin : Walk} {outcome : Outcome} {last count : UInt32}

/-- A course that is brought a reply is over, or has one more read. -/
theorem onReply_reads (hwalk : course.walk? = some walk) (outcome : Outcome) :
    ((course.onReply outcome).walk? = none ∧ (course.onReply outcome).reads = course.reads) ∨
      ∃ objects span index rest, walk.step outcome = .ok (objects, span) ∧
        span.take? = some (index, rest) ∧
        (course.onReply outcome).walk? = some { walk with remaining := rest } ∧
        (course.onReply outcome).reads = course.reads ++ [walk.readAt index] := by
  rw [onReply, hwalk]
  rcases walk.onReply_steps outcome course.report with
    ⟨after, hreply, -⟩ | ⟨objects, span, index, rest, hstep, htake, hreply⟩
  · simp only [hreply]
    exact .inl ⟨trivial, trivial⟩
  · simp only [hreply]
    exact .inr ⟨objects, span, index, rest, hstep, htake, rfl, rfl⟩

end Course

theorem Span.take?_eq_some {span rest : Span} {index : UInt32}
    (h : span.take? = some (index, rest)) :
    index.toNat = span.next ∧ span.next ≤ span.last.toNat ∧ rest = ⟨span.next + 1, span.last⟩ := by
  obtain ⟨hle, htaken⟩ := Option.ite_none_right_eq_some.mp h
  obtain ⟨rfl, rfl⟩ := Prod.mk.inj (Option.some.inj htaken)
  exact ⟨UInt32.toNat_ofNat_of_lt' (Nat.lt_of_le_of_lt hle span.last.toNat_lt), hle, rfl⟩

namespace Course

variable {course : Course} {walk origin : Walk} {outcome : Outcome} {last count : UInt32}

/-- A walk that has last read an index: the indices that are left begin behind it. -/
structure Reading (course : Course) (origin : Walk) (last : UInt32) : Prop where
  read : course.reads.getLast? = some (origin.readAt last)
  walk : ∀ following ∈ course.walk?,
    following.device = origin.device ∧ following.remaining.next = last.toNat + 1

theorem reading_begin (destination : Mac) (device : UInt32) (report : WalkId) :
    (begin (.onDevice destination device report)).Reading (.onDevice destination device report)
      0 where
  read := rfl
  walk following h := by
    cases h
    exact ⟨rfl, rfl⟩

/-- A walk reads the next index, or starts over at index 1 after a reply that reports a length. -/
theorem Reading.onReply (h : course.Reading origin last) (outcome : Outcome) :
    ((course.onReply outcome).reads = course.reads ∧
      (course.onReply outcome).Reading origin last) ∨
    ∃ next, (course.onReply outcome).reads = course.reads ++ [origin.readAt next] ∧
      (outcome.count? = none ∧ next.toNat = last.toNat + 1 ∨
        next = 1 ∧ ∃ count, outcome.count? = some count ∧ count ≠ 0) ∧
      (course.onReply outcome).Reading origin next := by
  cases hwalk : course.walk? with
  | none =>
    rw [onReply_of_walk?_eq_none hwalk]
    exact .inl ⟨rfl, h⟩
  | some walk =>
    obtain ⟨hdevice, hnext⟩ := h.walk walk hwalk
    have hread : ∀ index, walk.readAt index = origin.readAt index := fun index => by
      rw [Walk.readAt, hdevice, Walk.readAt]
    rcases course.onReply_reads hwalk outcome with
      ⟨hover, hreads⟩ | ⟨objects, span, index, rest, hstep, htake, hfollowing, hreads⟩
    · exact .inl ⟨hreads, hreads ▸ h.read, by rw [hover]; exact nofun⟩
    · obtain ⟨hindex, hle, rfl⟩ := Span.take?_eq_some htake
      rw [hread] at hreads
      refine .inr ⟨index, hreads, ?_, by rw [hreads, List.getLast?_concat], ?_⟩
      · cases hcount : outcome.count? with
        | none =>
          rcases Walk.span_of_step hstep with rfl | ⟨count, hsome, -⟩
          · exact .inl ⟨rfl, hindex.trans hnext⟩
          · rw [hcount] at hsome
            cases hsome
        | some count =>
          obtain ⟨-, rfl⟩ := Prod.mk.inj (Except.ok.inj
            (hstep.symm.trans (Walk.step_of_count? hcount walk)))
          refine .inr ⟨UInt32.toNat_inj.mp hindex, count, rfl, ?_⟩
          rintro rfl
          exact absurd hle (by decide)
      · rw [hfollowing]
        rintro following ⟨⟩
        exact ⟨hdevice, by rw [hindex]⟩

theorem Reading.along (h : course.Reading origin last) (outcomes : List Outcome) :
    ∃ last, (course.along outcomes).Reading origin last := by
  induction outcomes generalizing course last with
  | nil => exact ⟨last, h⟩
  | cons outcome rest ih =>
    rcases h.onReply outcome with ⟨-, hsame⟩ | ⟨next, -, -, hnext⟩
    · exact ih hsame
    · exact ih hnext

/-! ### Walks that hear of one length -/

/-- A walk over a list of some length that has read the indices up to one. -/
structure Counts (course : Course) (origin : Walk) (count : UInt32) (index : Nat) : Prop where
  reads : course.reads =
    (List.range (index + 1)).map fun index => origin.readAt (UInt32.ofNat index)
  le : index ≤ count.toNat
  walk : ∀ following ∈ course.walk?,
    following.device = origin.device ∧ following.remaining = ⟨index + 1, count⟩

/-- A reply that reports no length brings a walk to the next index, or the walk is over. -/
theorem Counts.onReply {index : Nat} (h : course.Counts origin count index)
    (hcount : outcome.count? = none) :
    ((course.onReply outcome).walk? = none ∧ (course.onReply outcome).Counts origin count index) ∨
      (course.onReply outcome).Counts origin count (index + 1) := by
  cases hwalk : course.walk? with
  | none =>
    rw [onReply_of_walk?_eq_none hwalk]
    exact .inl ⟨hwalk, h⟩
  | some walk =>
    obtain ⟨hdevice, hremaining⟩ := h.walk walk hwalk
    rcases course.onReply_reads hwalk outcome with
      ⟨hover, hreads⟩ | ⟨objects, span, next, rest, hstep, htake, hfollowing, hreads⟩
    · exact .inl ⟨hover, hreads.trans h.reads, h.le, by rw [hover]; exact nofun⟩
    · rcases Walk.span_of_step hstep with rfl | ⟨other, hsome, -⟩
      · obtain ⟨hnext, hle, rfl⟩ := Span.take?_eq_some htake
        rw [hremaining] at hnext hle hfollowing
        have hindex : next = UInt32.ofNat (index + 1) := by
          rw [← show next.toNat = index + 1 from hnext, UInt32.ofNat_toNat]
        have hread : walk.readAt next = origin.readAt (UInt32.ofNat (index + 1)) := by
          rw [Walk.readAt, hdevice, hindex, Walk.readAt]
        refine .inr ⟨?_, hle, ?_⟩
        · rw [hreads, h.reads, hread, @List.range_succ (index + 1), List.map_append,
            List.map_singleton]
        · rw [hfollowing]
          rintro following ⟨⟩
          exact ⟨hdevice, rfl⟩
      · rw [hcount] at hsome
        cases hsome

/-- Replies that report no length lead a walk from index to index. -/
theorem Counts.along {index : Nat} (h : course.Counts origin count index) {outcomes : List Outcome}
    (hcounts : ∀ outcome ∈ outcomes, outcome.count? = none) :
    ∃ later, (course.along outcomes).Counts origin count later ∧
      ((course.along outcomes).walk?.isSome = true → later = index + outcomes.length) := by
  induction outcomes generalizing course index with
  | nil => exact ⟨index, h, fun _ => rfl⟩
  | cons outcome rest ih =>
    obtain ⟨hcount, hrest⟩ := List.forall_mem_cons.mp hcounts
    have halong : course.along (outcome :: rest) = (course.onReply outcome).along rest := rfl
    rcases h.onReply hcount with ⟨hover, hsame⟩ | hnext
    · rw [halong, along_of_walk?_eq_none hover, hover]
      exact ⟨index, hsame, nofun⟩
    · obtain ⟨later, hlater, hlength⟩ := ih hnext hrest
      refine ⟨later, hlater, fun hsome => ?_⟩
      rw [hlength hsome, List.length_cons]
      omega

/-- A walk that hears of a length first counts from there. -/
theorem counts_onReply_begin (destination : Mac) (device : UInt32) (report : WalkId)
    (hcount : outcome.count? = some count) :
    let origin := Walk.onDevice destination device report
    ∃ index, ((begin origin).onReply outcome).Counts origin count index ∧
      (((begin origin).onReply outcome).walk?.isSome = true → index = 1) := by
  intro origin
  have hstep := Walk.step_of_count? hcount origin
  rcases (begin origin).onReply_reads rfl outcome with
    ⟨hover, hreads⟩ | ⟨objects, span, next, rest, hfound, htake, hfollowing, hreads⟩
  · rw [hover]
    exact ⟨0, ⟨hreads, Nat.zero_le _, by rw [hover]; exact nofun⟩, nofun⟩
  · obtain ⟨-, rfl⟩ := Prod.mk.inj (Except.ok.inj (hfound.symm.trans hstep))
    obtain ⟨hnext, hle, rfl⟩ := Span.take?_eq_some htake
    obtain rfl : next = 1 := UInt32.toNat_inj.mp hnext
    refine ⟨1, ⟨hreads, hle, ?_⟩, fun _ => rfl⟩
    rw [hfollowing]
    rintro following ⟨⟩
    exact ⟨rfl, rfl⟩

/-- A walk that hears of a length in the first reply only reads on with each reply, or is over. -/
theorem counts_along_begin (destination : Mac) (device : UInt32) (report : WalkId)
    (hcount : outcome.count? = some count) {rest : List Outcome}
    (hrest : ∀ outcome ∈ rest, outcome.count? = none) :
    let origin := Walk.onDevice destination device report
    ∃ index, (((begin origin).onReply outcome).along rest).Counts origin count index ∧
      ((((begin origin).onReply outcome).along rest).walk?.isSome = true →
        index = rest.length + 1) := by
  intro origin
  obtain ⟨index, hbegun, hone⟩ := counts_onReply_begin destination device report hcount
  cases hwalk : ((begin origin).onReply outcome).walk? with
  | none =>
    rw [along_of_walk?_eq_none hwalk, hwalk]
    exact ⟨index, hbegun, nofun⟩
  | some walk =>
    obtain ⟨later, hlater, hlength⟩ := hbegun.along hrest
    refine ⟨later, hlater, fun hsome => ?_⟩
    rw [hlength hsome, hone (Option.isSome_of_mem hwalk), Nat.add_comm]

theorem onReply_begin_of_count?_eq_none (destination : Mac) (device : UInt32) (report : WalkId)
    (hcount : outcome.count? = none) :
    let origin := Walk.onDevice destination device report
    ((begin origin).onReply outcome).walk? = none ∧
      ((begin origin).onReply outcome).reads = [origin.readAt 0] := by
  intro origin
  rcases (begin origin).onReply_reads rfl outcome with
    ⟨hover, hreads⟩ | ⟨objects, span, next, rest, hfound, htake, -⟩
  · exact ⟨hover, hreads⟩
  · rcases Walk.span_of_step hfound with rfl | ⟨count, hsome, -⟩
    · cases htake
    · rw [hcount] at hsome
      cases hsome

/-- **The reads of a walk ascend as long as no reply but the first reports a length.**  Whatever the
device answers, a walk that goes on reads the next index, or starts over at index 1 after a reply
that reports a length other than 0.  If no reply but the first reports a length, the indices read
are 0, 1, 2 and so on, without a gap and each once; and if the first reports a length, there are at
most that many reads of elements, and the walk is over once each read has its reply. -/
theorem reads_ascend (destination : Mac) (device : UInt32) (report : WalkId)
    (outcomes : List Outcome) :
    let origin := Walk.onDevice destination device report
    let course := (begin origin).along outcomes
    (∃ last, course.reads.getLast? = some (origin.readAt last) ∧ ∀ outcome,
      (course.onReply outcome).reads = course.reads ∨
        ∃ next, (course.onReply outcome).reads = course.reads ++ [origin.readAt next] ∧
          (outcome.count? = none ∧ next.toNat = last.toNat + 1 ∨
            next = 1 ∧ ∃ count, outcome.count? = some count ∧ count ≠ 0)) ∧
    ((∀ outcome ∈ outcomes.tail, outcome.count? = none) →
      (∃ length ≤ UInt32.size, course.reads =
        (List.range length).map fun index => origin.readAt (UInt32.ofNat index)) ∧
      ∀ count, outcomes.head?.bind Outcome.count? = some count →
        course.reads.length ≤ count.toNat + 1 ∧
          (count.toNat < outcomes.length → course.walk? = none)) := by
  intro origin course
  refine ⟨?_, fun hothers => ?_⟩
  · obtain ⟨last, hlast⟩ := (reading_begin destination device report).along outcomes
    refine ⟨last, hlast.read, fun outcome => ?_⟩
    rcases hlast.onReply outcome with ⟨hreads, -⟩ | ⟨next, hreads, hindex, -⟩
    · exact .inl hreads
    · exact .inr ⟨next, hreads, hindex⟩
  · cases outcomes with
    | nil => exact ⟨⟨1, by decide, rfl⟩, nofun⟩
    | cons first rest =>
      cases hcount : first.count? with
      | none =>
        obtain ⟨hover, hreads⟩ := onReply_begin_of_count?_eq_none destination device report hcount
        have hcourse : course = (begin origin).onReply first := along_of_walk?_eq_none hover rest
        rw [hcourse]
        refine ⟨⟨1, by decide, hreads⟩, fun count hsome => ?_⟩
        rw [List.head?_cons, Option.bind_some, hcount] at hsome
        cases hsome
      | some count =>
        obtain ⟨index, hcounts, hlength⟩ : ∃ index, course.Counts origin count index ∧
            (course.walk?.isSome = true → index = rest.length + 1) :=
          counts_along_begin destination device report hcount hothers
        refine ⟨⟨index + 1, ?_, hcounts.reads⟩, fun found hfound => ?_⟩
        · exact Nat.succ_le_of_lt (Nat.lt_of_le_of_lt hcounts.le count.toNat_lt)
        · obtain rfl : count = found := Option.some.inj (hcount.symm.trans hfound)
          have hle := hcounts.le
          refine ⟨?_, fun hreplies => ?_⟩
          · rw [hcounts.reads, List.length_map, List.length_range]
            omega
          · rw [List.length_cons] at hreplies
            rw [← Option.not_isSome_iff_eq_none]
            intro hgoes
            have hindex := hlength hgoes
            omega

/-! ### Walks that never end -/

theorem onReply_of_count? (hcount : outcome.count? = some count) (hcount0 : count ≠ 0)
    (hwalk : course.walk? = some walk) (hwaits : course.report.abandoned = false) :
    course.onReply outcome =
      ⟨some { walk with remaining := ⟨2, count⟩ }, course.report.extend [],
        course.reads ++ [walk.readAt 1]⟩ := by
  have hpos : 1 ≤ count.toNat :=
    Nat.one_le_iff_ne_zero.mpr fun hzero => hcount0 (UInt32.toNat_inj.mp hzero)
  have htake : (Span.upTo count).take? = some (1, ⟨2, count⟩) := if_pos hpos
  have hreply : walk.onReply outcome course.report =
      (some (walk.readAt 1, { walk with remaining := ⟨2, count⟩ }), course.report.extend []) := by
    rw [Walk.onReply, hwaits]
    simp only [Walk.step_of_count? hcount walk, htake]
    rfl
  simp only [onReply, hwalk, hreply]

/-- Over a device that reports a length with every reply a walk reads index 1 for ever. -/
theorem along_replicate_of_count? (hcount : outcome.count? = some count) (hcount0 : count ≠ 0)
    (hwalk : course.walk? = some walk) (hwaits : course.report.abandoned = false) (replies : Nat) :
    (course.along (List.replicate replies outcome)).reads =
      course.reads ++ List.replicate replies (walk.readAt 1) := by
  induction replies generalizing course walk with
  | zero => exact (List.append_nil _).symm
  | succ replies ih =>
    have hreply := onReply_of_count? hcount hcount0 hwalk hwaits
    have hnext : (course.onReply outcome).report.abandoned = false := by
      rw [hreply]
      exact hwaits
    have halong : course.along (List.replicate (replies + 1) outcome) =
        (course.onReply outcome).along (List.replicate replies outcome) := rfl
    rw [halong, ih (congrArg Course.walk? hreply) hnext, hreply, List.replicate_succ]
    exact (List.append_cons ..).symm

/-- A device that answers every read with a length of 1 is asked for the length once and for its
first element ever again. -/
theorem reads_start_over :
    let origin := Walk.onDevice 5 8 0
    let length : Outcome := .ack (.read ⟨⟨.device, 8⟩, .objectList, some 0, [33, 1]⟩)
    (∀ replies, ((begin origin).along (List.replicate replies length)).reads =
      origin.readAt 0 :: List.replicate replies (origin.readAt 1)) ∧
    ¬ ∃ count, ((begin origin).along [length, length]).reads =
      (List.range count).map fun index => origin.readAt (UInt32.ofNat index) := by
  intro origin length
  have hcount : length.count? = some 1 := by decide +kernel
  have hreads := fun replies =>
    along_replicate_of_count? hcount (by decide) (show (begin origin).walk? = some origin from rfl)
      rfl replies
  refine ⟨hreads, fun ⟨count, hascends⟩ => ?_⟩
  have htwo : ((begin origin).along [length, length]).reads =
      [origin.readAt 0, origin.readAt 1, origin.readAt 1] := hreads 2
  rw [htwo] at hascends
  obtain rfl : 3 = count := by simpa using congrArg List.length hascends
  revert hascends
  decide

end Course

end Fieldbus
