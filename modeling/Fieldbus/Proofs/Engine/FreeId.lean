import Mathlib.Data.List.Iterate
import Fieldbus.Proofs.Engine.Client

/-!
# The next free id

An engine looks for a free id from its cursor on, one id after the other, and from the last id goes
on to the first.  The id that is found is the first free one in this order; only where all ids are
busy nothing is found, and the search has then come round to where it began.

## Main definitions

* `Attempt`, `attempts`, `search`: the looks at one id after the other.
* `Consecutive`: looks at one id after the other.
* `Spaced`: looks that come back to an id only after all others.
* `Worker.IsNext`: the first free id, going round from the cursor.
* `Worker.passed`: the ids that the cursor passes over.

## Main results

* `Consecutive.spaced`: looks at one id after the other come to all others in between.
* `firstFree_eq_some_iff`: which id is found.
* `Worker.takeId?_eq_none_iff`, `Worker.takeId?_eq_some_iff`: what an engine finds.
* `Worker.cursor_of_takeId?`: every look moves the cursor on by one.
-/

namespace Fieldbus

/-- A look at an id in search of a free one. -/
structure Attempt where
  id : InvokeId
  /-- Whether the id was free and is given out. -/
  given : Bool
  deriving DecidableEq, Repr

/-- The looks at up to `count` ids from `id` on, up to the first that is not busy. -/
def attempts (busy : InvokeId → Bool) : Nat → InvokeId → List Attempt
  | 0, _ => []
  | count + 1, id =>
    if busy id then ⟨id, false⟩ :: attempts busy count (id + 1) else [⟨id, true⟩]

/-- The search as it goes: every look moves the cursor on by one. -/
def search (busy : InvokeId → Bool) : Nat → InvokeId → Option InvokeId × InvokeId
  | 0, cursor => (none, cursor)
  | count + 1, cursor =>
    if busy cursor then search busy count (cursor + 1) else (some cursor, cursor + 1)

/-! ### Going round -/

theorem iterate_succ_id (count : Nat) (id : InvokeId) :
    (fun id : InvokeId => id + 1)^[count] id = id + UInt8.ofNat count := by
  induction count with
  | zero => exact (UInt8.add_zero id).symm
  | succ count ih =>
    rw [Function.iterate_succ_apply', ih, UInt8.ofNat_add, UInt8.add_assoc]
    rfl

theorem toNat_sub_succ {id other : InvokeId} (h : id ≠ other) :
    (id - other).toNat = (id - (other + 1)).toNat + 1 := by
  have hne : id.toNat ≠ other.toNat := fun heq => h (UInt8.toNat_inj.mp heq)
  have hid := id.toNat_lt
  have hother := other.toNat_lt
  rw [UInt8.toNat_sub, UInt8.toNat_sub, UInt8.toNat_add]
  change (2 ^ 8 - other.toNat + id.toNat) % 2 ^ 8 =
    (2 ^ 8 - (other.toNat + 1) % 2 ^ 8 + id.toNat) % 2 ^ 8 + 1
  omega

/-- Going round one comes to all ids within so many steps. -/
theorem mem_iterate_succ {start id : InvokeId} {count : Nat} (h : (id - start).toNat < count) :
    id ∈ List.iterate (· + 1) start count := by
  refine List.mem_iterate.mpr ⟨(id - start).toNat, h, ?_⟩
  rw [iterate_succ_id, UInt8.ofNat_toNat, UInt8.add_comm, UInt8.sub_add_cancel]

/-- Looks at one id after the other, from an id on. -/
def Consecutive (start : InvokeId) (attempts : List Attempt) : Prop :=
  attempts.map Attempt.id = List.iterate (· + 1) start attempts.length

/-- Between two looks at an id there is one at every other. -/
def Spaced (attempts : List Attempt) : Prop :=
  ∀ front between back first again, attempts = front ++ first :: (between ++ again :: back) →
    first.id = again.id → ∀ id, id ≠ first.id → ∃ attempt ∈ between, attempt.id = id

section Consecutive

variable {start : InvokeId} {attempts more : List Attempt} {attempt : Attempt}

theorem consecutive_nil : Consecutive start [] := rfl

theorem consecutive_cons :
    Consecutive start (attempt :: attempts) ↔
      attempt.id = start ∧ Consecutive (start + 1) attempts := by
  rw [Consecutive, Consecutive, List.map_cons, List.length_cons, List.iterate, List.cons.injEq]

theorem consecutive_append :
    Consecutive start (attempts ++ more) ↔
      Consecutive start attempts ∧
        Consecutive (start + UInt8.ofNat attempts.length) more := by
  rw [Consecutive, Consecutive, Consecutive, List.map_append, List.length_append,
    List.iterate_add, iterate_succ_id]
  exact ⟨fun h => List.append_inj h (by rw [List.length_map, List.length_iterate]),
    fun ⟨hfirst, hmore⟩ => by rw [hfirst, hmore]⟩

/-- Where looks come back to an id, they have come to all others. -/
theorem Consecutive.spaced (h : Consecutive start attempts) : Spaced attempts := by
  intro front between back first again hsplit hsame id hne
  subst hsplit
  obtain ⟨-, hrest⟩ := consecutive_append.mp h
  obtain ⟨hfirst, hrest⟩ := consecutive_cons.mp hrest
  obtain ⟨hbetween, hrest⟩ := consecutive_append.mp hrest
  obtain ⟨hagain, -⟩ := consecutive_cons.mp hrest
  rw [← hfirst] at hbetween hagain
  rw [← hsame] at hagain
  -- the way back to the id is a whole number of rounds
  have hround : 255 ≤ between.length := by
    have hnat := congrArg UInt8.toNat hagain
    have hlt := first.id.toNat_lt
    rw [UInt8.toNat_add, UInt8.toNat_add, UInt8.toNat_ofNat'] at hnat
    change first.id.toNat =
      ((first.id.toNat + 1) % 2 ^ 8 + between.length % 2 ^ 8) % 2 ^ 8 at hnat
    omega
  have hdistance : (id - (first.id + 1)).toNat < between.length := by
    have := toNat_sub_succ hne
    have := (id - first.id).toNat_lt
    omega
  exact List.mem_map.mp (hbetween ▸ mem_iterate_succ hdistance)

end Consecutive

/-! ### What is found -/

section Search

variable {busy : InvokeId → Bool} {count : Nat} {start free : InvokeId}

/-- What is found is the first free id among those that are looked at. -/
theorem firstFree_eq_some_iff :
    firstFree busy count start = some free ↔
      (free - start).toNat < count ∧ busy free = false ∧
        ∀ id, (id - start).toNat < (free - start).toNat → busy id = true := by
  induction count generalizing start with
  | zero => simp [firstFree]
  | succ count ih =>
    have hself : (start - start).toNat = 0 := by
      rw [UInt8.sub_self]
      rfl
    rw [firstFree]
    split
    · rename_i hbusy
      rw [ih]
      by_cases hfree : free = start
      · subst hfree
        simp [hbusy]
      · rw [toNat_sub_succ hfree, Nat.add_lt_add_iff_right]
        refine and_congr_right fun _ => and_congr_right fun _ => forall_congr' fun id => ?_
        by_cases hid : id = start
        · subst hid
          simp [hbusy]
        · rw [toNat_sub_succ hid, Nat.add_lt_add_iff_right]
    · rename_i hidle
      have hidle : busy start = false := by simpa using hidle
      constructor
      · rintro ⟨⟩
        rw [hself]
        exact ⟨Nat.succ_pos count, hidle, fun id hid => absurd hid (Nat.not_lt_zero _)⟩
      · rintro ⟨-, -, hfirst⟩
        by_contra hne
        have hpos : (start - start).toNat < (free - start).toNat := by
          rw [hself, toNat_sub_succ fun heq => hne (congrArg some heq.symm)]
          exact Nat.succ_pos _
        rw [hfirst start hpos] at hidle
        cases hidle

theorem consecutive_attempts (busy : InvokeId → Bool) (count : Nat) (start : InvokeId) :
    Consecutive start (attempts busy count start) := by
  induction count generalizing start with
  | zero => exact consecutive_nil
  | succ count ih =>
    rw [attempts]
    split
    · exact consecutive_cons.mpr ⟨rfl, ih (start + 1)⟩
    · exact consecutive_cons.mpr ⟨rfl, consecutive_nil⟩

theorem given_attempts (busy : InvokeId → Bool) (count : Nat) (start : InvokeId) :
    ((attempts busy count start).filter Attempt.given).map Attempt.id =
      (firstFree busy count start).toList := by
  induction count generalizing start with
  | zero => rfl
  | succ count ih =>
    rw [attempts, firstFree]
    split
    · rw [List.filter_cons_of_neg (by simp), ih]
    · rfl

/-- An id is passed over if it is busy, and only then. -/
theorem given_of_mem_attempts {attempt : Attempt} (h : attempt ∈ attempts busy count start) :
    attempt.given = !busy attempt.id := by
  induction count generalizing start with
  | zero => cases h
  | succ count ih =>
    rw [attempts] at h
    split at h
    · rename_i hbusy
      rcases List.mem_cons.mp h with rfl | h
      · simp [hbusy]
      · exact ih h
    · rename_i hidle
      obtain rfl := List.mem_singleton.mp h
      simpa using hidle

/-- The search finds the first free id, and the cursor has moved by one id for each look. -/
theorem search_eq (busy : InvokeId → Bool) (count : Nat) (cursor : InvokeId) :
    search busy count cursor =
      (firstFree busy count cursor,
        cursor + UInt8.ofNat (attempts busy count cursor).length) := by
  induction count generalizing cursor with
  | zero => exact congrArg (Prod.mk none) (UInt8.add_zero cursor).symm
  | succ count ih =>
    rw [search, firstFree, attempts]
    split
    · rw [ih, List.length_cons, UInt8.ofNat_add, UInt8.add_comm (UInt8.ofNat _), ← UInt8.add_assoc]
      rfl
    · rfl

theorem length_attempts_of_eq_none (h : firstFree busy count start = none) :
    (attempts busy count start).length = count := by
  induction count generalizing start with
  | zero => rfl
  | succ count ih =>
    rw [firstFree] at h
    rw [attempts]
    split at h
    · rename_i hbusy
      rw [if_pos hbusy, List.length_cons, ih h]
    · cases h

/-- The search ends just behind the id that is found. -/
theorem add_length_attempts_of_eq_some (h : firstFree busy count start = some free) :
    start + UInt8.ofNat (attempts busy count start).length = free + 1 := by
  induction count generalizing start with
  | zero => cases h
  | succ count ih =>
    rw [firstFree] at h
    rw [attempts]
    split at h
    · rename_i hbusy
      rw [if_pos hbusy, List.length_cons, ← ih h, UInt8.ofNat_add, UInt8.add_assoc,
        UInt8.add_comm (UInt8.ofNat _)]
      rfl
    · rename_i hidle
      cases h
      rw [if_neg hidle]
      rfl

end Search

/-! ### What an engine finds -/

namespace Worker

/-- The looks at one id after the other when an engine needs one. -/
def attempts (worker : Worker) : List Attempt :=
  Fieldbus.attempts worker.isBusy invokeIds worker.cursor

/-- The looks that move the cursor on.  A search that finds nothing comes round to where it began,
so it passes over no id. -/
def passed (worker : Worker) : List Attempt :=
  if worker.takeId?.isSome = true then worker.attempts else []

/-- The first id under which nothing waits, going round from the cursor. -/
structure IsNext (worker : Worker) (id : InvokeId) : Prop where
  free : worker.isBusy id = false
  first : ∀ other, (other - worker.cursor).toNat < (id - worker.cursor).toNat →
    worker.isBusy other = true

variable {worker after : Worker} {id : InvokeId}

/-- Nothing is found exactly if all ids are busy. -/
theorem takeId?_eq_none_iff : worker.takeId? = none ↔ ∀ id, worker.isBusy id = true := by
  constructor
  · intro hnone id
    by_contra hidle
    obtain ⟨taken, hsome⟩ := exists_takeId?_eq_some (eq_false_of_ne_true hidle)
    cases hnone.symm.trans hsome
  · intro hbusy
    by_contra hsome
    obtain ⟨⟨id, after⟩, hsome⟩ := Option.ne_none_iff_exists'.mp hsome
    cases (hbusy id).symm.trans (isBusy_of_takeId? hsome)

/-- **The id that is given out is the first free one**, and leaves the cursor just behind it. -/
theorem takeId?_eq_some_iff :
    worker.takeId? = some (id, after) ↔
      worker.IsNext id ∧ after = { worker with cursor := id + 1 } := by
  have hfound : firstFree worker.isBusy invokeIds worker.cursor = some id ↔ worker.IsNext id := by
    rw [firstFree_eq_some_iff]
    exact ⟨fun ⟨_, hfree, hfirst⟩ => ⟨hfree, hfirst⟩,
      fun h => ⟨(id - worker.cursor).toNat_lt, h.free, h.first⟩⟩
  rw [takeId?, Option.map_eq_some_iff, ← hfound]
  constructor
  · rintro ⟨found, hsome, heq⟩
    obtain ⟨rfl, rfl⟩ := Prod.mk.inj heq
    exact ⟨hsome, rfl⟩
  · rintro ⟨hsome, rfl⟩
    exact ⟨id, hsome, rfl⟩

/-- **Every look moves the cursor on by one**; after all ids were looked at it is where it was. -/
theorem cursor_of_takeId? (worker : Worker) :
    (worker.takeId?.elim worker Prod.snd).cursor =
      worker.cursor + UInt8.ofNat worker.attempts.length := by
  rw [takeId?, attempts]
  cases hfound : firstFree worker.isBusy invokeIds worker.cursor with
  | none =>
    rw [length_attempts_of_eq_none hfound]
    exact (UInt8.add_zero _).symm
  | some id => exact (add_length_attempts_of_eq_some hfound).symm

/-- An engine gives out an id as long as one is free, always the first one going round from the
cursor, and leaves the cursor just behind it.  Where all ids are busy the search comes round to
where it began. -/
structure TakesTurns (worker : Worker) : Prop where
  none_iff : worker.takeId? = none ↔ ∀ id, worker.isBusy id = true
  some_iff : ∀ id after, worker.takeId? = some (id, after) ↔
    worker.IsNext id ∧ after = { worker with cursor := id + 1 }
  search : search worker.isBusy invokeIds worker.cursor =
    (worker.takeId?.map Prod.fst, (worker.takeId?.elim worker Prod.snd).cursor)

theorem takesTurns (worker : Worker) : worker.TakesTurns where
  none_iff := takeId?_eq_none_iff
  some_iff _ _ := takeId?_eq_some_iff
  search := by
    rw [search_eq, cursor_of_takeId?, attempts, takeId?, Option.map_map]
    exact congrArg (Prod.mk · _) Option.map_id'.symm

/-! ### What the cursor passes over -/

theorem passed_of_none (h : worker.takeId? = none) : worker.passed = [] := by
  rw [passed, h]
  rfl

theorem passed_of_some (h : worker.takeId? = some (id, after)) :
    worker.passed = worker.attempts := by
  rw [passed, h]
  rfl

/-- Where nothing waits the first id that is looked at is given out. -/
theorem takeId?_of_pending_eq_nil (h : worker.pending = []) :
    worker.takeId? = some (worker.cursor, { worker with cursor := worker.cursor + 1 }) ∧
      worker.passed = [⟨worker.cursor, true⟩] := by
  have hidle : worker.isBusy = fun _ => false := by
    funext id
    rw [isBusy, h]
    rfl
  have htake : worker.takeId? =
      some (worker.cursor, { worker with cursor := worker.cursor + 1 }) := by
    rw [takeId?, hidle]
    rfl
  refine ⟨htake, ?_⟩
  rw [passed_of_some htake, attempts, hidle]
  rfl

theorem consecutive_passed (worker : Worker) : Consecutive worker.cursor worker.passed := by
  rw [passed]
  split
  · exact consecutive_attempts _ _ _
  · exact consecutive_nil

theorem given_of_mem_passed {attempt : Attempt} (h : attempt ∈ worker.passed) :
    attempt.given = !worker.isBusy attempt.id := by
  rw [passed] at h
  split at h
  · exact given_of_mem_attempts h
  · cases h

theorem given_passed_of_some (h : worker.takeId? = some (id, after)) :
    (worker.passed.filter Attempt.given).map Attempt.id = [id] := by
  obtain ⟨free, hfound, heq⟩ := Option.map_eq_some_iff.mp h
  rw [passed_of_some h, attempts, given_attempts, hfound, (Prod.mk.inj heq).1]
  rfl

theorem cursor_of_some (h : worker.takeId? = some (id, after)) :
    after.cursor = worker.cursor + UInt8.ofNat worker.passed.length := by
  have hcursor := worker.cursor_of_takeId?
  rwa [h, ← passed_of_some h] at hcursor

end Worker

end Fieldbus
