import Mathlib.Data.List.Perm.Basic
import Proactor.Proofs.Pool.Interleaving
/-! # The steps of workers and callers

`Party.Step` lists every single thing that the next step of a party can do, with the conditions
under which it does it.  What every step keeps is proved by cases over this relation; the
definitions of the steps are opened here only. -/

namespace Proactor.Pool

variable {J : Type}

/-! ### The queues -/

/-- The pool with the queue of a worker replaced. -/
def withQueue (p : Pool J) (i : Nat) (q : List J) : Pool J :=
  { p with queues := p.queues.set i q }

variable {p p' : Pool J} {i j : Nat} {job : J} {rest : List J}

theorem queue_new (n i : Nat) : (new n : Pool J).queue i = [] := by
  by_cases hi : i < n <;> simp [new, queue, hi]

theorem pop_of_cons (h : p.queue i = job :: rest) : p.pop i = some (job, p.withQueue i rest) := by
  simp [pop, h, withQueue]

theorem pop_of_nil (h : p.queue i = []) : p.pop i = none := by
  simp [pop, h]

/-- A pop finds the queue empty, or it takes the oldest job. -/
theorem pop_cases (p : Pool J) (i : Nat) :
    (p.queue i = [] ∧ p.pop i = none) ∨
      ∃ job rest, p.queue i = job :: rest ∧ p.pop i = some (job, p.withQueue i rest) := by
  cases h : p.queue i with
  | nil => exact .inl ⟨rfl, pop_of_nil h⟩
  | cons job rest => exact .inr ⟨job, rest, rfl, pop_of_cons h⟩

theorem queue_eq_getElem (hi : i < p.queues.length) : p.queue i = p.queues[i] := by
  simp [queue, hi]

theorem lt_size_of_queue (h : p.queue i ≠ []) : i < p.size := by
  by_contra hi
  have hi : p.queues.length ≤ i := Nat.le_of_not_lt hi
  exact h (by simp [queue, hi])

@[simp] theorem size_push (p : Pool J) (i : Nat) (job : J) : (p.push i job).size = p.size :=
  List.length_modify ..

@[simp] theorem size_withQueue (p : Pool J) (i : Nat) (q : List J) :
    (p.withQueue i q).size = p.size := List.length_set

theorem push_eq_withQueue (hi : i < p.size) :
    p.push i job = p.withQueue i (p.queue i ++ [job]) := by
  have hi : i < p.queues.length := hi
  rw [push, withQueue, queue_eq_getElem hi, List.modify_eq_set_getElem?]
  simp [hi]

theorem withQueue_queue (hi : i < p.size) : p.withQueue i (p.queue i) = p := by
  have hi : i < p.queues.length := hi
  simp [withQueue, queue_eq_getElem hi]

theorem queue_withQueue (hi : i < p.size) (q : List J) (j : Nat) :
    (p.withQueue i q).queue j = if i = j then q else p.queue j := by
  have hi : i < p.queues.length := hi
  by_cases h : i = j
  · subst h
    simp [queue, withQueue, hi]
  · simp [queue, withQueue, h]

theorem queue_push (hi : i < p.size) (j : Nat) :
    (p.push i job).queue j = if i = j then p.queue i ++ [job] else p.queue j := by
  rw [push_eq_withQueue hi, queue_withQueue hi]

/-- What waits after a job was taken was waiting before. -/
theorem mem_of_mem_rest (h : p.queue i = job :: rest) {other : J}
    (ho : other ∈ (p.withQueue i rest).queue j) : other ∈ p.queue j := by
  rw [queue_withQueue (lt_size_of_queue (by simp [h]))] at ho
  split at ho
  · next hj =>
    rw [← hj, h]
    exact List.mem_cons_of_mem job ho
  · exact ho

/-- All that waits is what waits in one queue, and what waits in the others. -/
theorem flatten_withQueue (hi : i < p.size) (q : List J) :
    (p.withQueue i q).queues.flatten.Perm (q ++ (p.queues.eraseIdx i).flatten) := by
  have hi : i < p.queues.length := hi
  rw [withQueue, List.set_eq_take_append_cons_drop, if_pos hi, List.eraseIdx_eq_take_drop_succ]
  simp only [List.flatten_append, List.flatten_cons, ← List.append_assoc]
  exact List.perm_append_comm.append_right _

/-- A new job is one more among all that wait. -/
theorem flatten_push (hi : i < p.size) :
    (p.push i job).queues.flatten.Perm (job :: p.queues.flatten) := by
  have old := flatten_withQueue hi (p.queue i)
  rw [withQueue_queue hi] at old
  rw [push_eq_withQueue hi]
  refine (flatten_withQueue hi _).trans (.trans ?_ (old.cons job).symm)
  rw [List.append_assoc]
  exact List.perm_middle

/-- A job that is taken is one less. -/
theorem flatten_of_cons (h : p.queue i = job :: rest) :
    p.queues.flatten.Perm (job :: (p.withQueue i rest).queues.flatten) := by
  have hi : i < p.size := lt_size_of_queue (by simp [h])
  have old := flatten_withQueue hi (p.queue i)
  rw [withQueue_queue hi, h] at old
  exact old.trans ((flatten_withQueue hi rest).cons job).symm

/-! ### Steps -/

/-- What the next step of a party can do. -/
inductive Party.Step (p : Pool J) : Party J → Pool J → Party J → Prop
  | workerTook {i : Nat} {job : J} {rest : List J} (h : p.queue i = job :: rest) :
      Step p ⟨.worker i .pop, false⟩ { p.withQueue i rest with active := p.active + 1 }
        ⟨.worker i (.run job), false⟩
  | workerIdle {i : Nat} (h : p.queue i = []) :
      Step p ⟨.worker i .pop, false⟩ p ⟨.worker i .check, false⟩
  | workerHalted {i : Nat} (h : p.halted = true) :
      Step p ⟨.worker i .check, false⟩ p ⟨.worker i .confirm, false⟩
  | workerRested {i : Nat} (h : p.halted = false) :
      Step p ⟨.worker i .check, false⟩ p ⟨.worker i .park, false⟩
  | workerEnded {i : Nat} (h : p.queue i = []) :
      Step p ⟨.worker i .confirm, false⟩ { p with live := p.live - 1 } ⟨.worker i .ended, false⟩
  | workerAgain {i : Nat} (h : p.queue i ≠ []) :
      Step p ⟨.worker i .confirm, false⟩ p ⟨.worker i .pop, false⟩
  | workerWoke {i : Nat} : Step p ⟨.worker i .park, false⟩ p ⟨.worker i .pop, false⟩
  | pushed {brought : J} {lane : Lane} {job : J} {i : Nat} (h : lane.bucket p.size = i) :
      Step p ⟨.scheduling brought (.push lane job), false⟩ (p.push i job)
        ⟨.scheduling brought (.look i), false⟩
  | lookedStopped {brought : J} {i : Nat} (h : p.stopped = true) :
      Step p ⟨.scheduling brought (.look i), false⟩ p ⟨.scheduling brought (.drain i), false⟩
  | lookedOpen {brought : J} {i : Nat} (h : p.stopped = false) :
      Step p ⟨.scheduling brought (.look i), false⟩ p ⟨.scheduling brought .ended, false⟩
  | callTook {brought : J} {i : Nat} {job : J} {rest : List J} (h : p.queue i = job :: rest) :
      Step p ⟨.scheduling brought (.drain i), false⟩ (p.withQueue i rest)
        ⟨.scheduling brought (.run i job), false⟩
  | callLeft {brought : J} {i : Nat} (h : p.queue i = []) :
      Step p ⟨.scheduling brought (.drain i), false⟩ p ⟨.scheduling brought .ended, false⟩
  | halted {first : Bool} (h : p.halted = false) :
      Step p ⟨.shutdown first .enter, false⟩ { p with halted := true } ⟨.shutdown true .join, false⟩
  | haltedBefore {first : Bool} (h : p.halted = true) :
      Step p ⟨.shutdown first .enter, false⟩ p ⟨.shutdown false .ended, false⟩
  | stopped {first : Bool} (h : p.live = 0) :
      Step p ⟨.shutdown first .join, false⟩ { p with stopped := true }
        ⟨.shutdown first (.drain 0), false⟩
  | lastTook {first : Bool} {i : Nat} {job : J} {rest : List J} (h : p.queue i = job :: rest) :
      Step p ⟨.shutdown first (.drain i), false⟩ (p.withQueue i rest)
        ⟨.shutdown first (.run i job), false⟩
  | lastPassed {first : Bool} {i : Nat} (h : p.queue i = []) :
      Step p ⟨.shutdown first (.drain i), false⟩ p ⟨.shutdown first (.drain (i + 1)), false⟩
  | lastLeft {first : Bool} {i : Nat} (h : p.size ≤ i) :
      Step p ⟨.shutdown first (.drain i), false⟩ p ⟨.shutdown first .ended, false⟩
  | begun {r : Role J} {job : J} (h : r.job? = some job) : Step p ⟨r, false⟩ p ⟨r, true⟩
  | workerFinished {i : Nat} {job : J} :
      Step p ⟨.worker i (.run job), true⟩ { p with active := p.active - 1 } ⟨.worker i .pop, false⟩
  | callFinished {brought : J} {i : Nat} {job : J} :
      Step p ⟨.scheduling brought (.run i job), true⟩ p ⟨.scheduling brought (.drain i), false⟩
  | lastFinished {first : Bool} {i : Nat} {job : J} :
      Step p ⟨.shutdown first (.run i job), true⟩ p ⟨.shutdown first (.drain i), false⟩

theorem Party.step_of_worker {w : Worker J} {turn : Turn (Pool J) (Worker J)}
    (h : w.next i p = .step turn) :
    Step p ⟨.worker i w, false⟩ turn.state ⟨.worker i turn.phase, false⟩ := by
  cases w with
  | pop =>
      rcases pop_cases p i with ⟨hq, hp⟩ | ⟨job, rest, hq, hp⟩
      · simp only [Worker.next, hp] at h
        cases h
        exact .workerIdle hq
      · simp only [Worker.next, hp] at h
        cases h
        exact .workerTook hq
  | run job => cases h
  | check =>
      cases h
      cases hh : p.halted with
      | true => exact .workerHalted hh
      | false => exact .workerRested hh
  | confirm =>
      simp only [Worker.next, List.isEmpty_iff] at h
      split at h
      · next hq =>
        cases h
        exact .workerEnded hq
      · next hq =>
        cases h
        exact .workerAgain hq
  | park =>
      simp only [Worker.next] at h
      split at h
      · cases h
      · cases h
        exact .workerWoke
  | ended => cases h

theorem Party.step_of_scheduling {brought : J} {s : Scheduling J}
    {turn : Turn (Pool J) (Scheduling J)} (h : s.next p = .step turn) :
    Step p ⟨.scheduling brought s, false⟩ turn.state ⟨.scheduling brought turn.phase, false⟩ := by
  cases s with
  | push lane job =>
      cases h
      exact .pushed rfl
  | look i =>
      cases h
      cases hs : p.stopped with
      | true => exact .lookedStopped hs
      | false => exact .lookedOpen hs
  | drain i =>
      rcases pop_cases p i with ⟨hq, hp⟩ | ⟨job, rest, hq, hp⟩
      · simp only [Scheduling.next, hp] at h
        cases h
        exact .callLeft hq
      · simp only [Scheduling.next, hp] at h
        cases h
        exact .callTook hq
  | run i job => cases h
  | ended => cases h

theorem Party.step_of_shutdown {first : Bool} {k : Shutdown J}
    {turn : Turn (Pool J) (Role J)} (h : (Role.shutdown first k).next p = .step turn) :
    Step p ⟨.shutdown first k, false⟩ turn.state ⟨turn.phase, false⟩ := by
  cases k with
  | enter =>
      cases h
      cases hh : p.halted with
      | true =>
          have same : { p with halted := true } = p := by rw [← hh]
          simp only [Turn.map, same]
          exact .haltedBefore hh
      | false =>
          simp only [Turn.map]
          exact .halted hh
  | join =>
      simp only [Role.next, Shutdown.next] at h
      by_cases hl : p.live = 0
      · rw [if_neg (by simpa using hl)] at h
        cases h
        exact .stopped hl
      · rw [if_pos hl] at h
        cases h
  | drain i =>
      simp only [Role.next, Shutdown.next] at h
      split at h
      · next hi =>
        cases h
        exact .lastLeft hi
      · rcases pop_cases p i with ⟨hq, hp⟩ | ⟨job, rest, hq, hp⟩
        · simp only [hp] at h
          cases h
          exact .lastPassed hq
        · simp only [hp] at h
          cases h
          exact .lastTook hq
  | run i job => cases h
  | ended => cases h

theorem step_of_map {φ ψ : Type} {f : φ → ψ} {n : Next (Call J) (Pool J) φ}
    {turn : Turn (Pool J) ψ} (h : n.map f = .step turn) :
    ∃ t, n = .step t ∧ turn = t.map f := by
  cases n with
  | step t =>
      cases h
      exact ⟨t, rfl, rfl⟩
  | ended => cases h
  | blocked => cases h
  | ask r resume => cases h

/-- Only the jobs that were taken are run. -/
theorem Role.job?_of_ask {r : Role J} {job : J}
    {resume : Protocol.Answer (Call.run job) → Pool J → Turn (Pool J) (Role J)}
    (h : r.next p = .ask (.run job) resume) :
    (∃ i, r = .worker i (.run job)) ∨ (∃ b i, r = .scheduling b (.run i job)) ∨
      ∃ first i, r = .shutdown first (.run i job) := by
  cases r with
  | worker i w =>
      cases w with
      | run job' =>
          cases h
          exact .inl ⟨i, rfl⟩
      | pop =>
          rcases pop_cases p i with ⟨-, hp⟩ | ⟨_, _, -, hp⟩ <;>
            simp [next, Worker.next, hp, Next.map] at h
      | check => cases h
      | confirm =>
          simp only [next, Worker.next] at h
          split at h <;> cases h
      | park =>
          simp only [next, Worker.next] at h
          split at h <;> cases h
      | ended => cases h
  | scheduling b s =>
      cases s with
      | run i job' =>
          cases h
          exact .inr (.inl ⟨b, i, rfl⟩)
      | drain i =>
          rcases pop_cases p i with ⟨-, hp⟩ | ⟨_, _, -, hp⟩ <;>
            simp [next, Scheduling.next, hp, Next.map] at h
      | push _ _ => cases h
      | look i => cases h
      | ended => cases h
  | shutdown first k =>
      cases k with
      | run i job' =>
          cases h
          exact .inr (.inr ⟨first, i, rfl⟩)
      | enter => cases h
      | join =>
          simp only [next, Shutdown.next] at h
          split at h <;> cases h
      | drain i =>
          simp only [next, Shutdown.next] at h
          split at h
          · cases h
          · rcases pop_cases p i with ⟨-, hp⟩ | ⟨_, _, -, hp⟩ <;> simp [hp, Next.map] at h
      | ended => cases h

theorem Party.step_of_acts {q q' : Party J} (h : q.Acts p p' q') : Step p q p' q' := by
  cases h with
  | @step r turn h =>
      cases r with
      | worker i w =>
          obtain ⟨t, ht, rfl⟩ := step_of_map h
          exact step_of_worker ht
      | scheduling b s =>
          obtain ⟨t, ht, rfl⟩ := step_of_map h
          exact step_of_scheduling ht
      | shutdown first k => exact step_of_shutdown h
  | begin h =>
      rcases Role.job?_of_ask h with ⟨i, rfl⟩ | ⟨b, i, rfl⟩ | ⟨first, i, rfl⟩ <;> exact .begun rfl
  | finish h outcome =>
      rcases Role.job?_of_ask h with ⟨i, rfl⟩ | ⟨b, i, rfl⟩ | ⟨first, i, rfl⟩
      · cases h
        exact .workerFinished
      · cases h
        exact .callFinished
      · cases h
        exact .lastFinished
  | wake i => exact .workerWoke

end Proactor.Pool
