import Proactor.Queue
/-! # Laws of operation queues

* **Operations in cases.**  What `offer` and `enlist` do in each state of a queue (`pushed`,
  `hinted`).
* **Heads** (`Whole`, `Headless`).  Every slot holds its operation, but the first one while it is
  checked out.  A whole queue can be stopped (`halted`).
* **Changes** (`Change`).  Everything that a step of a party can do to a queue, and whether that
  party has the head checked out before and after it.
* **Order** (`Valid`).  A stopped queue is empty, it is parked only while draining, and a queue
  drains only after it was stopped.  Every change keeps this.
* **Slots** (`Numbered`, `Later`).  Slots are in the order of their numbers, and only a head that
  was put back has its old slot again. -/

namespace Proactor.Queue

/-- The queue with an operation in a new slot at its end. -/
def pushed (q : Queue) (op : Operation) : Queue :=
  { q with entries := q.entries ++ [⟨q.next, some op⟩], next := q.next + 1 }

/-- The queue after its hint was used up. -/
def hinted (q : Queue) : Queue := { q with state := .clear }

theorem push_of_not_stopped {q : Queue} (h : q.isStopped = false) (op : Operation) :
    q.push op = .ok (q.pushed op) := by
  simp [push, h, pushed]

/-! ### Operations in cases -/

section cases
variable {q : Queue} (op : Operation)

theorem offer_idle (hs : q.isStopped = false) (he : q.entries = []) :
    q.offer op = .ok (q.hinted, .attempt op) := by
  simp [offer, hs, he, hinted]

theorem offer_busy (hs : q.isStopped = false) (he : q.entries ≠ []) :
    q.offer op = .ok (q.pushed op, .queued) := by
  simp [offer, hs, he, push_of_not_stopped hs, Except.map]

theorem offer_stopped (hs : q.isStopped = true) (hd : q.draining = false) :
    q.offer op = .ok (q, .stopped op) := by
  simp [offer, hs, hd]

theorem offer_draining (hs : q.isStopped = true) (hd : q.draining = true) :
    q.offer op = .ok (q.park op, .draining) := by
  simp [offer, hs, hd]

theorem enlist_hinted (hs : q.state = .set) (he : q.entries = []) :
    q.enlist op = .ok (q.hinted, .retry op) := by
  have h : q.isStopped = false := by simp [isStopped, hs]
  simp [enlist, h, hs, he, hinted]

theorem enlist_waiting (hs : q.isStopped = false) (hn : ¬ (q.state = .set ∧ q.entries = [])) :
    q.enlist op = .ok (q.pushed op, .enlisted) := by
  unfold enlist
  rw [if_neg (by simp [hs]), if_neg hn, push_of_not_stopped hs]
  rfl

theorem enlist_stopped (hs : q.isStopped = true) (hd : q.draining = false) :
    q.enlist op = .ok (q, .stopped op) := by
  simp [enlist, hs, hd]

theorem enlist_draining (hs : q.isStopped = true) (hd : q.draining = true) :
    q.enlist op = .ok (q.park op, .draining) := by
  simp [enlist, hs, hd]

end cases

theorem checkOut_ready {q : Queue} {n bound : Nat} {op : Operation} {rest : List Entry}
    {wanted : Operation → Bool} (he : q.entries = ⟨n, some op⟩ :: rest) (hb : n < bound)
    (hw : wanted op = true) :
    q.checkOut bound wanted = .ok ({ q with entries := ⟨n, none⟩ :: rest }, .ready op) := by
  simp [checkOut, he, hw, Nat.not_le.mpr hb]

section use
variable {q q' : Queue} {op o : Operation}

/-- Only a queue in use lets a submission through. -/
theorem in_use_of_attempt (h : q.offer op = .ok (q', .attempt o)) :
    o = op ∧ q.isStopped = false := by
  cases hs : q.isStopped with
  | true =>
      cases hd : q.draining with
      | true =>
          rw [offer_draining op hs hd] at h
          cases h
      | false =>
          rw [offer_stopped op hs hd] at h
          cases h
  | false =>
      by_cases he : q.entries = []
      · rw [offer_idle op hs he] at h
        cases h
        exact ⟨rfl, rfl⟩
      · rw [offer_busy op hs he] at h
        cases h

/-- Only a queue in use has a submission try again. -/
theorem in_use_of_retry (h : q.enlist op = .ok (q', .retry o)) :
    o = op ∧ q.isStopped = false := by
  cases hs : q.isStopped with
  | true =>
      cases hd : q.draining with
      | true =>
          rw [enlist_draining op hs hd] at h
          cases h
      | false =>
          rw [enlist_stopped op hs hd] at h
          cases h
  | false =>
      by_cases hn : q.state = .set ∧ q.entries = []
      · rw [enlist_hinted op hn.1 hn.2] at h
        cases h
        exact ⟨rfl, rfl⟩
      · rw [enlist_waiting op hs hn] at h
        cases h

/-- What is checked out waited at the head. -/
theorem head_of_ready {bound : Nat} {wanted : Operation → Bool}
    (h : q.checkOut bound wanted = .ok (q', .ready o)) :
    ∃ n rest, q.entries = ⟨n, some o⟩ :: rest := by
  unfold checkOut at h
  split at h
  · cases h
  · next entry rest he =>
    obtain ⟨n, op⟩ := entry
    split at h
    · cases h
    · cases op with
      | none => cases h
      | some op =>
          dsimp only at h
          split at h
          · cases h
            exact ⟨n, rest, he⟩
          · cases h

end use

/-! ### Heads -/

/-- Every slot holds its operation. -/
def Whole (q : Queue) : Prop := ∀ e ∈ q.entries, e.op.isSome = true

/-- The head is checked out. -/
def Headless (q : Queue) : Prop :=
  ∃ n rest, q.entries = ⟨n, none⟩ :: rest ∧ ∀ e ∈ rest, e.op.isSome = true

/-- The queue after it was stopped. -/
def halted (q : Queue) : Queue :=
  { q with state := .stopped, entries := [], draining := q.draining || !q.waiting.isEmpty }

theorem mapM_op {entries : List Entry} (h : ∀ e ∈ entries, e.op.isSome = true) :
    entries.mapM (·.op) = some (entries.filterMap (·.op)) := by
  induction entries with
  | nil => rfl
  | cons e rest ih =>
      obtain ⟨op, ho⟩ := Option.isSome_iff_exists.mp (h e (by simp))
      have hr := ih fun e he => h e (by simp [he])
      simp [List.mapM_cons, ho, hr]

theorem isSome_of_mapM_op {entries : List Entry} {ops : List Operation}
    (h : entries.mapM (·.op) = some ops) : ∀ e ∈ entries, e.op.isSome = true := by
  induction entries generalizing ops with
  | nil => simp
  | cons e rest ih =>
      simp only [List.mapM_cons, Option.bind_eq_bind, Option.bind_eq_some_iff] at h
      obtain ⟨op, ho, ops', hr, -⟩ := h
      intro e' he
      rcases List.mem_cons.mp he with rfl | he
      · simp [ho]
      · exact ih hr e' he

theorem stop_of_whole {q : Queue} (h : q.Whole) : q.stop = (q.halted, .ok q.waiting) := by
  unfold stop
  rw [mapM_op h]
  rfl

theorem stop_of_not_whole {q : Queue} (h : ¬ q.Whole) :
    ∃ q', q.stop = (q', .error .stopCheckedOut) := by
  unfold stop
  cases hm : q.entries.mapM (·.op) with
  | none => exact ⟨_, rfl⟩
  | some ops => exact absurd (isSome_of_mapM_op hm) h

theorem restore_of_checkedOut {q : Queue} {n : Nat} {rest : List Entry} (op : Operation)
    (he : q.entries = ⟨n, none⟩ :: rest) :
    q.restore op = .ok { q with state := .clear, entries := ⟨n, some op⟩ :: rest } := by
  simp [restore, he]

theorem restore_of_not_checkedOut {q : Queue} (op : Operation)
    (he : ¬ ∃ n rest, q.entries = ⟨n, none⟩ :: rest) : ∃ v, q.restore op = .error v := by
  unfold restore
  split
  · exact ⟨_, rfl⟩
  · next e rest hq =>
    obtain ⟨n, op'⟩ := e
    cases op' with
    | none => exact absurd ⟨n, rest, hq⟩ he
    | some op' => exact ⟨_, rfl⟩

theorem retire_of_checkedOut {q : Queue} {n : Nat} {rest : List Entry}
    (he : q.entries = ⟨n, none⟩ :: rest) : q.retire = ({ q with entries := rest }, .ok ()) := by
  simp [retire, he]

theorem retire_of_not_checkedOut {q : Queue} (he : ¬ ∃ n rest, q.entries = ⟨n, none⟩ :: rest) :
    ∃ q' v, q.retire = (q', .error v) := by
  unfold retire
  split
  · exact ⟨q, _, rfl⟩
  · next e rest hq =>
    obtain ⟨n, op⟩ := e
    cases op with
    | none => exact absurd ⟨n, rest, hq⟩ he
    | some op => exact ⟨_, _, rfl⟩

/-! ### Changes -/

/-- A queue whose head is checked out or not. -/
def Shaped (out : Bool) (q : Queue) : Prop := if out then q.Headless else q.Whole

/-- What a step does to the queue of direction `d`.  The party that takes the step has the head
checked out before it or not, and after it or not. -/
inductive Change (d : Direction) (q : Queue) : Bool → Bool → Queue → Prop
  | same {b : Bool} : Change d q b b q
  | hinted {b : Bool} (hs : q.isStopped = false) : Change d q b b q.hinted
  | pushed {b : Bool} {op : Operation} (hs : q.isStopped = false) (hd : op.direction = d) :
      Change d q b b (q.pushed op)
  | parked {b : Bool} {op : Operation} (hp : q.draining = true) (hd : op.direction = d) :
      Change d q b b (q.park op)
  | snapped {b : Bool} (hs : q.isStopped = false) : Change d q b b { q with state := .set }
  | checkedOut {n : Nat} {op : Operation} {rest : List Entry}
      (he : q.entries = ⟨n, some op⟩ :: rest) :
      Change d q false true { q with entries := ⟨n, none⟩ :: rest }
  | restored {n : Nat} {op : Operation} {rest : List Entry} (he : q.entries = ⟨n, none⟩ :: rest)
      (hd : op.direction = d) :
      Change d q true false { q with state := .clear, entries := ⟨n, some op⟩ :: rest }
  | retired {n : Nat} {rest : List Entry} (he : q.entries = ⟨n, none⟩ :: rest) :
      Change d q true false { q with entries := rest }
  | halted {b : Bool} (hw : q.Whole) : Change d q b b q.halted
  | settled {b : Bool} : Change d q b b q.settle.1

theorem Whole.not_headless {q : Queue} (h : q.Whole) : ¬ q.Headless := by
  rintro ⟨n, rest, he, -⟩
  have := h ⟨n, none⟩ (by simp [he])
  simp at this

theorem isSome_of_mem_append {entries : List Entry} {n : Nat} {op : Operation}
    (h : ∀ e ∈ entries, e.op.isSome = true) :
    ∀ e ∈ entries ++ [⟨n, some op⟩], e.op.isSome = true := by
  intro e he
  rcases List.mem_append.mp he with he | he
  · exact h e he
  · rw [List.mem_singleton.mp he]
    rfl

theorem Shaped.pushed {b : Bool} {q : Queue} (h : q.Shaped b) (op : Operation) :
    (q.pushed op).Shaped b := by
  cases b with
  | false => exact isSome_of_mem_append h
  | true =>
      obtain ⟨n, rest, he, hr⟩ := h
      refine ⟨n, rest ++ [⟨q.next, some op⟩], ?_, isSome_of_mem_append hr⟩
      simp [Queue.pushed, he]

/-- A change keeps the head where the party has it; `o` says that another party has it. -/
theorem Change.shaped {d : Direction} {b b' o : Bool} {q q' : Queue} (h : Change d q b b' q')
    (hq : q.Shaped (o || b)) (ho : o = true → b = false ∧ b' = false) : q'.Shaped (o || b') := by
  cases h with
  | same => exact hq
  | hinted _ => exact hq
  | pushed _ _ => exact hq.pushed _
  | parked _ _ => exact hq
  | snapped _ => exact hq
  | settled => exact hq
  | halted hw =>
      cases hb : o || b with
      | false =>
          intro e he
          cases he
      | true =>
          rw [hb] at hq
          exact absurd hq hw.not_headless
  | checkedOut he =>
      have ho : o = false := by simpa using ho
      subst ho
      refine ⟨_, _, rfl, fun e hm => hq e ?_⟩
      rw [he]
      exact List.mem_cons_of_mem _ hm
  | restored he _ =>
      have ho : o = false := by simpa using ho
      subst ho
      obtain ⟨n, rest, hq, hr⟩ := hq
      obtain ⟨hn, rfl⟩ := List.cons.inj (he.symm.trans hq)
      intro e hm
      rcases List.mem_cons.mp hm with rfl | hm
      · rfl
      · exact hr e hm
  | retired he =>
      have ho : o = false := by simpa using ho
      subst ho
      obtain ⟨n, rest, hq, hr⟩ := hq
      obtain ⟨-, rfl⟩ := List.cons.inj (he.symm.trans hq)
      exact hr

/-! ### Order -/

/-- The rules that the queue of direction `d` keeps at all times. -/
structure Valid (d : Direction) (q : Queue) : Prop where
  waiting : ∀ op ∈ q.waiting, op.direction = d
  parked : ∀ op ∈ q.parked, op.direction = d
  emptied : q.isStopped = true → q.entries = []
  parks : q.parked ≠ [] → q.draining = true
  drains : q.draining = true → q.isStopped = true

theorem Valid.fresh (d : Direction) : Valid d {} := by
  constructor <;> simp [Queue.waiting, isStopped]

@[simp] theorem waiting_pushed (q : Queue) (op : Operation) :
    (q.pushed op).waiting = q.waiting ++ [op] := by
  simp [Queue.waiting, pushed]

/-- A queue that takes an operation keeps it with what it had. -/
theorem mem_pushed {q : Queue} {op o : Operation}
    (h : o ∈ (q.pushed op).waiting ++ (q.pushed op).parked) :
    o ∈ q.waiting ++ q.parked ∨ o = op := by
  rw [waiting_pushed] at h
  simp only [List.mem_append, List.mem_singleton] at h
  rcases h with (h | h) | h
  · exact .inl (List.mem_append_left _ h)
  · exact .inr h
  · exact .inl (List.mem_append_right _ h)

theorem mem_park {q : Queue} {op o : Operation}
    (h : o ∈ (q.park op).waiting ++ (q.park op).parked) : o ∈ q.waiting ++ q.parked ∨ o = op := by
  simp only [park, List.mem_append, List.mem_singleton] at h
  rcases h with h | h | h
  · exact .inl (List.mem_append_left _ h)
  · exact .inl (List.mem_append_right _ h)
  · exact .inr h

theorem Valid.not_stopped {d : Direction} {q : Queue} (h : q.Valid d) {e : Entry}
    {rest : List Entry} (he : q.entries = e :: rest) : q.isStopped = false := by
  cases hs : q.isStopped with
  | false => rfl
  | true => simp [h.emptied hs] at he

theorem Valid.not_draining {d : Direction} {q : Queue} (h : q.Valid d)
    (hs : q.isStopped = false) : q.draining = false := by
  cases hd : q.draining with
  | false => rfl
  | true => simp [h.drains hd] at hs

/-- Every change keeps the rules. -/
theorem Change.valid {d : Direction} {b b' : Bool} {q q' : Queue} (h : Change d q b b' q')
    (hq : q.Valid d) : q'.Valid d := by
  cases h with
  | same => exact hq
  | hinted hs =>
      have hd := hq.not_draining hs
      exact ⟨hq.waiting, hq.parked, fun h => by simp [isStopped, Queue.hinted] at h, hq.parks,
        fun h => by simp [Queue.hinted, hd] at h⟩
  | pushed hs hop =>
      refine ⟨?_, hq.parked, fun h => absurd h ?_, hq.parks, hq.drains⟩
      · intro op hm
        rw [waiting_pushed] at hm
        rcases List.mem_append.mp hm with hm | hm
        · exact hq.waiting op hm
        · rw [List.mem_singleton.mp hm]
          exact hop
      · simpa [isStopped, Queue.pushed] using hs
  | parked hp hop =>
      refine ⟨hq.waiting, ?_, hq.emptied, fun _ => hp, hq.drains⟩
      intro op hm
      rcases List.mem_append.mp hm with hm | hm
      · exact hq.parked op hm
      · rw [List.mem_singleton.mp hm]
        exact hop
  | snapped hs =>
      have hd := hq.not_draining hs
      exact ⟨hq.waiting, hq.parked, fun h => by simp [isStopped] at h, hq.parks,
        fun h => by simp [hd] at h⟩
  | checkedOut he =>
      have hs := hq.not_stopped he
      refine ⟨fun op hm => hq.waiting op ?_, hq.parked, fun h => absurd h ?_, hq.parks, hq.drains⟩
      · simp only [Queue.waiting, List.filterMap_cons] at hm
        simp [Queue.waiting, he, hm]
      · simpa [isStopped] using hs
  | restored he hop =>
      have hs := hq.not_stopped he
      have hd := hq.not_draining hs
      refine ⟨?_, hq.parked, fun h => by simp [isStopped] at h, hq.parks,
        fun h => by simp [hd] at h⟩
      intro op hm
      simp only [Queue.waiting, List.filterMap_cons, List.mem_cons] at hm
      rcases hm with rfl | hm
      · exact hop
      · apply hq.waiting op
        simpa [Queue.waiting, he] using hm
  | retired he =>
      have hs := hq.not_stopped he
      refine ⟨fun op hm => hq.waiting op ?_, hq.parked, fun h => absurd h ?_, hq.parks, hq.drains⟩
      · simpa [Queue.waiting, he] using hm
      · simpa [isStopped] using hs
  | halted _ =>
      refine ⟨fun op hm => by simp [Queue.waiting, Queue.halted] at hm, hq.parked, fun _ => rfl,
        fun h => ?_, fun _ => rfl⟩
      simp [Queue.halted, hq.parks h]
  | settled =>
      refine ⟨hq.waiting, fun op hm => by simp [settle] at hm, hq.emptied,
        fun h => by simp [settle] at h, fun h => hq.drains ?_⟩
      simp only [settle, Bool.and_eq_true] at h
      exact h.1

/-- No change puts a stopped queue back into use. -/
theorem Change.stopped {d : Direction} {b b' : Bool} {q q' : Queue} (h : Change d q b b' q')
    (hq : q.Valid d) (hs : q.isStopped = true) : q'.isStopped = true := by
  have full : ∀ {e : Entry} {rest : List Entry}, q.entries ≠ e :: rest := by
    intro e rest he
    rw [hq.emptied hs] at he
    cases he
  cases h with
  | same => exact hs
  | hinted h | pushed h _ | snapped h =>
      rw [hs] at h
      cases h
  | parked _ _ => exact hs
  | checkedOut he | restored he _ | retired he => exact absurd he full
  | halted _ => rfl
  | settled => exact hs

/-! ### Slots -/

/-- Slots are numbered in the order in which they are in the queue. -/
structure Numbered (q : Queue) : Prop where
  sorted : q.entries.Pairwise fun e e' => e.number < e'.number
  below : ∀ e ∈ q.entries, e.number < q.next

/-- The queue at a later time, when no slot from which an operation was taken has one again. -/
structure Later (q q' : Queue) : Prop where
  stopped : q.isStopped = true → q'.isStopped = true
  next : q.next ≤ q'.next
  slots : ∀ n op, ⟨n, some op⟩ ∈ q'.entries → ⟨n, some op⟩ ∈ q.entries ∨ q.next ≤ n

theorem Numbered.empty : Numbered {} :=
  ⟨.nil, fun _ he => absurd he List.not_mem_nil⟩

/-- Every change keeps the numbers. -/
theorem Change.numbered {d : Direction} {b b' : Bool} {q q' : Queue} (h : Change d q b b' q')
    (hq : q.Numbered) : q'.Numbered := by
  -- the head has its number with or without its operation
  have head : ∀ {n : Nat} {op : Option Operation} {rest : List Entry},
      q.entries = ⟨n, op⟩ :: rest → ∀ op' : Option Operation,
        (⟨n, op'⟩ :: rest : List Entry).Pairwise (fun e e' => e.number < e'.number) ∧
          ∀ e ∈ (⟨n, op'⟩ :: rest : List Entry), e.number < q.next := by
    intro n op rest he op'
    obtain ⟨sorted, below⟩ := hq
    rw [he] at sorted below
    obtain ⟨first, sorted⟩ := List.pairwise_cons.mp sorted
    refine ⟨List.pairwise_cons.mpr ⟨first, sorted⟩, fun e hm => ?_⟩
    rcases List.mem_cons.mp hm with rfl | hm
    · exact below ⟨n, op⟩ (.head _)
    · exact below e (.tail _ hm)
  cases h with
  | same | hinted _ | parked _ _ | snapped _ | settled => exact ⟨hq.sorted, hq.below⟩
  | pushed _ _ =>
      constructor
      · refine List.pairwise_append.mpr
          ⟨hq.sorted, List.pairwise_singleton _ _, fun e he e' he' => ?_⟩
        rw [List.mem_singleton.mp he']
        exact hq.below e he
      · intro e he
        rcases List.mem_append.mp he with he | he
        · exact Nat.lt_succ_of_lt (hq.below e he)
        · rw [List.mem_singleton.mp he]
          exact Nat.lt_succ_self _
  | checkedOut he | restored he _ => exact ⟨(head he _).1, (head he _).2⟩
  | retired he =>
      obtain ⟨sorted, below⟩ := head he none
      exact ⟨(List.pairwise_cons.mp sorted).2, fun e hm => below e (.tail _ hm)⟩
  | halted _ => exact ⟨.nil, fun _ he => absurd he List.not_mem_nil⟩

theorem Later.refl (q : Queue) : q.Later q := ⟨id, Nat.le_refl _, fun _ _ h => .inl h⟩

/-- The number of the next slot only grows. -/
theorem Change.next_le {d : Direction} {b b' : Bool} {q q' : Queue} (h : Change d q b b' q') :
    q.next ≤ q'.next := by
  cases h with
  | pushed _ _ => exact Nat.le_succ _
  | _ => exact Nat.le_refl _

/-- A party that has not checked out the head puts nothing back. -/
theorem Change.later {d : Direction} {b : Bool} {q q' : Queue} (h : Change d q false b q')
    (hq : q.Valid d) : q.Later q' := by
  refine ⟨h.stopped hq, h.next_le, fun n op hm => ?_⟩
  cases h with
  | pushed _ _ =>
      rcases List.mem_append.mp hm with hm | hm
      · exact .inl hm
      · cases List.mem_singleton.mp hm
        exact .inr (Nat.le_refl _)
  | checkedOut he =>
      rw [he]
      rcases List.mem_cons.mp hm with hm | hm
      · cases hm
      · exact .inl (.tail _ hm)
  | halted _ => cases hm
  | _ => exact .inl hm

theorem Later.retired {q : Queue} {n : Nat} {rest : List Entry}
    (he : q.entries = ⟨n, none⟩ :: rest) : q.Later { q with entries := rest } := by
  refine ⟨id, Nat.le_refl _, fun m op hm => .inl ?_⟩
  rw [he]
  exact .tail _ hm

end Proactor.Queue
