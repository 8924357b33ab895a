import Mathlib.Data.List.Basic
import Proactor.Proofs.Queue
/-! # What a queue takes in, it hands on

A queue may be called in any order, but for one rule: a head that was checked out is retired or put
back before the next one is checked out and before the queue is stopped.

* **Ledgers** (`Ledger`).  A queue, the operation that is checked out of it, and the operations that
  it took in and gave away so far, in the order of the calls.
* **Rule of use** (`Ledger.Keeps`).  An attempt changes an operation, so what is put back need not
  be what was checked out: it only has the same name.
* **Steps** (`Ledger.Step`).  What a call can do to a ledger.  A call that keeps the rule is not
  refused (`Ledger.call_step`).
* **Balance** (`Ledger.Balanced`).  What was given away, followed by what the queue still has, is
  what was taken in, in that order.  Every step keeps this (`Ledger.Step.balanced`). -/

namespace Proactor.Queue

/-! ### Calls -/

/-- A call of a queue. -/
inductive Call where
  | offer (op : Operation)
  | enlist (op : Operation)
  | snapshot
  | checkOut (bound : Nat) (wanted : Operation → Bool)
  | retire
  | restore (op : Operation)
  | stop
  | settle

/-- The queue has taken the submission in. -/
def Admission.takesIn : Admission → Bool
  | .queued | .draining => true
  | .attempt _ | .stopped _ => false

/-- The queue has taken the submission in. -/
def Enlistment.takesIn : Enlistment → Bool
  | .enlisted | .draining => true
  | .retry _ | .stopped _ => false

/-- The operation that was checked out. -/
def Head.ready? : Head → Option Operation
  | .ready op => some op
  | _ => none

/-- A queue with every operation in its slot checks out its head or is left as it is. -/
theorem checkOut_of_whole {q : Queue} (h : q.Whole) (bound : Nat) (wanted : Operation → Bool) :
    (∃ head, q.checkOut bound wanted = .ok (q, head) ∧ head.ready? = none) ∨
      ∃ n op rest, q.entries = ⟨n, some op⟩ :: rest ∧ q.checkOut bound wanted =
        .ok ({ q with entries := ⟨n, none⟩ :: rest }, .ready op) := by
  cases he : q.entries with
  | nil => exact .inl ⟨.empty, by rw [checkOut, he], rfl⟩
  | cons entry rest =>
      obtain ⟨n, op⟩ := entry
      obtain ⟨op, rfl⟩ := Option.isSome_iff_exists.mp (h ⟨n, op⟩ (by simp [he]))
      by_cases hb : bound ≤ n
      · exact .inl ⟨.beyond, by simp [checkOut, he, hb], rfl⟩
      · cases hw : wanted op with
        | false => exact .inl ⟨.skipped, by simp [checkOut, he, hb, hw], rfl⟩
        | true => exact .inr ⟨n, op, rest, rfl, checkOut_ready he (Nat.not_le.mp hb) hw⟩

/-- The numbers of the slots follow on one another, and the next slot's number on the last. -/
def Consecutive (q : Queue) : Prop :=
  ∃ first, q.entries.map (·.number) = List.range' first q.entries.length ∧
    first + q.entries.length = q.next

/-- A queue and what passed through it. -/
structure Ledger where
  queue : Queue := {}
  /-- The operation that is checked out. -/
  out : Option Operation := none
  admitted : List Operation := []
  retired : List Operation := []
  /-- Handed out when the queue was stopped. -/
  drained : List Operation := []
  /-- Handed out when the queue settled. -/
  settled : List Operation := []

namespace Ledger

/-- Enter a submission that was taken in. -/
def enter (l : Ledger) (op : Operation) (q : Queue) (takesIn : Bool) : Ledger :=
  { l with queue := q, admitted := if takesIn then l.admitted ++ [op] else l.admitted }

/-- Make a call and enter what passes through the queue. -/
def call (l : Ledger) : Call → Except Violation Ledger
  | .offer op => (l.queue.offer op).map fun (q, admission) => l.enter op q admission.takesIn
  | .enlist op => (l.queue.enlist op).map fun (q, enlistment) => l.enter op q enlistment.takesIn
  | .snapshot => .ok { l with queue := (l.queue.snapshot.map (·.2)).getD l.queue }
  | .checkOut bound wanted => (l.queue.checkOut bound wanted).map fun (q, head) =>
      { l with queue := q, out := head.ready?.or l.out }
  | .retire =>
      let (q, result) := l.queue.retire
      result.map fun _ => { l with queue := q, out := none, retired := l.retired ++ l.out.toList }
  | .restore op => (l.queue.restore op).map fun q => { l with queue := q, out := none }
  | .stop =>
      let (q, result) := l.queue.stop
      result.map fun ops => { l with queue := q, drained := l.drained ++ ops }
  | .settle =>
      let (q, ops) := l.queue.settle
      .ok { l with queue := q, settled := l.settled ++ ops }

/-- Make calls one after another. -/
def run (l : Ledger) : List Call → Except Violation Ledger
  | [] => .ok l
  | c :: calls => (l.call c).bind (·.run calls)

/-- What the slots hold, where an empty one counts as the operation that is checked out. -/
def contents (l : Ledger) : List Operation := l.queue.entries.filterMap (·.op.or l.out)

section rule
variable {ι : Type} (name : Operation → ι)

/-- The rule of use, for one call. -/
def Allows (l : Ledger) : Call → Prop
  | .checkOut _ _ | .stop => l.out = none
  | .retire => l.out.isSome = true
  | .restore op => l.out.map name = some (name op)
  | .offer _ | .enlist _ | .snapshot | .settle => True

/-- The rule of use, for calls one after another. -/
def Keeps (l : Ledger) : List Call → Prop
  | [] => True
  | c :: calls => l.Allows name c ∧
      match l.call c with
      | .ok l' => l'.Keeps calls
      -- a call that is refused ends the run
      | .error _ => True

instance [DecidableEq ι] (l : Ledger) : (c : Call) → Decidable (l.Allows name c)
  | .checkOut _ _ | .stop => inferInstanceAs (Decidable (l.out = none))
  | .retire => inferInstanceAs (Decidable (l.out.isSome = true))
  | .restore op => inferInstanceAs (Decidable (l.out.map name = some (name op)))
  | .offer _ | .enlist _ | .snapshot | .settle => inferInstanceAs (Decidable True)

instance decidableKeeps [DecidableEq ι] (l : Ledger) :
    (calls : List Call) → Decidable (l.Keeps name calls)
  | [] => inferInstanceAs (Decidable True)
  | c :: calls =>
      have : Decidable (match l.call c with
          | .ok l' => l'.Keeps name calls
          | .error _ => True) :=
        match l.call c with
        | .ok l' => decidableKeeps l' calls
        | .error _ => inferInstanceAs (Decidable True)
      inferInstanceAs (Decidable (_ ∧ _))

/-! ### Steps -/

/-- What a call can do to a ledger. -/
inductive Step (l : Ledger) : Ledger → Prop
  | same : Step l l
  | hinted {state : State} (hs : l.queue.isStopped = false) (hn : state ≠ .stopped) :
      Step l { l with queue := { l.queue with state } }
  | pushed (op : Operation) (hs : l.queue.isStopped = false) :
      Step l { l with queue := l.queue.pushed op, admitted := l.admitted ++ [op] }
  | parked (op : Operation) (hd : l.queue.draining = true) :
      Step l { l with queue := l.queue.park op, admitted := l.admitted ++ [op] }
  | checkedOut {n : Nat} {op : Operation} {rest : List Entry}
      (he : l.queue.entries = ⟨n, some op⟩ :: rest) (ho : l.out = none) :
      Step l { l with queue := { l.queue with entries := ⟨n, none⟩ :: rest }, out := some op }
  | retired {n : Nat} {op : Operation} {rest : List Entry}
      (he : l.queue.entries = ⟨n, none⟩ :: rest) (ho : l.out = some op) :
      Step l { l with queue := { l.queue with entries := rest }, out := none,
                      retired := l.retired ++ [op] }
  | restored {n : Nat} {op o : Operation} {rest : List Entry}
      (he : l.queue.entries = ⟨n, none⟩ :: rest) (ho : l.out = some o) (hn : name o = name op) :
      Step l { l with queue := { l.queue with state := .clear, entries := ⟨n, some op⟩ :: rest },
                      out := none }
  | halted (ho : l.out = none) :
      Step l { l with queue := l.queue.halted, drained := l.drained ++ l.queue.waiting }
  | settled : Step l { l with queue := l.queue.settle.1, settled := l.settled ++ l.queue.parked }

end rule

/-- What holds of a queue and what passed through it, at any time. -/
structure Balanced {ι : Type} (name : Operation → ι) (l : Ledger) : Prop where
  /-- What was given away and what the queue still has is what was taken in. -/
  conserved : (l.retired ++ l.drained ++ l.settled ++ l.contents ++ l.queue.parked).map name =
    l.admitted.map name
  consecutive : l.queue.Consecutive
  /-- A slot is empty exactly if it is that of the head, and an operation is checked out. -/
  shaped : l.queue.Shaped l.out.isSome
  emptied : l.queue.isStopped = true → l.queue.entries = []
  drains : l.queue.draining = true → l.queue.isStopped = true
  parks : l.queue.parked ≠ [] → l.queue.draining = true
  /-- Until it is stopped, a queue gives away what was checked out, and nothing else. -/
  inUse : l.queue.isStopped = false → l.drained = [] ∧ l.settled = []

variable {ι : Type} {name : Operation → ι} {l l' : Ledger} {c : Call} {calls : List Call}

theorem balanced_empty (name : Operation → ι) : Balanced name {} where
  conserved := rfl
  consecutive := ⟨0, rfl, rfl⟩
  shaped := fun _ he => absurd he List.not_mem_nil
  emptied := fun _ => rfl
  drains := nofun
  parks := fun h => absurd rfl h
  inUse := fun _ => ⟨rfl, rfl⟩

theorem Balanced.not_parked (h : l.Balanced name) (hs : l.queue.isStopped = false) :
    l.queue.parked = [] := by
  by_contra hp
  exact Bool.false_ne_true (hs.symm.trans (h.drains (h.parks hp)))

theorem Balanced.not_stopped (h : l.Balanced name) {e : Entry} {rest : List Entry}
    (he : l.queue.entries = e :: rest) : l.queue.isStopped = false := by
  cases hs : l.queue.isStopped with
  | false => rfl
  | true => exact absurd ((h.emptied hs).symm.trans he) nofun

/-- An offered operation is let through, taken in, or turned away. -/
theorem offer_step (op : Operation) : ∃ l', l.call (.offer op) = .ok l' ∧ l.Step name l' := by
  rw [call]
  cases hs : l.queue.isStopped with
  | true =>
      cases hd : l.queue.draining with
      | true =>
          rw [offer_draining op hs hd]
          exact ⟨_, rfl, .parked op hd⟩
      | false =>
          rw [offer_stopped op hs hd]
          exact ⟨_, rfl, .same⟩
  | false =>
      by_cases he : l.queue.entries = []
      · rw [offer_idle op hs he]
        exact ⟨_, rfl, .hinted hs nofun⟩
      · rw [offer_busy op hs he]
        exact ⟨_, rfl, .pushed op hs⟩

/-- An operation that was not ready is taken in, tried again, or turned away. -/
theorem enlist_step (op : Operation) : ∃ l', l.call (.enlist op) = .ok l' ∧ l.Step name l' := by
  rw [call]
  cases hs : l.queue.isStopped with
  | true =>
      cases hd : l.queue.draining with
      | true =>
          rw [enlist_draining op hs hd]
          exact ⟨_, rfl, .parked op hd⟩
      | false =>
          rw [enlist_stopped op hs hd]
          exact ⟨_, rfl, .same⟩
  | false =>
      by_cases hn : l.queue.state = .set ∧ l.queue.entries = []
      · rw [enlist_hinted op hn.1 hn.2]
        exact ⟨_, rfl, .hinted hs nofun⟩
      · rw [enlist_waiting op hs hn]
        exact ⟨_, rfl, .pushed op hs⟩

/-- A call that keeps the rule of use is not refused. -/
theorem call_step (h : l.Balanced name) (allowed : l.Allows name c) :
    ∃ l', l.call c = .ok l' ∧ l.Step name l' := by
  have whole : l.out = none → l.queue.Whole := fun ho => by
    have := h.shaped
    rwa [ho] at this
  have headless : l.out.isSome = true → l.queue.Headless := fun ho => by
    have := h.shaped
    rwa [ho] at this
  cases c with
  | offer op => exact offer_step op
  | enlist op => exact enlist_step op
  | snapshot =>
      cases hs : l.queue.isStopped with
      | true => exact ⟨l, by simp [call, Queue.snapshot, hs], .same⟩
      | false =>
          have set : State.set ≠ .stopped := nofun
          exact ⟨_, by simp [call, Queue.snapshot, hs], .hinted hs set⟩
  | checkOut bound wanted =>
      rw [call]
      rcases checkOut_of_whole (whole allowed) bound wanted with
        ⟨head, hc, hr⟩ | ⟨n, op, rest, he, hc⟩
      · rw [hc]
        exact ⟨l, by simp [Except.map, hr], .same⟩
      · rw [hc]
        exact ⟨_, rfl, .checkedOut he allowed⟩
  | retire =>
      obtain ⟨n, rest, he, -⟩ := headless allowed
      obtain ⟨op, ho⟩ := Option.isSome_iff_exists.mp allowed
      rw [call, retire_of_checkedOut he, ho]
      exact ⟨_, rfl, .retired he ho⟩
  | restore op =>
      obtain ⟨o, ho, hn⟩ := Option.map_eq_some_iff.mp allowed
      obtain ⟨n, rest, he, -⟩ := headless (by rw [ho]; rfl)
      rw [call, restore_of_checkedOut op he]
      exact ⟨_, rfl, .restored he ho hn⟩
  | stop =>
      rw [call, stop_of_whole (whole allowed)]
      exact ⟨_, rfl, .halted allowed⟩
  | settle => exact ⟨_, rfl, .settled⟩

/-! ### What a step keeps -/

/-- While no operation but the head's is missing, the contents are what is checked out and what
waits behind it. -/
theorem contents_eq (h : l.queue.Shaped l.out.isSome) :
    l.contents = l.out.toList ++ l.queue.waiting := by
  have full : ∀ entries : List Entry, (∀ e ∈ entries, e.op.isSome = true) →
      entries.filterMap (·.op.or l.out) = entries.filterMap (·.op) := by
    intro entries filled
    refine List.filterMap_congr fun e he => ?_
    obtain ⟨op, ho⟩ := Option.isSome_iff_exists.mp (filled e he)
    rw [ho, Option.some_or]
  cases ho : l.out with
  | none =>
      rw [ho] at h
      exact full _ h
  | some op =>
      rw [ho] at h
      obtain ⟨n, rest, he, filled⟩ := h
      rw [contents, Queue.waiting, he, List.filterMap_cons, full rest filled, ho]
      rfl

/-- Every step keeps each slot's operation in its slot, but the head's while it is checked out. -/
theorem Step.shaped (h : l.Step name l') (b : l.Balanced name) :
    l'.queue.Shaped l'.out.isSome := by
  have shaped := b.shaped
  cases h with
  | same | hinted _ _ | parked _ _ | settled => exact shaped
  | pushed op _ => exact shaped.pushed op
  | checkedOut he ho =>
      rw [ho] at shaped
      exact ⟨_, _, rfl, fun e hm => shaped e (he ▸ .tail _ hm)⟩
  | retired he ho =>
      rw [ho] at shaped
      obtain ⟨n, rest, he', filled⟩ := shaped
      obtain ⟨-, rfl⟩ := List.cons.inj (he.symm.trans he')
      exact filled
  | restored he ho _ =>
      rw [ho] at shaped
      obtain ⟨n, rest, he', filled⟩ := shaped
      obtain ⟨-, rfl⟩ := List.cons.inj (he.symm.trans he')
      exact List.forall_mem_cons.mpr ⟨rfl, filled⟩
  | halted ho =>
      rw [ho]
      exact fun e he => absurd he List.not_mem_nil

/-- Slots are added at the end and removed at the beginning. -/
theorem Step.consecutive (h : l.Step name l') (b : l.Balanced name) : l'.queue.Consecutive := by
  obtain ⟨first, numbers, last⟩ := b.consecutive
  cases h with
  | same | hinted _ _ | parked _ _ | settled => exact ⟨first, numbers, last⟩
  | pushed op _ =>
      refine ⟨first, ?_, ?_⟩
      · simp only [Queue.pushed, List.map_append, numbers, List.map_cons, List.map_nil,
          List.length_append, List.length_singleton, List.range'_concat, Nat.one_mul, last]
      · simp only [Queue.pushed, List.length_append, List.length_singleton]
        omega
  | checkedOut he _ | restored he _ _ =>
      rw [he] at numbers last
      exact ⟨first, numbers, last⟩
  | retired he _ =>
      rw [he] at numbers last
      refine ⟨first + 1, (List.cons.inj numbers).2, ?_⟩
      rw [List.length_cons] at last
      dsimp only
      omega
  | halted _ => exact ⟨l.queue.next, rfl, rfl⟩

/-- No step puts a stopped queue back into use. -/
theorem Step.stopped (h : l.Step name l') (b : l.Balanced name)
    (hs : l.queue.isStopped = true) : l'.queue.isStopped = true := by
  cases h with
  | same | parked _ _ | settled => exact hs
  | hinted hu _ | pushed _ hu => exact absurd (hu.symm.trans hs) nofun
  | checkedOut he _ | retired he _ | restored he _ _ =>
      exact absurd ((b.not_stopped he).symm.trans hs) nofun
  | halted _ => rfl

/-- Whatever a step moves keeps its place in the order. -/
theorem Step.conserved (h : l.Step name l') (b : l.Balanced name) :
    (l'.retired ++ l'.drained ++ l'.settled ++ l'.contents ++ l'.queue.parked).map name =
      l'.admitted.map name := by
  have before := b.conserved
  have entered (op : Operation) :
      (l.admitted ++ [op]).map name = l.admitted.map name ++ [name op] := List.map_append
  cases h with
  | same | hinted _ _ => exact before
  | pushed op hs =>
      rw [entered, ← before]
      simp [contents, Queue.pushed, b.not_parked hs]
  | parked op _ =>
      rw [entered, ← before]
      simp [contents, Queue.park]
  | checkedOut he ho =>
      -- the head counts as before, and no other slot is empty
      rw [contents_eq (Step.shaped (.checkedOut he ho) b)]
      rw [contents_eq b.shaped] at before
      simpa [Queue.waiting, he, ho] using before
  | retired he ho =>
      obtain ⟨hd, hs⟩ := b.inUse (b.not_stopped he)
      rw [contents_eq (Step.shaped (.retired he ho) b)]
      rw [contents_eq b.shaped] at before
      simpa [Queue.waiting, he, ho, hd, hs] using before
  | restored he ho hn =>
      rw [contents_eq (Step.shaped (.restored he ho hn) b)]
      rw [contents_eq b.shaped] at before
      simpa [Queue.waiting, he, ho, hn] using before
  | halted ho =>
      cases hs : l.queue.isStopped with
      | true =>
          simpa [contents, Queue.halted, Queue.waiting, b.emptied hs] using before
      | false =>
          obtain ⟨hd, hz⟩ := b.inUse hs
          rw [contents_eq b.shaped] at before
          simpa [contents, Queue.halted, ho, hd, hz] using before
  | settled =>
      by_cases hp : l.queue.parked = []
      · simpa [contents, Queue.settle, hp] using before
      · have idle := b.emptied (b.drains (b.parks hp))
        simpa [contents, Queue.settle, idle] using before

/-- A queue that is stopped has no slots, and it gets none. -/
theorem Step.emptied (h : l.Step name l') (b : l.Balanced name)
    (hs : l'.queue.isStopped = true) : l'.queue.entries = [] := by
  cases h with
  | same | parked _ _ | settled => exact b.emptied hs
  | hinted _ hn => exact absurd (beq_iff_eq.mp hs) hn
  | pushed _ hu => exact absurd (hu.symm.trans hs) nofun
  | checkedOut he _ | retired he _ => exact absurd ((b.not_stopped he).symm.trans hs) nofun
  | restored _ _ _ => cases hs
  | halted _ => rfl

/-- Only stopping makes a queue drain. -/
theorem Step.drains (h : l.Step name l') (b : l.Balanced name)
    (hd : l'.queue.draining = true) : l'.queue.isStopped = true := by
  have kept := h.stopped b
  cases h with
  | halted _ => rfl
  | settled => exact kept (b.drains (Bool.and_eq_true_iff.mp hd).1)
  | same | hinted _ _ | pushed _ _ | parked _ _ | checkedOut _ _ | retired _ _ | restored _ _ _ =>
      exact kept (b.drains hd)

/-- Whatever is parked is handed out before the queue ends to drain. -/
theorem Step.parks (h : l.Step name l') (b : l.Balanced name) (hp : l'.queue.parked ≠ []) :
    l'.queue.draining = true := by
  cases h with
  | parked _ hd => exact hd
  | settled => exact absurd rfl hp
  | halted _ => rw [Queue.halted, b.parks hp, Bool.true_or]
  | same | hinted _ _ | pushed _ _ | checkedOut _ _ | retired _ _ | restored _ _ _ =>
      exact b.parks hp

/-- Only a queue that is stopped hands out what waits. -/
theorem Step.inUse (h : l.Step name l') (b : l.Balanced name)
    (hs : l'.queue.isStopped = false) : l'.drained = [] ∧ l'.settled = [] := by
  have used : l.queue.isStopped = false :=
    Bool.eq_false_iff.mpr fun ht => Bool.false_ne_true (hs.symm.trans (h.stopped b ht))
  obtain ⟨drained, settled⟩ := b.inUse used
  cases h with
  | halted _ => cases hs
  | settled => exact ⟨drained, by rw [settled, b.not_parked used]; rfl⟩
  | same | hinted _ _ | pushed _ _ | parked _ _ | checkedOut _ _ | retired _ _ | restored _ _ _ =>
      exact ⟨drained, settled⟩

/-- Every step keeps the balance. -/
theorem Step.balanced (h : l.Step name l') (b : l.Balanced name) : l'.Balanced name where
  conserved := h.conserved b
  consecutive := h.consecutive b
  shaped := h.shaped b
  emptied := h.emptied b
  drains := h.drains b
  parks := h.parks b
  inUse := h.inUse b

/-! ### Runs -/

/-- Calls that keep the rule of use are not refused and keep the balance, and they do not put a
stopped queue back into use. -/
theorem run_balanced (b : l.Balanced name) (kept : l.Keeps name calls) :
    ∃ l', l.run calls = .ok l' ∧ l'.Balanced name ∧
      (l.queue.isStopped = true → l'.queue.isStopped = true) := by
  induction calls generalizing l with
  | nil => exact ⟨l, rfl, b, id⟩
  | cons c calls ih =>
      obtain ⟨allowed, rest⟩ := kept
      obtain ⟨l₁, made, step⟩ := call_step b allowed
      rw [made] at rest
      obtain ⟨l', ran, balanced, stopped⟩ := ih (step.balanced b) rest
      refine ⟨l', ?_, balanced, fun hs => stopped (step.stopped b hs)⟩
      rw [run, made]
      exact ran

/-- Calls that keep the rule of use, from a new queue on, are never refused.  After any number of
them, what was retired, then what the queue handed out when it was stopped and when it settled, then
what is in its slots, and then what is parked, is what it took in, in that order.  The slots are
numbered one after another, none but the head's is empty, and a stopped queue has no slots and stays
stopped.  It drains and parks only when it is stopped, and parks only while it drains. -/
theorem taken_in_handed_on (name : Operation → ι) (kept : Keeps name {} calls) :
    ∃ l, run {} calls = .ok l ∧ l.Balanced name ∧ ∀ later, l.Keeps name later →
      ∃ l', l.run later = .ok l' ∧ l'.Balanced name ∧
        (l.queue.isStopped = true → l'.queue.isStopped = true) := by
  obtain ⟨l, ran, balanced, -⟩ := run_balanced (balanced_empty name) kept
  exact ⟨l, ran, balanced, fun _ keeps => run_balanced balanced keeps⟩

/-- The accept with a ticket. -/
def accepting (ticket : Nat) : Operation := .accept ticket .blank

/-- The first accept is put back once, with another status, and is completed at the second attempt.
Two more come while it waits and while it is checked out. -/
def firstServed : List Call :=
  [.offer (accepting 1), .enlist (accepting 1), .offer (accepting 2), .snapshot,
    .checkOut 2 (·.isAccept), .offer (accepting 3),
    .restore ((accepting 1).withStatus .interrupted), .snapshot, .checkOut 3 (·.isAccept), .retire]

/-- The queue is stopped.  One accept comes before the queue settles, and one after that. -/
def restStopped : List Call :=
  [.stop, .offer (accepting 4), .settle, .settle, .offer (accepting 5)]

theorem taken_in_handed_on_accepts :
    ∃ l l', run {} firstServed = .ok l ∧ l.run restStopped = .ok l' ∧
      l.contents.map (·.ticket) = [2, 3] ∧ l'.queue.isStopped = true ∧
      l'.retired.map (·.ticket) = [1] ∧ l'.drained.map (·.ticket) = [2, 3] ∧
      l'.settled.map (·.ticket) = [4] ∧ l'.admitted.map (·.ticket) = [1, 2, 3, 4] ∧
      l.Balanced (·.ticket) ∧ l'.Balanced (·.ticket) := by
  have kept : Keeps (·.ticket) {} firstServed := by decide
  obtain ⟨l, ran, balanced, later⟩ := taken_in_handed_on (·.ticket) kept
  cases ran
  obtain ⟨l', ran', balanced', -⟩ := later restStopped (by decide)
  cases ran'
  exact ⟨_, _, rfl, rfl, rfl, rfl, rfl, rfl, rfl, rfl, balanced, balanced'⟩

end Ledger
end Proactor.Queue
