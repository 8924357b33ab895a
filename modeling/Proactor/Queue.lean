import Proactor.Operation
/-! # Operation queues

The operations of one direction of a descriptor, first come, first served.

* **Hint** (`Queue.State`).  Readiness is reported once.  A queue that was drained while readiness
  was reported keeps the hint `set`, and the next submission uses it up by trying at once.
* **Checking out.**  While a dispatch attempts the head, the head's slot stays in the queue and is
  empty, so that a newer submission still queues up behind it.
* **Stopping.**  A stopped queue hands out what waits in it and takes nothing more.  Until the
  operations handed out are completed the queue is *draining*, and newer submissions are parked
  so that they complete later.

The queue is not shared by itself; its owner keeps it behind a lock. -/

namespace Proactor

/-- A rule of the queue that its user broke. -/
inductive Violation where
  | headCheckedOut
  | endOfEmpty
  | endOfLiveHead
  | restoreToEmpty
  | restoreOverLiveHead
  | stopCheckedOut
  | pushStopped
deriving DecidableEq, Repr, Inhabited

/-- The wording of a broken rule. -/
def Violation.message : Violation → String
  | headCheckedOut => "queue head already checked out"
  | endOfEmpty => "end() on an empty queue"
  | endOfLiveHead => "end() on a head that was not checked out"
  | restoreToEmpty => "restore() on an empty queue"
  | restoreOverLiveHead => "restore() over a live head"
  | stopCheckedOut => "stop() with a checked-out head"
  | pushStopped => "assertion failed: !self.is_stopped()"

namespace Queue

/-- What a queue knows of readiness. -/
inductive State where
  /-- No hint is kept. -/
  | clear
  /-- Readiness was reported and not used up. -/
  | set
  /-- The queue is out of use for good. -/
  | stopped
deriving DecidableEq, Repr, Inhabited

/-- A slot: its number, and the operation unless it is checked out. -/
structure Entry where
  number : Nat
  op : Option Operation
deriving Repr, Inhabited

end Queue

/-- The operations of one direction. -/
structure Queue where
  state : Queue.State := .clear
  entries : List Queue.Entry := []
  /-- The number of the next slot. -/
  next : Nat := 0
  /-- Operations handed out by `stop` are still to be completed. -/
  draining : Bool := false
  /-- Submissions that arrived while draining. -/
  parked : List Operation := []
deriving Repr, Inhabited

namespace Queue

def isStopped (q : Queue) : Bool := q.state == .stopped

/-- The operations that wait in the queue. -/
def waiting (q : Queue) : List Operation := q.entries.filterMap (·.op)

/-- Add a slot at the end. -/
def push (q : Queue) (op : Operation) : Except Violation Queue :=
  if q.isStopped then .error .pushStopped
  else .ok { q with entries := q.entries ++ [⟨q.next, some op⟩], next := q.next + 1 }

/-- Set a submission aside until what was handed out is completed. -/
def park (q : Queue) (op : Operation) : Queue := { q with parked := q.parked ++ [op] }

/-! ### Submissions -/

/-- What becomes of a new submission. -/
inductive Admission where
  /-- The queue is idle: try now. -/
  | attempt (op : Operation)
  /-- It waits behind older ones. -/
  | queued
  /-- The queue takes nothing more. -/
  | stopped (op : Operation)
  /-- It is parked. -/
  | draining
deriving Repr, Inhabited

/-- Admit a new submission.  An idle queue lets it through and uses up the hint. -/
def offer (q : Queue) (op : Operation) : Except Violation (Queue × Admission) :=
  if q.isStopped then
    .ok (if q.draining then (q.park op, .draining) else (q, .stopped op))
  else if q.entries.isEmpty then .ok ({ q with state := .clear }, .attempt op)
  else (q.push op).map (·, .queued)

/-- What becomes of a submission that found the descriptor not ready. -/
inductive Enlistment where
  | enlisted
  /-- Readiness was reported since: try again. -/
  | retry (op : Operation)
  | stopped (op : Operation)
  | draining
deriving Repr, Inhabited

/-- Put a submission that was not ready into the queue, unless a hint tells it to try again. -/
def enlist (q : Queue) (op : Operation) : Except Violation (Queue × Enlistment) :=
  if q.isStopped then
    .ok (if q.draining then (q.park op, .draining) else (q, .stopped op))
  else if q.state = .set ∧ q.entries = [] then .ok ({ q with state := .clear }, .retry op)
  else (q.push op).map (·, .enlisted)

/-! ### Dispatches -/

/-- Readiness was reported: keep the hint, and give the number below which slots are to be
attempted.  A stopped queue has none. -/
def snapshot (q : Queue) : Option (Nat × Queue) :=
  if q.isStopped then none else some (q.next, { q with state := .set })

/-- What stands at the head of the queue. -/
inductive Head where
  | ready (op : Operation)
  | empty
  /-- It arrived after the snapshot. -/
  | beyond
  /-- It is not of the kind that is wanted. -/
  | skipped
deriving Repr, Inhabited

/-- Check out the head if its number is below `bound` and it is wanted. -/
def checkOut (q : Queue) (bound : Nat) (wanted : Operation → Bool) :
    Except Violation (Queue × Head) :=
  match q.entries with
  | [] => .ok (q, .empty)
  | entry :: rest =>
    if bound ≤ entry.number then .ok (q, .beyond)
    else
      match entry.op with
      | none => .error .headCheckedOut
      | some op =>
        if wanted op then .ok ({ q with entries := ⟨entry.number, none⟩ :: rest }, .ready op)
        else .ok (q, .skipped)

/-- Remove the slot of a checked-out head that is completed. -/
def retire (q : Queue) : Queue × Except Violation Unit :=
  match q.entries with
  | [] => (q, .error .endOfEmpty)
  | entry :: rest =>
    ({ q with entries := rest },
      if entry.op.isSome then .error .endOfLiveHead else .ok ())

/-- Put back a head that was not ready, and forget the hint. -/
def restore (q : Queue) (op : Operation) : Except Violation Queue :=
  match q.entries with
  | [] => .error .restoreToEmpty
  | entry :: rest =>
    if entry.op.isSome then .error .restoreOverLiveHead
    else .ok { q with state := .clear, entries := ⟨entry.number, some op⟩ :: rest }

/-! ### Stopping -/

/-- Stop for good and hand out what waits.  If something was checked out, all of it is lost. -/
def stop (q : Queue) : Queue × Except Violation (List Operation) :=
  let q' := { q with state := .stopped, entries := [] }
  match q.entries.mapM (·.op) with
  | none => (q', .error .stopCheckedOut)
  | some ops => ({ q' with draining := q.draining || !ops.isEmpty }, .ok ops)

/-- What was handed out is completed: hand out what was parked meanwhile.  If that is nothing,
the queue no longer drains. -/
def settle (q : Queue) : Queue × List Operation :=
  ({ q with parked := [], draining := q.draining && !q.parked.isEmpty }, q.parked)

end Queue
end Proactor
