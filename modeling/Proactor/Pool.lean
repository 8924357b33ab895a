import Proactor.Activity
import Proactor.Lane
/-! # The completion pool

A pool runs jobs on worker threads.  Each worker has one queue; the lane of a job chooses the queue,
so the jobs of one lane run on one worker in the order in which they were scheduled.

* **Workers** (`Pool.Worker`).  A worker runs the jobs of its queue.  It ends when the pool is
  halted and its queue is empty.
* **Scheduling** (`Pool.Scheduling`).  A job is put into its queue.  Once the workers are gone, who
  schedules a job also runs what is in its queue.
* **Shutdown** (`Pool.Shutdown`).  The pool is halted; when the workers have ended, the remaining
  jobs are run by the thread that shuts the pool down.  Only the first shutdown does anything.

A job that panics is reported, and its worker goes on. -/

namespace Proactor

/-- Queues of jobs of type `J` and the state of the workers. -/
structure Pool (J : Type) where
  /-- One queue for each worker, oldest job first. -/
  queues : List (List J)
  /-- Workers that are running a job. -/
  active : Nat := 0
  /-- Workers that have not ended. -/
  live : Nat
  /-- Workers are to end once their queues are empty. -/
  halted : Bool := false
  /-- The workers have ended. -/
  stopped : Bool := false
deriving Repr, Inhabited

namespace Pool

/-- How a job ended. -/
inductive Outcome where
  | finished
  /-- The job panicked, with a message if there was one. -/
  | panicked (message : Option String)
deriving DecidableEq, Repr, Inhabited

/-- The line about a job that panicked. -/
def Outcome.lines : Outcome → List Log.Entry
  | finished => []
  | panicked message =>
    [.error ("completion callback panicked: " ++ message.getD "<non-string panic>")]

/-- What the activities of a pool ask for. -/
inductive Call (J : Type) where
  | run (job : J)
deriving Inhabited

instance (J : Type) : Protocol (Call J) := ⟨fun _ => Outcome⟩

variable {J : Type}

/-- A new pool of `workers` workers. -/
def new (workers : Nat) : Pool J := { queues := List.replicate workers [], live := workers }

/-- The number of workers. -/
def size (p : Pool J) : Nat := p.queues.length

/-- The queue of a worker. -/
def queue (p : Pool J) (worker : Nat) : List J := p.queues.getD worker []

/-- The pool with a job at the end of the queue of a worker. -/
def push (p : Pool J) (worker : Nat) (job : J) : Pool J :=
  { p with queues := p.queues.modify worker (· ++ [job]) }

/-- The oldest job of a worker's queue, and the pool without it. -/
def pop (p : Pool J) (worker : Nat) : Option (J × Pool J) :=
  match p.queue worker with
  | [] => none
  | job :: rest => some (job, { p with queues := p.queues.set worker rest })

/-! ### Workers -/

/-- Where a worker stands. -/
inductive Worker (J : Type) where
  /-- It takes the oldest job. -/
  | pop
  | run (job : J)
  /-- Its queue was empty; it looks whether the pool is halted. -/
  | check
  /-- The pool is halted; it looks once more whether its queue is empty. -/
  | confirm
  /-- It sleeps until there is something to do. -/
  | park
  | ended
deriving Repr, Inhabited

/-- The next step of the worker with number `i`. -/
def Worker.next (i : Nat) (p : Pool J) : Worker J → Next (Call J) (Pool J) (Worker J)
  | pop =>
    match p.pop i with
    | some (job, p) => .step ⟨{ p with active := p.active + 1 }, run job, []⟩
    | none => .step ⟨p, check, []⟩
  | run job =>
    .ask (.run job) fun outcome p => ⟨{ p with active := p.active - 1 }, pop, outcome.lines⟩
  | check => .step ⟨p, if p.halted then confirm else park, []⟩
  | confirm =>
    if (p.queue i).isEmpty then .step ⟨{ p with live := p.live - 1 }, ended, []⟩
    else .step ⟨p, pop, []⟩
  | park => if (p.queue i).isEmpty ∧ ¬ p.halted then .blocked else .step ⟨p, pop, []⟩
  | ended => .ended

/-! ### Scheduling -/

/-- Where the scheduling of a job stands. -/
inductive Scheduling (J : Type) where
  | push (lane : Lane) (job : J)
  /-- It looks whether the workers have ended. -/
  | look (worker : Nat)
  /-- They have; it takes the oldest job itself. -/
  | drain (worker : Nat)
  | run (worker : Nat) (job : J)
  | ended
deriving Repr, Inhabited

/-- The next step of scheduling. -/
def Scheduling.next (p : Pool J) :
    Scheduling J → Next (Call J) (Pool J) (Scheduling J)
  | push lane job =>
    let i := lane.bucket p.size
    .step ⟨p.push i job, look i, []⟩
  | look i => .step ⟨p, if p.stopped then drain i else ended, []⟩
  | drain i =>
    match p.pop i with
    | some (job, p) => .step ⟨p, run i job, []⟩
    | none => .step ⟨p, ended, []⟩
  | run i job => .ask (.run job) fun outcome p => ⟨p, drain i, outcome.lines⟩
  | ended => .ended

/-! ### Shutdown -/

/-- Where a shutdown stands. -/
inductive Shutdown (J : Type) where
  | enter
  /-- It waits for the workers to end. -/
  | join
  /-- It takes the oldest job of a queue that was left. -/
  | drain (worker : Nat)
  | run (worker : Nat) (job : J)
  | ended
deriving Repr, Inhabited

/-- The line that ends a shutdown. -/
def stoppedLine : Log.Entry := .debug "completion pool stopped"

/-- The next step of a shutdown. -/
def Shutdown.next (p : Pool J) : Shutdown J → Next (Call J) (Pool J) (Shutdown J)
  | enter => .step ⟨{ p with halted := true }, if p.halted then ended else join, []⟩
  | join => if p.live ≠ 0 then .blocked else .step ⟨{ p with stopped := true }, drain 0, []⟩
  | drain i =>
    if p.size ≤ i then .step ⟨p, ended, [stoppedLine]⟩
    else
      match p.pop i with
      | some (job, p) => .step ⟨p, run i job, []⟩
      | none => .step ⟨p, drain (i + 1), []⟩
  | run i job => .ask (.run job) fun outcome p => ⟨p, drain i, outcome.lines⟩
  | ended => .ended

end Pool
end Proactor
