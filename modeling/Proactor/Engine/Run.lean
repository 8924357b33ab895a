import Proactor.Channel.Closing
import Proactor.Channel.Dispatch
import Proactor.Channel.Submission
import Proactor.Engine
import Proactor.Reactor.Registration
import Proactor.Socket.Release
/-! # Running an engine on one processor

The threads of an engine take turns, and each goes on for as long as it can.  This is one of the
many orders in which their steps may happen.

* **The caller** submits, closes and shuts down (`submit`, `close`, `shutdown`).
* **Dispatch threads** take their turn when the kernel has an answer to a wait (`deliver`).
* **Workers** take their turn when they are told to (`work`), and go on until no job is left.

A run takes place in a monad that holds the engine and in which requests can be made to the host.
The host may carry the same engine on while it answers: a request is like the moment at which
another thread gets its turn. -/

namespace Proactor.Engine.Run

variable {m : Type → Type} [Monad m] [MonadStateOf Engine m] [MonadLiftT (Program Host.Call) m]

/-- A request to the host, or several. -/
def host {α : Type} (p : Program Host.Call α) : m α := liftM p

/-- Write a line. -/
def write (entry : Log.Entry) : m Unit := host (.log entry)

/-- Let a thread have a turn; the thread that went on before goes on after it. -/
def onThread {α : Type} (thread : Thread) (turn : m α) : m α := do
  let before ← host (Host.enter thread)
  let a ← turn
  let _ ← host (Host.enter before)
  return a

variable (owner : Completion → m Pool.Outcome)

/-! ### The pool -/

/-- Where the activities of the pool run. -/
def pool : Surroundings m (Pool.Call Operation) (Pool Operation) where
  get := return (← get).pool
  set pool := modify ({ · with pool })
  answer := fun (.run op) => owner op.completion
  write := write

/-- Schedule the completion of an operation. -/
def schedule (lane : Lane) (op : Operation) : m Unit := do
  let _ ← Activity.run (pool owner) Pool.Scheduling.next (.push lane op)

/-- Let one worker go on. -/
def workOn (i : Nat) : m Unit := do
  match (← get).workers[i]? with
  | none => return ()
  | some phase =>
    let phase ← onThread (.worker i) (Activity.run (pool owner) (Pool.Worker.next i) phase)
    modify fun e => { e with workers := e.workers.set i phase }

/-- Let every worker go on, at most `rounds` times, until no job is left. -/
def workFor : (rounds : Nat) → m Unit
  | 0 => return ()
  | rounds + 1 => do
    (List.range (← get).workers.length).forM (workOn owner)
    unless (← get).pool.queues.all List.isEmpty do workFor rounds

/-- Let the workers go on until no job is left. -/
def work : m Unit := workFor owner Activity.patience

/-! ### The reactor -/

/-- Where the activities of the reactor run. -/
def reactor (deliver : Handler → Readiness → m Bool) :
    Surroundings m Reactor.Call Reactor where
  get := return (← get).reactor
  set reactor := modify ({ · with reactor })
  answer := fun
    | .system call => host (Program.request (Host.Call.system call))
    | .deliver h events => deliver h events
  write := write

/-- Have the reactor report a descriptor to a channel. -/
def register (fd : Descriptor) (interest : Readiness) (h : Handler) :
    m (Except Errno Unit) := do
  let phase ← Activity.run (reactor fun _ _ => return false) Reactor.Registering.next
    (.enter fd interest h)
  return phase.result

/-- Have the reactor report what remains. -/
def unregister (fd : Descriptor) (remaining : Readiness) : m (Except Errno Unit) := do
  let phase ← Activity.run (reactor fun _ _ => return false) Reactor.Unregistering.next
    (.enter fd remaining)
  return phase.result

/-! ### Channels -/

/-- Release a descriptor by system calls. -/
def releaseDescriptor (lingering : Bool) (fd : Descriptor) : m (Except Status Unit) :=
  host (Host.bySystem (Release.bySystemCalls fd lingering))

/-- Where the activities of a channel run. -/
def channel (h : Handler) (release : Channel → Descriptor → m (Except Status Unit)) :
    Surroundings m Channel.Call Channel where
  get := return ((← get).channel? h).getD default
  set c := modify (·.withChannel h c)
  answer := fun
    | .system call => host (Program.request (Host.Call.system call))
    | .register fd interest => register fd interest h
    | .unregister fd remaining => unregister fd remaining
    | .schedule lane op => schedule owner lane op
    | .release fd => do release (((← get).channel? h).getD default) fd
  write := write

/-- Where the activities of a socket run. -/
def socket (h : Handler) : Surroundings m Channel.Call Channel :=
  channel owner h fun c fd => releaseDescriptor c.blockingClose fd

/-- Add a socket for a descriptor. -/
def openSocket (fd : Descriptor) : m Handler :=
  modifyGet fun e => e.addChannel { fd, blockingClose := e.blockingClose }

/-- Submit an operation, and go on until it is answered. -/
def submit (h : Handler) (s : Channel.Submission) : m Channel.Submission :=
  Activity.run (socket owner h) Channel.Submission.next s

/-- Have a channel join the reactor. -/
def attach (h : Handler) : m (Except SetupFailure Unit) := do
  match ← Activity.run (socket owner h) Channel.Attachment.next .enter with
  | .ended result => return result
  | _ => return .ok ()

/-- Close a socket. -/
def close (h : Handler) : m Channel.Closing :=
  Activity.run (socket owner h) Channel.Closing.next .socket

/-- Close a channel whose descriptor its maker releases. -/
def closeChannel (h : Handler) : m Channel.Closing :=
  Activity.run (channel owner h fun _ fd => host (Host.release fd)) Channel.Closing.next .channel

/-- Forget a channel; events for it are dropped from now on. -/
def forget (h : Handler) : m Unit := modify (·.dropChannel h)

/-- Take a readiness report to a channel, if it is still there. -/
def dispatch (h : Handler) (events : Readiness) : m Bool := do
  match (← get).channel? h with
  | none => return false
  | some _ =>
    let _ ← Activity.run (socket owner h) Channel.Dispatch.next (.enter events)
    return true

/-! ### Dispatch threads -/

/-- Let a dispatch thread go on from the kernel's answer to its wait; `take` has a handler take
its events. -/
def resume (take : Handler → Readiness → m Bool) (i : Nat)
    (reply : Except Int (List Event)) : m Unit := do
  let phase ← onThread (.dispatcher i) do
    let phase ← Activity.settle (reactor take)
      (Reactor.Loop.afterWait reply (← get).reactor)
    modify fun e => { e with dispatchers := e.dispatchers.set i phase }
    Activity.runFor (reactor take) Reactor.Loop.next (·.isWaiting) Activity.patience phase
  modify fun e => { e with dispatchers := e.dispatchers.set i phase }

/-- The kernel answers a wait, and handlers take the events: whether there was a dispatch thread
that waited. -/
def deliverTo (take : Handler → Readiness → m Bool) (reply : Except Int (List Event)) :
    m Bool := do
  match (← get).listener? with
  | none => return false
  | some i =>
    resume take i reply
    return true

/-- The kernel answers a wait, and the channels take the events. -/
def deliver (reply : Except Int (List Event)) : m Bool := deliverTo (dispatch owner) reply

/-! ### Stopping -/

/-- Stop the reactor: no wait is begun any more, and the counter ends those that were.  A dispatch
thread that gets events before it hears of the counter still hands them on. -/
def stopReactor : m Unit := do
  unless (← get).reactor.stopped do
    modify fun e => { e with reactor := { e.reactor with stopped := true } }
    host (Reactor.raise (← get).reactor.counter)
    (List.range (← get).dispatchers.length).forM fun i => do
      if ((← get).dispatchers.getD i .ended).isWaiting then
        resume (fun _ _ => return false) i (.ok [⟨Reactor.counterToken, 1⟩])
    host (Reactor.join (← get).dispatchers.length)

/-- Shut the pool down: the workers run what is left and end. -/
def stopPool : m Unit := do
  let phase ← Activity.run (pool owner) Pool.Shutdown.next .enter
  work owner
  let _ ← Activity.run (pool owner) Pool.Shutdown.next phase

/-- Stop reporting readiness, then run what was scheduled and stop the pool. -/
def shutdown : m Unit := do
  stopReactor
  stopPool owner

/-- Take the engine down: the pool, then the reactor and its descriptors. -/
def dispose : m Unit := do
  stopPool owner
  stopReactor
  host (← get).reactor.close

end Proactor.Engine.Run
