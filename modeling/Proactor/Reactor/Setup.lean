import Proactor.Host
import Proactor.Reactor
import Proactor.SetupFailure
/-! # Starting and stopping a reactor

* **Start.**  The event queue, the counter that ends waits, and the dispatch threads.  Whatever
  fails, everything that was made before is taken down again.
* **Stop.**  The dispatch threads are told to end, the counter is raised, which ends every wait, and
  each of them is waited for.  The descriptors stay open until the reactor is disposed of. -/

namespace Proactor.Reactor

/-- The largest number of milliseconds that a wait can be told. -/
def maxTimeout : Nat := 2147483647

/-- What a reactor is asked to be. -/
structure Plan where
  dispatchers : Nat := 1
  maxEvents : Nat := 256
  wait : Duration := .ofMilliseconds 100
deriving DecidableEq, Repr, Inhabited

namespace Plan

/-- The number of dispatch threads; there is at least one. -/
def threads (p : Plan) : Nat := max p.dispatchers 1

/-- The reactor that a plan asks for, with its descriptors. -/
def reactor (p : Plan) (queue counter : Descriptor) : Reactor where
  queue
  counter
  maxEvents := max p.maxEvents 1
  timeout := min p.wait.milliseconds maxTimeout

end Plan

/-- Close a descriptor, whatever comes of it. -/
def discard (fd : Descriptor) : Program Host.Call Unit := do
  let _ ← Host.perform (.close fd)

/-- Raise the counter.  A counter that is full was raised already. -/
def raise (counter : Descriptor) : Program Host.Call Unit := do
  match ← Host.perform (.write counter [1, 0, 0, 0, 0, 0, 0, 0]) with
  | .ok () => return ()
  | .error e =>
    if e = .again then return ()
    else .log (.error s!"reactor wake failed: {(SetupFailure.system e).message}")

/-- Wait until the first `count` dispatch threads have ended. -/
def join (count : Nat) : Program Host.Call Unit := do
  (List.range count).forM fun i => do
    unless ← Host.joinDispatcher i do .log (.error "dispatch thread exited abnormally")
  .log (.debug "epoll reactor stopped")

/-- End the first `count` dispatch threads. -/
def stop (r : Reactor) (count : Nat) : Program Host.Call Unit := do
  Host.haltDispatchers
  raise r.counter
  join count

/-- Close the descriptors. -/
def close (r : Reactor) : Program Host.Call Unit := do
  discard r.queue
  discard r.counter

/-- End the first `count` dispatch threads unless that was done before, and close the descriptors. -/
def dispose (r : Reactor) (count : Nat) : Program Host.Call Unit := do
  unless r.stopped do r.stop count
  r.close

/-- Start `count` dispatch threads, the first of which has the number `index`. -/
def startDispatchers (r : Reactor) (index : Nat) :
    (count : Nat) → Program Host.Call (Except SetupFailure Unit)
  | 0 => return .ok ()
  | count + 1 => do
    match ← Host.startDispatcher index with
    | .ok () => startDispatchers r (index + 1) count
    | .error raw =>
      .log (.error s!"dispatch thread {index} spawn failed: {Errno.systemText raw}")
      r.dispose index
      return .error .spawn

/-- Have the event queue report the counter. -/
def watchCounter (queue counter : Descriptor) :
    Program Host.Call (Except SetupFailure Unit) := do
  match ← Host.perform (.watch queue (.add counter 1 counterToken)) with
  | .ok () => return .ok ()
  | .error e =>
    discard queue
    discard counter
    return .error (.reactor e)

/-- Start a reactor. -/
def start (plan : Plan) : Program Host.Call (Except SetupFailure Reactor) := do
  match ← Host.perform (.eventQueue 524288) with
  | .error e => return .error (.reactor e)
  | .ok queue =>
    match ← Host.perform (.eventCounter SystemCall.descriptorFlags) with
    | .error e =>
      discard queue
      return .error (.system e)
    | .ok counter =>
      match ← watchCounter queue counter with
      | .error failure => return .error failure
      | .ok () =>
        let r := plan.reactor queue counter
        match ← r.startDispatchers 0 plan.threads with
        | .error failure => return .error failure
        | .ok () =>
          .log (.debug s!"epoll reactor started: epfd={r.queue} threads={plan.threads}")
          return .ok r

end Proactor.Reactor
