import Proactor.Host
import Proactor.SetupFailure
/-! # Starting a pool

Workers are started one after another.  If one cannot be started, those that were are ended
again.

* **Start** (`Pool.start`).  All of the workers, or none.
* **Stop** (`Pool.stop`).  A pool for which no job was scheduled is shut down: its workers are told
  to end, and then each of them is waited for. -/

namespace Proactor.Pool

/-- The largest number of workers. -/
def maxWorkers : Nat := 64

/-- The number of workers that a pool has when `n` are asked for. -/
def clampWorkers (n : Nat) : Nat := min (max n 1) maxWorkers

/-- Wait until the first `count` workers have ended, whatever they came to. -/
def awaitWorkers (count : Nat) : Program Host.Call Unit :=
  (List.range count).forM fun i => do let _ ← Host.joinWorker i

/-- Start `count` workers, the first of which has the number `index`. -/
def startWorkers (index : Nat) : (count : Nat) → Program Host.Call (Except SetupFailure Unit)
  | 0 => return .ok ()
  | count + 1 => do
    match ← Host.startWorker index with
    | .ok () => startWorkers (index + 1) count
    | .error raw =>
      .log (.error s!"completion worker {index} spawn failed: {Errno.systemText raw}")
      Host.haltWorkers
      awaitWorkers index
      return .error .spawn

/-- Start the threads of a pool for which `n` workers are asked. -/
def start {J : Type} (n : Nat) : Program Host.Call (Except SetupFailure (Pool J)) := do
  match ← startWorkers 0 (clampWorkers n) with
  | .error failure => return .error failure
  | .ok () =>
    .log (.debug s!"completion pool started: {clampWorkers n} workers")
    return .ok (.new (clampWorkers n))

/-- Shut a pool of `count` workers down for which no job was scheduled. -/
def stop (count : Nat) : Program Host.Call Unit := do
  Host.haltWorkers
  (List.range count).forM fun i => do
    unless ← Host.joinWorker i do .log (.error "completion worker exited abnormally")
  .log stoppedLine

end Proactor.Pool
