import Proactor.Channel
import Proactor.Pool.Setup
import Proactor.Reactor.Loop
import Proactor.Reactor.Setup
/-! # Engines

An engine is a reactor, a completion pool, and the channels that use them.

* **Start** (`Engine.start`).  All or nothing: the configuration is checked, then the pool is
  started, then the reactor; if the reactor cannot be started the pool is shut down again.
* **Threads.**  The engine keeps for every worker and every dispatch thread the place where it
  stands. -/

namespace Proactor

/-- A reactor, a pool, their threads, and the channels. -/
structure Engine where
  reactor : Reactor
  pool : Pool Operation
  /-- Where the workers stand. -/
  workers : List (Pool.Worker Operation)
  /-- Where the dispatch threads stand. -/
  dispatchers : List Reactor.Loop
  /-- The channels that are in use, by the number under which they take events. -/
  channels : List (Handler × Channel) := []
  /-- The number of the next channel. -/
  next : Handler := 0
  /-- New sockets try a lingering close first. -/
  blockingClose : Bool
deriving Inhabited

namespace Engine

/-- What a configuration asks of the reactor. -/
def plan (c : Config) : Reactor.Plan :=
  { dispatchers := c.dispatchers, maxEvents := c.maxEvents, wait := c.wait }

/-- The engine of a configuration once its threads are started: the workers look for jobs, and
the dispatch threads wait. -/
def ofParts (c : Config) (pool : Pool Operation) (reactor : Reactor) : Engine where
  reactor
  pool
  workers := List.replicate pool.size .pop
  dispatchers := List.replicate (plan c).threads .wait
  blockingClose := c.blockingClose

/-- Start an engine. -/
def start (c : Config) : Program Host.Call (Except SetupFailure Engine) := do
  match c.check with
  | .error problem => return .error (.config problem)
  | .ok () =>
    match ← Pool.start c.workers with
    | .error failure => return .error failure
    | .ok pool =>
      match ← Reactor.start (plan c) with
      | .error failure =>
        Pool.stop pool.size
        return .error failure
      | .ok reactor =>
        .log (.info
          s!"engine started: {c.workers} completion workers, {c.dispatchers} dispatch threads")
        return .ok (ofParts c pool reactor)

/-- The channel with a number. -/
def channel? (e : Engine) (h : Handler) : Option Channel :=
  (e.channels.find? (·.1 == h)).map (·.2)

/-- The engine with the channel of a number replaced. -/
def withChannel (e : Engine) (h : Handler) (c : Channel) : Engine :=
  { e with channels := e.channels.map fun (k, old) => (k, if k = h then c else old) }

/-- The engine with a new channel, and its number. -/
def addChannel (e : Engine) (c : Channel) : Handler × Engine :=
  (e.next, { e with channels := e.channels ++ [(e.next, c)], next := e.next + 1 })

/-- The engine without the channel of a number. -/
def dropChannel (e : Engine) (h : Handler) : Engine :=
  { e with channels := e.channels.filter (·.1 != h) }

/-- The first dispatch thread that waits. -/
def listener? (e : Engine) : Option Nat := e.dispatchers.findIdx? (·.isWaiting)

end Engine
end Proactor
