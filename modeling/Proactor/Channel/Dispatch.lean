import Proactor.Channel.Flush
/-! # Dispatching readiness

A dispatch takes a readiness report to the operations that wait for it.  It holds the dispatch
lock of its channel from beginning to end.

* **Errors.**  A pending error of the socket is fetched first.  It goes to the first operation that
  is not ready, or that fails with an error of its own.
* **Hang-up.**  Every queue is stopped, the channel leaves the reactor, and what waited is
  attempted once more and completed.
* **End of input.**  The same for the receives only; the channel's interest is narrowed.
* **Sweeps** (`Stage`).  Otherwise the queues that the report concerns are swept: from the head on,
  operations are attempted and completed until one is not ready, or all that waited when the sweep
  began are done.  If newer operations wait behind those, the reactor is asked to report again. -/

namespace Proactor.Channel

/-- A queue that is swept, and the operations that are wanted in it. -/
inductive Stage where
  | accepts | receives | connects | sends
deriving DecidableEq, Repr, Inhabited

namespace Stage

def direction : Stage → Direction
  | accepts | connects => .connection
  | receives => .receive
  | sends => .send

/-- The operations that a sweep serves. -/
def wants : Stage → Operation → Bool
  | accepts, op => op.isAccept
  | connects, op => op.isConnect
  | receives, _ | sends, _ => true

/-- The sweeps that a report asks for, in order. -/
def ofReadiness (events : Readiness) : List Stage :=
  (if events.contains .readable then [accepts, receives] else []) ++
    (if events.contains .writable then [connects, sends] else [])

end Stage

/-- A sweep in progress. -/
structure Sweep where
  stage : Stage
  /-- Slots below this number are attempted. -/
  bound : Nat
  /-- The sweeps that follow. -/
  rest : List Stage
  /-- Newer operations wait behind a finished sweep. -/
  rearm : Bool
  /-- The pending error of the socket, until an operation takes it. -/
  pending : Option Status
deriving Inhabited

/-- Where a dispatch stands. -/
inductive Dispatch where
  /-- It takes the lock and looks whether the reactor still knows the channel. -/
  | enter (events : Readiness)
  /-- It fetches the pending error. -/
  | query (events : Readiness)
  /-- It stops every queue and leaves the reactor. -/
  | hangUp (pending : Option Status)
  /-- It stops the receives; `rest` are the sweeps that follow. -/
  | endInput (rest : List Stage) (pending : Option Status)
  /-- It begins the last attempt of the first operation that was handed out.  After a hang-up
  there is no `rest`. -/
  | force (ops : List Operation) (rest : Option (List Stage)) (pending : Option Status)
  /-- It makes a system call in such an attempt. -/
  | forcing (attempt : Attempt) (ops : List Operation) (rest : Option (List Stage))
      (pending : Option Status)
  /-- It completes such an operation. -/
  | forced (op : Operation) (ops : List Operation) (rest : Option (List Stage))
      (pending : Option Status)
  /-- It completes what was parked meanwhile. -/
  | flush (flush : Flush) (rest : Option (List Stage)) (pending : Option Status)
  /-- It narrows the interest of the channel. -/
  | narrow (rest : List Stage) (pending : Option Status)
  /-- It begins the next sweep. -/
  | sweep (stages : List Stage) (rearm : Bool) (pending : Option Status)
  /-- It checks out the head. -/
  | checkOut (sweep : Sweep)
  /-- It makes a system call in an attempt of the head. -/
  | attempt (attempt : Attempt) (sweep : Sweep)
  /-- The head was not ready; it puts it back. -/
  | restore (op : Operation) (sweep : Sweep)
  /-- It completes the head. -/
  | complete (op : Operation) (sweep : Sweep)
  /-- It removes the head's slot. -/
  | retire (sweep : Sweep)
  /-- It asks the reactor to report again. -/
  | rearm (pending : Option Status)
  | ended
  /-- It broke a rule of a queue. -/
  | broken (violation : Violation)
deriving Inhabited

namespace Dispatch

/-- The dispatch gives up the lock. -/
def abandon (c : Channel) : Channel := { c with dispatching := false }

/-- The last step of a dispatch. -/
def finish (c : Channel) (pending : Option Status) : Turn Channel Dispatch :=
  ⟨abandon c, ended,
    match pending with
    | some s => [.debug s!"fd {c.fd}: socket error {s.message} had no operation to take it"]
    | none => []⟩

/-- A rule of a queue was broken. -/
def fail (c : Channel) (v : Violation) : Turn Channel Dispatch := ⟨abandon c, broken v, []⟩

/-- Where a dispatch goes once the pending error is known. -/
def route (events : Readiness) (pending : Option Status) : Dispatch :=
  if events.contains .hangUp then hangUp pending
  else if events.contains .peerClosed then
    endInput (Stage.ofReadiness (events.remove .readable)) pending
  else sweep (Stage.ofReadiness events) false pending

/-- An operation that failed takes the pending error in place of its own. -/
def takePending (op : Operation) (pending : Option Status) : Operation × Option Status :=
  if op.status.isSuccess then (op, pending)
  else
    match pending with
    | some s => (op.withStatus s, none)
    | none => (op, none)

/-- Where a dispatch stands after a part of the last attempt of an operation.  An operation that
is not ready takes the pending error, or ends with `shutdown`. -/
def ofForced (ops : List Operation) (rest : Option (List Stage)) (pending : Option Status) :
    Progress → Dispatch
  | .calling a => forcing a ops rest pending
  | .ready op => let (op, pending) := takePending op pending; forced op ops rest pending
  | .notReady op => forced (op.withStatus (pending.getD .shutdown)) ops rest none

/-- Where a dispatch stands after a part of an attempt of the head.  A head that is not ready
takes the pending error if there is one. -/
def ofSwept (s : Sweep) : Progress → Dispatch
  | .calling a => attempt a s
  | .ready op =>
    let (op, pending) := takePending op s.pending
    complete op { s with pending }
  | .notReady op =>
    match s.pending with
    | some status => complete (op.withStatus status) { s with pending := none }
    | none => restore op s

/-- After the pending error was asked for. -/
def afterQuery (events : Readiness) (c : Channel) : Except Int Int → Turn Channel Dispatch
  | .ok 0 => ⟨c, route events none, []⟩
  | .ok n =>
    let status := Status.ofErrno n
    ⟨c, route events (some status),
      [.debug s!"fd {c.fd}: pending socket error: {status.message}"]⟩
  | .error raw =>
    ⟨c, route events none,
      [.debug s!"fd {c.fd}: SO_ERROR query failed: {(Errno.ofRaw raw).text}"]⟩

/-- The interest that remains once the peer sends no more. -/
def narrowed (r : Readiness) : Readiness := r.remove (.readable ||| .peerClosed)

/-- The line about a failed request to narrow the interest. -/
def afterNarrow (c : Channel) : Except Errno Unit → List Log.Entry
  | .ok () => []
  | .error e =>
    if e = .badDescriptor ∨ e = .noEntry then
      [.debug s!"fd {c.fd}: narrowing interest raced with close"]
    else [.warn s!"fd {c.fd}: narrowing interest failed: {e.text}"]

/-- The line about a failed request to report again. -/
def afterRearm (c : Channel) : Except Errno Unit → List Log.Entry
  | .ok () => []
  | .error e => [.warn s!"fd {c.fd}: re-arm failed: {e.text}"]

/-- After the head was checked out or not. -/
def afterCheckOut (c : Channel) (s : Sweep) :
    Except Violation (Queue × Queue.Head) → Turn Channel Dispatch
  | .error v => fail c v
  | .ok (q, head) =>
    let c := c.withQueue s.stage.direction q
    match head with
    | .ready op => ⟨c, ofSwept s (Attempt.start op), []⟩
    | .beyond => ⟨c, sweep s.rest true s.pending, []⟩
    | .empty | .skipped => ⟨c, sweep s.rest s.rearm s.pending, []⟩

/-- The next step of a dispatch. -/
def next (c : Channel) : Dispatch → Next Call Channel Dispatch
  | enter events =>
    if c.dispatching then .blocked
    else
      let lines := [.trace s!"fd {c.fd}: events {events.text}"]
      if c.registered.isEmpty then .step ⟨c, ended, lines⟩
      else
        let c := { c with dispatching := true }
        .step ⟨c, if events.contains .failed then query events else route events none, lines⟩
  | query events =>
    .ask (.system (.pendingError c.fd)) fun reply c => afterQuery events c reply
  | hangUp pending =>
    match c.stopAll with
    | (c, .error v) => .step (fail c v)
    | (c, .ok ops) =>
      c.leave (force ops none pending)
        [.debug s!"fd {c.fd}: HUP teardown, {ops.length} ops drained"]
  | endInput rest pending =>
    match c.stop .receive with
    | (c, .error v) => .step (fail c v)
    | (c, .ok ops) =>
      .step ⟨c, force ops (some rest) pending,
        [.debug s!"fd {c.fd}: RDHUP, {ops.length} receives drained"]⟩
  | force [] rest pending => .step ⟨c, flush .settle rest pending, []⟩
  | force (op :: ops) rest pending =>
    .step ⟨c, ofForced ops rest pending (Attempt.start op), []⟩
  | forcing a ops rest pending =>
    let call := a.call c.fd
    .ask (.system call.request) fun reply c =>
      ⟨c, ofForced ops rest pending (call.resume reply), []⟩
  | forced op ops rest pending =>
    .ask (c.complete op) fun _ c => ⟨c, force ops rest pending, []⟩
  | flush .ended none _ => .step ⟨abandon c, ended, []⟩
  | flush .ended (some rest) pending => .step ⟨c, narrow rest pending, []⟩
  | flush f rest pending => (f.next c).map (flush · rest pending)
  | narrow rest pending =>
    let after := sweep rest false pending
    if c.registered.isEmpty ∨ narrowed c.registered = c.registered then .step ⟨c, after, []⟩
    else
      .ask (.unregister c.fd (narrowed c.registered)) fun reply now =>
        ⟨{ c.afterCall now with registered := narrowed c.registered }, after,
          afterNarrow c reply⟩
  | sweep [] again pending =>
    .step (if again then ⟨c, rearm pending, []⟩ else finish c pending)
  | sweep (stage :: rest) again pending =>
    match (c.queue stage.direction).snapshot with
    | none => .step ⟨c, sweep rest again pending, []⟩
    | some (bound, q) =>
      .step ⟨c.withQueue stage.direction q, checkOut ⟨stage, bound, rest, again, pending⟩, []⟩
  | checkOut s =>
    .step (afterCheckOut c s ((c.queue s.stage.direction).checkOut s.bound s.stage.wants))
  | attempt a s =>
    let call := a.call c.fd
    .ask (.system call.request) fun reply c => ⟨c, ofSwept s (call.resume reply), []⟩
  | restore op s =>
    match (c.queue s.stage.direction).restore op with
    | .error v => .step (fail c v)
    | .ok q => .step ⟨c.withQueue s.stage.direction q, sweep s.rest s.rearm s.pending, []⟩
  | complete op s => .ask (c.complete op) fun _ c => ⟨c, retire s, []⟩
  | retire s =>
    match (c.queue s.stage.direction).retire with
    | (q, .error v) => .step (fail (c.withQueue s.stage.direction q) v)
    | (q, .ok ()) => .step ⟨c.withQueue s.stage.direction q, checkOut s, []⟩
  | rearm pending =>
    if c.registered.isEmpty then .step (finish c pending)
    else
      .ask (.register c.fd c.registered) fun reply now =>
        let turn := finish (c.afterCall now) pending
        { turn with lines := afterRearm c reply ++ turn.lines }
  | ended => .ended
  | broken _ => .ended

end Dispatch
end Proactor.Channel
