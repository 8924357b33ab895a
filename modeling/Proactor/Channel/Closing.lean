import Proactor.Channel.Flush
/-! # Closing

A close stops every queue and leaves the reactor while the descriptor is still open.  Then the
descriptor is released, and last everything that waited is completed with `shutdown`; it is not
attempted again, since the descriptor's number may already belong to another socket.

* **Of a channel.**  Waits for a dispatch in progress.  A second close hands out nothing.
* **Of a socket** (`ofSocket`).  Waits for submissions in progress, too.  A second close does
  nothing and reports success. -/

namespace Proactor.Channel

namespace Closing

/-- Where a close stands. -/
inductive Phase where
  /-- It stops the queues and leaves the reactor. -/
  | stop
  /-- It releases the descriptor. -/
  | release (handedOut : List Operation)
  /-- It completes what was handed out. -/
  | flush (flush : Flush) (result : Except Status Unit)
  | ended (result : Except Status Unit)
  /-- It broke a rule of a queue. -/
  | broken (violation : Violation)
deriving Inhabited

end Closing

/-- A close in progress. -/
structure Closing where
  ofSocket : Bool
  phase : Closing.Phase
deriving Inhabited

namespace Closing

/-- A close of a socket. -/
def socket : Closing := ⟨true, .stop⟩

/-- A close of a channel. -/
def channel : Closing := ⟨false, .stop⟩

/-- Go on to a phase. -/
def goto (k : Closing) (c : Channel) (phase : Phase) (lines : List Log.Entry := []) :
    Turn Channel Closing :=
  ⟨c, { k with phase }, lines⟩

/-- The line that ends the close of a socket. -/
def lastLine (c : Channel) : Except Status Unit → Log.Entry
  | .ok () => .debug s!"fd {c.fd}: closed"
  | .error s => .warn s!"fd {c.fd}: close failed: {s.message}"

/-- The last step of a close. -/
def finish (k : Closing) (c : Channel) (result : Except Status Unit) : Turn Channel Closing :=
  k.goto c (.ended result) (if k.ofSocket then [lastLine c result] else [])

/-- After the descriptor was released. -/
def afterRelease (k : Closing) (c : Channel) (ops : List Operation)
    (result : Except Status Unit) : Turn Channel Closing :=
  if c.attached then
    k.goto c (.flush (.complete ops) result)
      (if ops.isEmpty then [] else [.debug s!"fd {c.fd}: close drained {ops.length} ops"])
  else k.finish c result

/-- The next step of a close. -/
def next (c : Channel) (k : Closing) : Next Call Channel Closing :=
  match k.phase with
  | .stop =>
    if k.ofSocket ∧ ¬ c.isOpen then .step (k.goto c (.ended (.ok ())))
    else if (k.ofSocket ∧ c.guards ≠ 0) ∨ c.dispatching then .blocked
    else
      let c := if k.ofSocket then { c with isOpen := false } else c
      if c.attached then
        match c.stopAll with
        | (c, .error v) => .step (k.goto c (.broken v))
        | (c, .ok ops) => c.leave { k with phase := .release ops } []
      else .step (k.goto c (.release []))
  | .release ops => .ask (.release c.fd) fun result c => k.afterRelease c ops result
  | .flush .ended result => .step (k.finish c result)
  | .flush f result => (f.next c).map fun f => { k with phase := .flush f result }
  | .ended _ => .ended
  | .broken _ => .ended

end Closing
end Proactor.Channel
