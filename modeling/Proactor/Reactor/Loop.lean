import Proactor.Reactor
/-! # Dispatch threads

A dispatch thread waits for a batch of events and tells them, one after another, to the handlers
that stand in the table at that moment.  It goes on until the reactor is stopped or the kernel
refuses a wait for any reason but a signal. -/

namespace Proactor.Reactor

/-- Where a dispatch thread stands. -/
inductive Loop where
  /-- It looks whether the reactor is stopped. -/
  | check
  | wait
  /-- It looks for the handler of the first event. -/
  | batch (events : List Event)
  /-- It has a handler take its events. -/
  | deliver (fd : Descriptor) (handler : Handler) (events : Readiness) (rest : List Event)
  | ended
deriving Inhabited

namespace Loop

def isWaiting : Loop → Bool
  | wait => true
  | _ => false

/-- The line about an event that nobody takes. -/
def unheard (fd : Descriptor) : Log.Entry := .trace s!"fd {fd}: event without live handler"

/-- After a wait. -/
def afterWait (reply : Except Int (List Event)) (r : Reactor) : Turn Reactor Loop :=
  match reply.mapError Errno.ofRaw with
  | .ok events => ⟨r, batch events, []⟩
  | .error e =>
    if e = .interrupted then ⟨r, check, []⟩
    else ⟨r, ended, [.error s!"epoll_wait failed: {e.text}"]⟩

/-- The next step of a dispatch thread. -/
def next (r : Reactor) : Loop → Next Call Reactor Loop
  | check => .step ⟨r, if r.stopped then ended else wait, []⟩
  | wait => .ask (.system (.wait r.queue r.maxEvents r.timeout)) fun reply r => afterWait reply r
  | batch [] => .step ⟨r, check, []⟩
  | batch (e :: rest) =>
    if e.token = counterToken then .step ⟨r, batch rest, []⟩
    else
      let fd := descriptor e.token
      match r.handler? fd with
      | some h => .step ⟨r, deliver fd h (ofKernel e.bits) rest, []⟩
      | none => .step ⟨r, batch rest, [unheard fd]⟩
  | deliver fd h events rest =>
    .ask (.deliver h events) fun (heard : Bool) r =>
      ⟨r, batch rest, if heard then [] else [unheard fd]⟩
  | ended => .ended

end Loop
end Proactor.Reactor
