import Proactor.Channel
/-! # Submissions

A submission carries an operation into a channel.  It never waits for the descriptor: the
operation is either finished at once or left in its queue.

* **Through the socket** (`guarded`).  The submission first looks whether the socket is open and
  keeps it so.  A connect on a channel that is not attached is tried before the reactor hears of
  the descriptor, since a socket that is not connected would be reported as hung up.
* **Answers** (`Answer`).  What the caller is told at once; the completion comes by its ticket in
  every case. -/

namespace Proactor

/-- What a submission tells its caller. -/
inductive Answer where
  /-- It finished with success. -/
  | completed
  /-- It waits in its queue. -/
  | pending
  | failed (status : Status)
deriving DecidableEq, Repr, Inhabited

namespace Answer

/-- The answer about an operation that finished with a status. -/
def of (status : Status) : Answer := if status.isSuccess then completed else failed status

def isPending (a : Answer) : Bool := a == pending

/-- The answer as it is shown to a programmer. -/
def text : Answer → String
  | completed => "Completed"
  | pending => "Pending"
  | failed s => s!"Failed({s.name})"

end Answer

namespace Channel

namespace Submission

/-- Where a submission stands. -/
inductive Phase where
  /-- It looks whether the socket is open. -/
  | enter (op : Operation)
  /-- It has the channel join the reactor; `tried` if the operation was attempted before. -/
  | attach (op : Operation) (tried : Bool)
  /-- It asks the queue whether to try at once. -/
  | offer (op : Operation)
  /-- It makes a system call; `early` if the channel has not joined the reactor. -/
  | attempt (attempt : Attempt) (early : Bool)
  /-- The descriptor was not ready; it asks the queue to take the operation. -/
  | enlist (op : Operation)
  /-- It completes the operation. -/
  | complete (op : Operation)
  | answered (answer : Answer)
  /-- It broke a rule of its queue. -/
  | broken (violation : Violation)
deriving Inhabited

/-- Whether the submission has come to its end. -/
def Phase.isFinal : Phase → Bool
  | answered _ | broken _ => true
  | _ => false

end Submission

/-- A submission in progress. -/
structure Submission where
  /-- It keeps the socket open. -/
  guarded : Bool
  phase : Submission.Phase
deriving Inhabited

namespace Submission

/-- A submission through the socket. -/
def throughSocket (op : Operation) : Submission := ⟨true, .enter op⟩

/-- A submission to a channel that has joined the reactor. -/
def direct (op : Operation) : Submission := ⟨false, .offer op⟩

/-- Where a submission stands after a part of an attempt. -/
def Phase.ofProgress (early : Bool) : Progress → Phase
  | .calling a => .attempt a early
  | .ready op => .complete op
  | .notReady op => if early then .attach op true else .enlist op

/-- The submission gives up what it holds of the channel. -/
def abandon (s : Submission) (c : Channel) : Channel :=
  if s.guarded then { c with guards := c.guards - 1 } else c

/-- Go on to a phase; the last one gives up what the submission holds. -/
def goto (s : Submission) (c : Channel) (phase : Phase) (lines : List Log.Entry := []) :
    Turn Channel Submission :=
  ⟨if phase.isFinal then s.abandon c else c, { s with phase }, lines⟩

/-- After the channel asked the reactor to report its descriptor. -/
def afterAttach (s : Submission) (op : Operation) (tried : Bool) (c : Channel)
    (reply : Except Errno Unit) : Turn Channel Submission :=
  match c.afterRegister reply with
  | (.ok c, lines) => s.goto c (if tried then .enlist op else .offer op) lines
  | (.error failure, lines) =>
    s.goto c (.complete (op.withStatus failure.status))
      (lines ++ [.warn s!"fd {c.fd}: async context unavailable: {failure.message}"])

/-- After the queue admitted the operation or not. -/
def afterOffer (s : Submission) (c : Channel) (d : Direction) :
    Except Violation (Queue × Queue.Admission) → Turn Channel Submission
  | .error v => s.goto c (.broken v)
  | .ok (q, admission) =>
    let c := c.withQueue d q
    match admission with
    | .attempt op => s.goto c (.ofProgress false (Attempt.start op))
    | .queued => s.goto c (.answered .pending)
    | .stopped op => s.goto c (.complete (op.withStatus .shutdown))
    | .draining => s.goto c (.answered (.failed .shutdown))

/-- After the queue took the operation or not. -/
def afterEnlist (s : Submission) (c : Channel) (d : Direction) :
    Except Violation (Queue × Queue.Enlistment) → Turn Channel Submission
  | .error v => s.goto c (.broken v)
  | .ok (q, enlistment) =>
    let c := c.withQueue d q
    match enlistment with
    | .enlisted => s.goto c (.answered .pending)
    | .retry op => s.goto c (.ofProgress false (Attempt.start op))
    | .stopped op => s.goto c (.complete (op.withStatus .shutdown))
    | .draining => s.goto c (.answered (.failed .shutdown))

/-- The next step of a submission. -/
def next (c : Channel) (s : Submission) : Next Call Channel Submission :=
  match s.phase with
  | .enter op =>
    let c := { c with guards := c.guards + 1 }
    if c.attached then .step (s.goto c (.offer op))
    else if !c.isOpen then .step (s.goto c (.complete (op.withStatus .shutdown)))
    else if op.isConnect then .step (s.goto c (.ofProgress true (Attempt.start op)))
    else .step (s.goto c (.attach op false))
  | .attach op tried =>
    if c.attached then .step (s.goto c (if tried then .enlist op else .offer op))
    else .ask (.register c.fd .standard) fun reply c => s.afterAttach op tried c reply
  | .offer op => .step (s.afterOffer c op.direction ((c.queue op.direction).offer op))
  | .attempt a early =>
    let call := a.call c.fd
    .ask (.system call.request) fun reply c => s.goto c (.ofProgress early (call.resume reply))
  | .enlist op => .step (s.afterEnlist c op.direction ((c.queue op.direction).enlist op))
  | .complete op =>
    .ask (c.complete op) fun _ c => s.goto c (.answered (.of op.status))
  | .answered _ => .ended
  | .broken _ => .ended

end Submission

/-! ### Joining the reactor without an operation -/

/-- Where a request for the channel itself stands. -/
inductive Attachment where
  | enter
  | attach
  | ended (result : Except SetupFailure Unit)
deriving Inhabited

namespace Attachment

/-- The request gives up what it holds of the channel. -/
def leave (c : Channel) : Channel := { c with guards := c.guards - 1 }

/-- The next step of a request for the channel itself, through the socket. -/
def next (c : Channel) : Attachment → Next Call Channel Attachment
  | .enter =>
    if c.isOpen then .step ⟨{ c with guards := c.guards + 1 }, .attach, []⟩
    else .step ⟨c, .ended (.error (.socket .shutdown)), []⟩
  | .attach =>
    if c.attached then .step ⟨leave c, .ended (.ok ()), []⟩
    else .ask (.register c.fd .standard) fun reply c =>
      match c.afterRegister reply with
      | (.ok c, lines) => ⟨leave c, .ended (.ok ()), lines⟩
      | (.error failure, lines) => ⟨leave c, .ended (.error failure), lines⟩
  | .ended _ => .ended

end Attachment
end Channel
end Proactor
