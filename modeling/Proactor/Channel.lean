import Proactor.Activity
import Proactor.Attempt
import Proactor.Queue
import Proactor.Readiness
import Proactor.SetupFailure
/-! # Channels

A channel multiplexes the operations of one descriptor.  It is shared by everyone who submits
operations, by the threads that dispatch readiness, and by those who close it.

* **Queues.**  One for each direction, behind one lock, together with the interest that the
  reactor knows.  A step of an activity holds that lock for as long as it lasts, also across a
  call to the reactor.  What is not behind the lock may change during such a call (`afterCall`).
* **Dispatch lock** (`dispatching`).  Held for a whole dispatch, so that a close waits for it.
* **Openness** (`isOpen`, `guards`).  A submission through the socket keeps it open while it runs:
  `guards` counts such submissions, and a close waits until there are none.
* **Close policy** (`blockingClose`).  Behind no lock; a close reads it when it releases the
  descriptor.
* **Attachment** (`attached`).  The channel joins the reactor on first use.  Before that its
  queues are not in use. -/

namespace Proactor

/-- The state of a descriptor that its activities share. -/
structure Channel where
  fd : Descriptor
  isOpen : Bool := true
  /-- Submissions through the socket that are in progress. -/
  guards : Nat := 0
  /-- The reactor was told of the descriptor. -/
  attached : Bool := false
  receive : Queue := {}
  send : Queue := {}
  connection : Queue := {}
  /-- What the reactor reports; empty once it was told to forget the descriptor. -/
  registered : Readiness := .none
  /-- A dispatch is in progress. -/
  dispatching : Bool := false
  /-- A close may linger. -/
  blockingClose : Bool := true
deriving Repr, Inhabited

namespace Channel

/-- What the activities of a channel ask for. -/
inductive Call where
  | system (call : SystemCall)
  /-- Have the reactor report `interest`, also if it is ready right now. -/
  | register (fd : Descriptor) (interest : Readiness)
  /-- Have the reactor report `remaining` only, or forget the descriptor if that is nothing. -/
  | unregister (fd : Descriptor) (remaining : Readiness)
  /-- Complete an operation on a lane. -/
  | schedule (lane : Lane) (op : Operation)
  /-- Release the descriptor. -/
  | release (fd : Descriptor)
deriving Inhabited

/-- The answers to the requests of a channel. -/
def Call.Answer : Call → Type
  | system c => c.Reply
  | register .. => Except Errno Unit
  | unregister .. => Except Errno Unit
  | schedule .. => Unit
  | release _ => Except Status Unit

instance : Protocol Call := ⟨Call.Answer⟩

/-! ### The queues -/

/-- The queue of a direction. -/
def queue (c : Channel) : Direction → Queue
  | .receive => c.receive
  | .send => c.send
  | .connection => c.connection

/-- The channel with the queue of a direction replaced. -/
def withQueue (c : Channel) (d : Direction) (q : Queue) : Channel :=
  match d with
  | .receive => { c with receive := q }
  | .send => { c with send := q }
  | .connection => { c with connection := q }

@[simp] theorem queue_withQueue (c : Channel) (d : Direction) (q : Queue) :
    (c.withQueue d q).queue d = q := by cases d <;> rfl

@[simp] theorem withQueue_queue (c : Channel) (d : Direction) : c.withQueue d (c.queue d) = c := by
  cases d <;> rfl

theorem queue_withQueue_ne (c : Channel) {d e : Direction} (q : Queue) (h : e ≠ d) :
    (c.withQueue d q).queue e = c.queue e := by cases d <;> cases e <;> simp_all [withQueue, queue]

section frame
variable (c : Channel) (d : Direction) (q : Queue)

@[simp] theorem fd_withQueue : (c.withQueue d q).fd = c.fd := by cases d <;> rfl
@[simp] theorem isOpen_withQueue : (c.withQueue d q).isOpen = c.isOpen := by cases d <;> rfl
@[simp] theorem guards_withQueue : (c.withQueue d q).guards = c.guards := by cases d <;> rfl
@[simp] theorem attached_withQueue : (c.withQueue d q).attached = c.attached := by cases d <;> rfl
@[simp] theorem registered_withQueue : (c.withQueue d q).registered = c.registered := by
  cases d <;> rfl
@[simp] theorem dispatching_withQueue : (c.withQueue d q).dispatching = c.dispatching := by
  cases d <;> rfl

end frame

/-- Stop one queue. -/
def stop (c : Channel) (d : Direction) : Channel × Except Violation (List Operation) :=
  let (q, ops) := (c.queue d).stop
  (c.withQueue d q, ops)

/-- Stop every queue, receives first, then sends, then connections.  A broken rule ends this
where it was noticed, and what was handed out until then is lost. -/
def stopAll (c : Channel) : Channel × Except Violation (List Operation) :=
  match c.stop .receive with
  | (c, .error v) => (c, .error v)
  | (c, .ok receives) =>
    match c.stop .send with
    | (c, .error v) => (c, .error v)
    | (c, .ok sends) =>
      match c.stop .connection with
      | (c, .error v) => (c, .error v)
      | (c, .ok connections) => (c, .ok (receives ++ sends ++ connections))

/-- Everything handed out so far is completed: hand out what was parked meanwhile. -/
def settle (c : Channel) : Channel × List Operation :=
  let (r, receives) := c.receive.settle
  let (s, sends) := c.send.settle
  let (a, connections) := c.connection.settle
  ({ c with receive := r, send := s, connection := a }, receives ++ sends ++ connections)

@[simp] theorem queue_settle (c : Channel) (d : Direction) :
    c.settle.1.queue d = (c.queue d).settle.1 := by cases d <;> rfl

/-- The request that completes an operation. -/
def complete (c : Channel) (op : Operation) : Call := .schedule (op.lane c.fd) op

/-! ### Joining and leaving the reactor -/

/-- The channel after a call behind the lock of the queues.  What others may change meanwhile is
as they left it in `now`. -/
def afterCall (c now : Channel) : Channel :=
  { c with guards := now.guards, blockingClose := now.blockingClose }

@[simp] theorem queue_afterCall (c now : Channel) (d : Direction) :
    (c.afterCall now).queue d = c.queue d := by cases d <;> rfl

/-- The channel after the reactor was asked to report its descriptor, and the lines about it. -/
def afterRegister (c : Channel) : Except Errno Unit → Except SetupFailure Channel × List Log.Entry
  | .ok () =>
    (.ok { c with attached := true, registered := .standard },
      [.trace s!"fd {c.fd}: async context created"])
  | .error e => (.error (.register e), [])

/-- The line about a failed request to leave the reactor, unless it succeeded. -/
def afterUnregister (c : Channel) : Except Errno Unit → List Log.Entry
  | .ok () => []
  | .error e =>
    if e = .badDescriptor ∨ e = .noEntry then
      [.debug s!"fd {c.fd}: already gone from reactor"]
    else [.warn s!"fd {c.fd}: unregister failed: {e.text}"]

/-- Leave the reactor and go on with `turn`, unless the channel has left it before. -/
def leave {φ : Type} (c : Channel) (phase : φ) (lines : List Log.Entry) : Next Call Channel φ :=
  if c.registered.isEmpty then .step ⟨c, phase, lines⟩
  else
    .ask (.unregister c.fd .none) fun reply now =>
      ⟨{ c.afterCall now with registered := .none }, phase, c.afterUnregister reply ++ lines⟩

end Channel
end Proactor
