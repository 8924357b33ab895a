import Proactor.Kernel
import Proactor.Operation
/-! # Attempts

An attempt tries to finish an operation without waiting.  It makes one system call after another
until the operation is `ready`, with a result or an error, or the descriptor is `notReady`.

* **Accept.**  One call.  A failed accept reports no descriptor and no address.
* **Connect.**  One call.  Once the kernel has begun a handshake, later attempts repeat the call to
  ask for its end.
* **Receive.**  The number of bytes that can be read is asked for first, and at most that many are
  received, but room for one byte is always offered, so that the end of a stream is seen.
* **Send.**  As many calls as it takes until nothing is left, the kernel takes nothing more, or it
  fails.  What was sent stays sent, and the next attempt goes on behind it. -/

namespace Proactor

/-- An attempt between two system calls: the operation, and for a receive the number of bytes that
can be read once it is known. -/
structure Attempt where
  op : Operation
  readable : Option Nat := none
deriving Repr, Inhabited

/-- How far an attempt has come. -/
inductive Progress where
  /-- A system call is next. -/
  | calling (attempt : Attempt)
  /-- The operation has its result. -/
  | ready (op : Operation)
  /-- The descriptor is not ready. -/
  | notReady (op : Operation)
deriving Repr, Inhabited

namespace Attempt

/-- Nothing of a send is left, or nothing of it can be offered to the kernel. -/
def nothingToSend (t : Transfer) : Bool :=
  t.cursor.isDone t.buffer.windows || (Span.unsent t.buffer.windows t.cursor).isEmpty

/-- Begin an attempt.  A send with nothing left is ready at once. -/
def start (op : Operation) : Progress :=
  match op.work with
  | .send t => if nothingToSend t then .ready (op.withStatus .success) else .calling ⟨op, none⟩
  | _ => .calling ⟨op, none⟩

/-- The operation with the error of a failed call. -/
def failed (op : Operation) (work : Work) (error : Errno) : Progress :=
  .ready (op.became work (.ofError error))

/-- After an accept, for which the address was offered with all its room. -/
def afterAccept (op : Operation) (address : Address) (accepted : Descriptor) :
    Except Int Accepted → Progress
  | .ok got => .ready (op.became (.accept (address.offered.reported got.address) got.fd) .success)
  | .error raw =>
    let error := Errno.ofRaw raw
    if error = .again then .notReady { op with work := .accept address.offered accepted }
    else failed op (.accept (address.offered.withLength 0) (-1)) error

/-- After a connect.  The first call begins the handshake; later calls ask how it stands. -/
def afterConnect (op : Operation) (address : Address) (started : Bool) :
    Except Int Unit → Progress
  | .ok () => .ready (op.became (.connect address started) .success)
  | .error raw =>
    let error := Errno.ofRaw raw
    if started then
      if error = .isConnected then .ready (op.became (.connect address started) .success)
      else if error = .already ∨ error = .inProgress ∨ error = .again then
        .notReady { op with work := .connect address started }
      else failed op (.connect address started) error
    else if error = .inProgress then .notReady { op with work := .connect address true }
    else failed op (.connect address started) error

/-- After the question how many bytes can be read. -/
def afterAvailable (op : Operation) : Except Int Int → Progress
  | .ok n => .calling ⟨op, some (max n.toNat 1)⟩
  | .error raw => failed op op.work (Errno.ofRaw raw)

/-- After a receive into the given spans, for which the address was offered with all its room. -/
def afterReceive (op : Operation) (t : Transfer) (spans : List Span) :
    Except Int Received → Progress
  | .ok got =>
    let t := { t with
      buffer := t.buffer.scatter spans got.bytes
      transferred := got.bytes.length
      resultFlags := got.flags
      address := t.address.map fun a =>
        (a.offered.reported got.address).withLength got.address.length }
    .ready (op.became (.receive t) .success)
  | .error raw =>
    let error := Errno.ofRaw raw
    let t := { t with address := t.address.map Address.offered }
    if error = .again then .notReady { op with work := .receive t }
    else failed op (.receive t) error

/-- After a send.  What was taken is behind the cursor; a send that takes nothing is the last. -/
def afterSend (op : Operation) (t : Transfer) : Except Int Nat → Progress
  | .ok 0 => .ready (op.became (.send t) .success)
  | .ok n =>
    let t := { t with
      transferred := t.transferred + n
      cursor := t.cursor.advance t.buffer.windows n }
    start { op with work := .send t }
  | .error raw =>
    let error := Errno.ofRaw raw
    if error = .again then .notReady { op with work := .send t }
    else failed op (.send t) error

/-- A system call and what becomes of the attempt after it. -/
structure Call where
  request : SystemCall
  resume : request.Reply → Progress

/-- The next system call of an attempt. -/
def call (a : Attempt) (fd : Descriptor) : Call :=
  match a.op.work with
  | .accept address accepted =>
    ⟨.accept fd Address.capacity SystemCall.descriptorFlags, afterAccept a.op address accepted⟩
  | .connect address started => ⟨.connect fd address, afterConnect a.op address started⟩
  | .receive t =>
    match a.readable with
    | none => ⟨.available fd, afterAvailable a.op⟩
    | some bytes =>
      let spans := Span.room t.buffer.windows bytes
      ⟨.receive fd (spans.map (·.length)) (t.address.map fun _ => Address.capacity) t.flags,
        afterReceive a.op t spans⟩
  | .send t =>
    let spans := Span.unsent t.buffer.windows t.cursor
    ⟨.send fd (spans.map (Span.read t.buffer.windows)) t.address (t.flags ||| SystemCall.noSignal),
      afterSend a.op t⟩

end Attempt
end Proactor
