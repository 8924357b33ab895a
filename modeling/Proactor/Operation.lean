import Proactor.Buffer.Cursor
import Proactor.Endpoint.Address
import Proactor.Lane
/-! # Operations

An operation is one thing asked of a socket: to accept, to connect, to receive or to send.  It
carries its inputs, what its attempts have achieved so far, and the ticket under which the caller
waits for its completion.

* **Work** (`Work`).  The four kinds with their data.
* **Completion** (`Operation.completion`).  What the caller is given in the end. -/

namespace Proactor

/-- A receive or a send. -/
structure Transfer where
  buffer : Buffer
  /-- How far a send has come. -/
  cursor : Cursor
  flags : Int32
  /-- The peer: told to the kernel by a send, reported by a receive. -/
  address : Option Address
  transferred : Nat := 0
  /-- The flags that came with what was received. -/
  resultFlags : Int32 := 0
deriving Repr, Inhabited

/-- A transfer that has not begun. -/
def Transfer.fresh (buffer : Buffer) (flags : Int32) (address : Option Address) : Transfer :=
  { buffer, cursor := ({} : Cursor).normalize buffer.windows, flags, address }

/-- What is asked of a socket. -/
inductive Work where
  /-- Take a waiting connection; `accepted` is its descriptor, `-1` if there is none. -/
  | accept (address : Address) (accepted : Descriptor)
  /-- Connect; `started` once the kernel has begun the handshake. -/
  | connect (address : Address) (started : Bool)
  | receive (transfer : Transfer)
  | send (transfer : Transfer)
deriving Repr, Inhabited

/-- A piece of work, how it stands, and the ticket of the caller. -/
structure Operation where
  ticket : Nat
  status : Status
  work : Work
deriving Repr, Inhabited

/-- What a completion reports. -/
inductive Outcome where
  | accepted (fd : Descriptor) (address : Address) (status : Status)
  | connected (status : Status)
  | transferred (bytes : Nat) (buffer : Buffer) (address : Option Address) (flags : Int32)
      (status : Status)
deriving Repr, Inhabited

/-- The status that an outcome reports. -/
def Outcome.status : Outcome → Status
  | accepted _ _ s => s
  | connected s => s
  | transferred _ _ _ _ s => s

/-- What is handed to the caller with the ticket. -/
structure Completion where
  ticket : Nat
  outcome : Outcome
deriving Repr, Inhabited

namespace Operation

def accept (ticket : Nat) (address : Address) : Operation := ⟨ticket, .success, .accept address (-1)⟩

def connect (ticket : Nat) (address : Address) : Operation :=
  ⟨ticket, .success, .connect address false⟩

def receive (ticket : Nat) (buffer : Buffer) (flags : Int32) (address : Option Address) :
    Operation :=
  ⟨ticket, .success, .receive (.fresh buffer flags address)⟩

def send (ticket : Nat) (buffer : Buffer) (flags : Int32) (address : Option Address) : Operation :=
  ⟨ticket, .success, .send (.fresh buffer flags address)⟩

/-- The direction in which the operation waits. -/
def direction (op : Operation) : Direction :=
  match op.work with
  | .accept .. | .connect .. => .connection
  | .receive _ => .receive
  | .send _ => .send

def isAccept (op : Operation) : Bool :=
  match op.work with
  | .accept .. => true
  | _ => false

def isConnect (op : Operation) : Bool :=
  match op.work with
  | .connect .. => true
  | _ => false

/-- The operation with another status. -/
def withStatus (op : Operation) (status : Status) : Operation := { op with status }

/-- The operation with its work carried on and a new status. -/
def became (op : Operation) (work : Work) (status : Status) : Operation := { op with work, status }

@[simp] theorem ticket_withStatus (op : Operation) (s : Status) :
    (op.withStatus s).ticket = op.ticket := rfl

@[simp] theorem direction_withStatus (op : Operation) (s : Status) :
    (op.withStatus s).direction = op.direction := rfl

@[simp] theorem status_withStatus (op : Operation) (s : Status) :
    (op.withStatus s).status = s := rfl

/-- The lane on which the operation completes. -/
def lane (op : Operation) (fd : Descriptor) : Lane := .of fd op.direction

/-- What the caller is given when the operation completes. -/
def completion (op : Operation) : Completion where
  ticket := op.ticket
  outcome :=
    match op.work with
    | .accept address fd => .accepted fd address op.status
    | .connect _ _ => .connected op.status
    | .receive t | .send t =>
      .transferred t.transferred t.buffer t.address t.resultFlags op.status

/-- The operation as it is shown to a programmer. -/
def text (op : Operation) : String :=
  let record (name fields : String) := s!"{name} \x7b {fields}, error: {op.status.name} \x7d"
  let transfer (kind : String) (t : Transfer) :=
    record "Transfer" s!"kind: {kind}, bytes_transferred: {t.transferred}, cursor: {t.cursor.text}"
  match op.work with
  | .accept _ fd => record "Accept" s!"accepted: {fd}"
  | .connect _ started => record "Connect" s!"started: {started}"
  | .receive t => transfer "Receive" t
  | .send t => transfer "Send" t

end Operation
end Proactor
