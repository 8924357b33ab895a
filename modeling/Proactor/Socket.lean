import Proactor.Kernel
import Proactor.SetupFailure
/-! # Making and adjusting sockets

Each of these is a program of system calls on one descriptor, whose first failed call ends it.

* **Making** (`Socket.create`).  A new descriptor never blocks and is not inherited.
* **Adopting** (`Socket.adopt`).  A descriptor made elsewhere is switched to the same mode.
* **Adjusting.**  Address reuse, binding, listening, and the local endpoint. -/

namespace Proactor.Socket

open SystemCall

/-- The flags of a descriptor that have a meaning; the others are never written back. -/
def knownFlags : Int32 := 0x7f7fc3

/-- The flags with the blocking mode chosen. -/
def withMode (flags : Int32) (blocks : Bool) : Int32 :=
  if blocks then flags &&& ~~~ nonBlocking else flags ||| nonBlocking

/-- Choose whether calls on a descriptor may block.  Flags that are right already are not
written. -/
def setMode (fd : Descriptor) (blocks : Bool) : Program SystemCall (Except Errno Unit) := do
  match ← perform (.getFlags fd) with
  | .error e => return .error e
  | .ok (flags : Int32) =>
    let known := flags &&& knownFlags
    if withMode known blocks = known then return .ok ()
    else perform (.setFlags fd (withMode known blocks))

/-- A new socket that never blocks. -/
def create (domain type protocol : Int32) :
    Program SystemCall (Except SetupFailure Descriptor) := do
  match ← perform (.socket domain (type ||| descriptorFlags) protocol) with
  | .ok fd => return .ok fd
  | .error e => return .error (.socket (.ofError e))

/-- A new stream socket for the family of an endpoint. -/
def stream (e : Endpoint) : Program SystemCall (Except SetupFailure Descriptor) :=
  create e.family 1 0

/-- A new datagram socket for the family of an endpoint. -/
def datagram (e : Endpoint) : Program SystemCall (Except SetupFailure Descriptor) :=
  create e.family 2 0

/-- Have an existing descriptor never block. -/
def adopt (fd : Descriptor) : Program SystemCall (Except SetupFailure Unit) := do
  match ← setMode fd false with
  | .ok () => return .ok ()
  | .error e => return .error (.socket (.ofError e))

/-- Make a call whose failure is told as a status. -/
def attempt (call : SystemCall) : Program SystemCall (Except Status call.Value) := do
  return (← perform call).mapError Status.ofError

/-- Allow binding to an address that was in use a moment ago. -/
def reuseAddress (fd : Descriptor) : Program SystemCall (Except Status Unit) :=
  attempt (.setOption fd 1 2 [1])

/-- Bind to an endpoint. -/
def bind (fd : Descriptor) (e : Endpoint) : Program SystemCall (Except Status Unit) :=
  attempt (.bind fd (.ofEndpoint e))

/-- Wait for connections, of which `backlog` may queue up. -/
def listen (fd : Descriptor) (backlog : Int32) : Program SystemCall (Except Status Unit) :=
  attempt (.listen fd backlog)

/-- The endpoint that the socket is bound to, if it is an internet endpoint. -/
def localEndpoint (fd : Descriptor) : Program SystemCall (Except Status Endpoint) := do
  match ← attempt (.localAddress fd Address.capacity) with
  | .error s => return .error s
  | .ok report =>
    match (Address.blank.reported report).endpoint? with
    | some e => return .ok e
    | none => return .error .addressFamilyNotSupported

end Proactor.Socket
