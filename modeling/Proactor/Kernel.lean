import Proactor.Endpoint.Address
import Proactor.Lane
import Proactor.Program
/-! # System calls

Everything that the library wants from the kernel, with the type of what a successful call gives.
A failed call gives the number of its error, as the kernel reports it. -/

namespace Proactor

/-- A change to the set of descriptors that an event queue watches.  Events carry the token. -/
inductive Watch where
  | add (fd : Descriptor) (events : UInt32) (token : UInt64)
  | modify (fd : Descriptor) (events : UInt32) (token : UInt64)
  | delete (fd : Descriptor)
deriving DecidableEq, Repr, Inhabited

/-- A readiness event as the kernel reports it. -/
structure Event where
  token : UInt64
  bits : UInt32
deriving DecidableEq, Repr, Inhabited

/-- An accepted connection. -/
structure Accepted where
  fd : Descriptor
  address : AddressReport
deriving DecidableEq, Repr, Inhabited

/-- What a receive got. -/
structure Received where
  bytes : Bytes
  flags : Int32
  address : AddressReport
deriving DecidableEq, Repr, Inhabited

/-- A request to the kernel. -/
inductive SystemCall where
  | socket (domain type : Int32) (protocol : Int32)
  | close (fd : Descriptor)
  | getFlags (fd : Descriptor)
  | setFlags (fd : Descriptor) (flags : Int32)
  | bind (fd : Descriptor) (address : Address)
  | connect (fd : Descriptor) (address : Address)
  | listen (fd : Descriptor) (backlog : Int32)
  /-- The local address, into a block of the given capacity. -/
  | localAddress (fd : Descriptor) (capacity : Nat)
  | accept (fd : Descriptor) (capacity : Nat) (flags : Int32)
  /-- Receive into pieces of the given sizes; the sender's address is wanted if there is a block
  of some capacity for it. -/
  | receive (fd : Descriptor) (room : List Nat) (capacity : Option Nat) (flags : Int32)
  /-- Send pieces, to an address if there is one. -/
  | send (fd : Descriptor) (pieces : List Bytes) (address : Option Address) (flags : Int32)
  /-- The number of bytes that can be read. -/
  | available (fd : Descriptor)
  /-- Fetch and clear the pending error of a socket. -/
  | pendingError (fd : Descriptor)
  | setOption (fd : Descriptor) (level option : Int32) (value : List Int32)
  /-- A new event queue. -/
  | eventQueue (flags : Int32)
  /-- A new counter whose descriptor is readable when it is not zero. -/
  | eventCounter (flags : Int32)
  | watch (queue : Descriptor) (change : Watch)
  | write (fd : Descriptor) (bytes : Bytes)
  /-- Wait for at most `max` events, for at most `timeout` milliseconds. -/
  | wait (queue : Descriptor) (max timeout : Nat)
deriving DecidableEq, Repr, Inhabited

namespace SystemCall

/-- What a successful call gives. -/
def Value : SystemCall → Type
  | socket .. => Descriptor
  | close .. => Unit
  | getFlags .. => Int32
  | setFlags .. => Unit
  | bind .. => Unit
  | connect .. => Unit
  | listen .. => Unit
  | localAddress .. => AddressReport
  | accept .. => Accepted
  | receive .. => Received
  | send .. => Nat
  | available .. => Int
  | pendingError .. => Int
  | setOption .. => Unit
  | eventQueue .. => Descriptor
  | eventCounter .. => Descriptor
  | watch .. => Unit
  | write .. => Unit
  | wait .. => List Event

/-- The answer to a call: its value, or the number of the error. -/
abbrev Reply (call : SystemCall) : Type := Except Int call.Value

instance : Protocol SystemCall := ⟨Reply⟩

/-- Make a system call; the number of an error is recognised. -/
def perform (call : SystemCall) : Program SystemCall (Except Errno call.Value) :=
  .ask call fun reply => .done (reply.mapError Errno.ofRaw)

/-- The flag of a descriptor that never blocks. -/
def nonBlocking : Int32 := 2048
/-- Descriptors made here never block and are not inherited. -/
def descriptorFlags : Int32 := 526336
/-- A send to a closed peer raises no signal. -/
def noSignal : Int32 := 16384

end SystemCall
end Proactor
