import Proactor.Activity
import Proactor.Kernel
import Proactor.Readiness
/-! # The reactor

The reactor owns an event queue of the kernel and tells each event to the handler of its
descriptor.

* **Handlers** (`Reactor.handlers`).  A table from descriptors to handlers.  A handler does not
  live for as long as it stands in the table; events for one that is gone are dropped.
* **Tokens** (`Reactor.token`).  Every event carries the number of its descriptor, apart from
  those of the counter that ends a wait when the reactor stops.
* **Bits.**  Wishes and reports have the kernel's own bits; bits without a meaning are dropped. -/

namespace Proactor

/-- The number under which the owner of a descriptor takes its events. -/
abbrev Handler := Nat

/-- An event queue and the handlers of the descriptors that it watches. -/
structure Reactor where
  /-- The descriptor of the event queue. -/
  queue : Descriptor
  /-- The descriptor of the counter that ends every wait. -/
  counter : Descriptor
  /-- Events taken in one wait. -/
  maxEvents : Nat
  /-- The longest wait in milliseconds. -/
  timeout : Nat
  handlers : List (Descriptor × Handler) := []
  /-- No wait is begun any more. -/
  stopped : Bool := false
deriving Repr, Inhabited

namespace Reactor

/-- What the activities of a reactor ask for. -/
inductive Call where
  | system (call : SystemCall)
  /-- Have a handler take events; the answer says whether it was still there. -/
  | deliver (handler : Handler) (events : Readiness)
deriving Inhabited

/-- The answers to the requests of a reactor. -/
def Call.Answer : Call → Type
  | system c => c.Reply
  | deliver .. => Bool

instance : Protocol Call := ⟨Call.Answer⟩

/-! ### Handlers -/

/-- The handler of a descriptor. -/
def handler? (r : Reactor) (fd : Descriptor) : Option Handler :=
  (r.handlers.find? (·.1 == fd)).map (·.2)

/-- The reactor without the handler of a descriptor. -/
def forget (r : Reactor) (fd : Descriptor) : Reactor :=
  { r with handlers := r.handlers.filter (·.1 != fd) }

/-- The reactor with the handler of a descriptor replaced. -/
def install (r : Reactor) (fd : Descriptor) (h : Handler) : Reactor :=
  { r with handlers := (fd, h) :: (r.forget fd).handlers }

/-- The reactor with the handler of a descriptor as it was before. -/
def putBack (r : Reactor) (fd : Descriptor) : Option Handler → Reactor
  | some h => r.install fd h
  | none => r.forget fd

/-- The number of descriptors with a handler. -/
def size (r : Reactor) : Nat := r.handlers.length

/-! ### Tokens and bits -/

/-- The token of a descriptor: its number as a word of 64 bits. -/
def token (fd : Descriptor) : UInt64 := UInt64.ofInt fd

/-- The token of the counter. -/
def counterToken : UInt64 := 0xFFFFFFFFFFFFFFFF

/-- The descriptor that a token names: the number in its low 32 bits. -/
def descriptor (token : UInt64) : Descriptor := Int.bmod token.toNat 4294967296

/-- The bits for wishes, as the kernel has them. -/
def wishBits : List (Readiness × UInt32) :=
  [(.readable, 1), (.writable, 4), (.peerClosed, 0x2000), (.edge, 0x80000000)]

/-- The bits for reports, as the kernel has them. -/
def reportBits : List (Readiness × UInt32) :=
  [(.readable, 1), (.writable, 4), (.peerClosed, 0x2000), (.hangUp, 0x10), (.failed, 8)]

/-- What the kernel is asked to report for an interest. -/
def toKernel (interest : Readiness) : UInt32 :=
  wishBits.foldl (fun bits (r, b) => if interest.contains r then bits ||| b else bits) 0

/-- What the kernel's report says. -/
def ofKernel (bits : UInt32) : Readiness :=
  reportBits.foldl (fun events (r, b) => if bits &&& b != 0 then events.insert r else events) .none

end Reactor
end Proactor
