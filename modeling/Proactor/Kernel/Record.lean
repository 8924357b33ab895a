import Proactor.Kernel
/-! # Records of system calls

A call can be written down, and a kernel that is far away can say what came of it.

* **Records** (`SystemCall.name`, `SystemCall.arguments`).  The name of a call and its arguments.
* **Responses** (`Response`).  What came of a call, in the same form for every call, and what it
  means for a given call (`SystemCall.reply`). -/

namespace Proactor

/-- A value in a record. -/
inductive Argument where
  | number (n : Int)
  | token (t : UInt64)
  | numbers (ns : List Int)
  | bytes (b : Bytes)
  | word (w : String)
  | absent
deriving DecidableEq, Repr, Inhabited

namespace SystemCall

/-- The name of a call. -/
def name : SystemCall → String
  | socket .. => "socket"
  | close .. => "close"
  | getFlags .. => "getfl"
  | setFlags .. => "setfl"
  | bind .. => "bind"
  | connect .. => "connect"
  | listen .. => "listen"
  | localAddress .. => "getsockname"
  | accept .. => "accept"
  | receive .. => "recv"
  | send .. => "send"
  | available .. => "avail"
  | pendingError .. => "so_error"
  | setOption .. => "setsockopt"
  | eventQueue .. => "epoll_create"
  | eventCounter .. => "eventfd"
  | watch .. => "epoll_ctl"
  | write .. => "write"
  | wait .. => "epoll_wait"

/-- The arguments that tell an address. -/
def addressFields (a : Address) : List (String × Argument) :=
  [("addr", .bytes a.bytes), ("len", .number a.length)]

/-- The arguments that tell a change of what is watched. -/
def watchFields : Watch → List (String × Argument)
  | .add fd events token =>
    [("op", .word "add"), ("fd", .number fd), ("events", .number events.toNat),
      ("token", .token token)]
  | .modify fd events token =>
    [("op", .word "mod"), ("fd", .number fd), ("events", .number events.toNat),
      ("token", .token token)]
  | .delete fd => [("op", .word "del"), ("fd", .number fd)]

/-- The arguments of a call with their names. -/
def arguments : SystemCall → List (String × Argument)
  | socket domain type protocol =>
    [("domain", .number domain.toInt), ("type", .number type.toInt),
      ("protocol", .number protocol.toInt)]
  | close fd | getFlags fd | available fd => [("fd", .number fd)]
  | setFlags fd flags => [("fd", .number fd), ("flags", .number flags.toInt)]
  | bind fd a | connect fd a => ("fd", .number fd) :: addressFields a
  | listen fd backlog => [("fd", .number fd), ("backlog", .number backlog.toInt)]
  | localAddress fd capacity => [("fd", .number fd), ("cap", .number capacity)]
  | accept fd capacity flags =>
    [("fd", .number fd), ("cap", .number capacity), ("flags", .number flags.toInt)]
  | receive fd room capacity flags =>
    [("fd", .number fd), ("iov", .numbers (room.map Int.ofNat)),
      ("name", capacity.elim .absent fun n => .number n), ("flags", .number flags.toInt)]
  | send fd pieces address flags =>
    [("fd", .number fd), ("iov", .numbers (pieces.map fun p => (p.length : Int))),
      ("name", address.elim .absent fun a => .bytes a.bytes), ("flags", .number flags.toInt)]
  | pendingError fd => [("fd", .number fd), ("level", .number 1), ("opt", .number 4)]
  | setOption fd level option value =>
    [("fd", .number fd), ("level", .number level.toInt), ("opt", .number option.toInt),
      ("value", .numbers (value.map Int32.toInt))]
  | eventQueue flags | eventCounter flags => [("flags", .number flags.toInt)]
  | watch queue change => ("epfd", .number queue) :: watchFields change
  | write fd bytes => [("fd", .number fd), ("data", .bytes bytes)]
  | wait queue max timeout =>
    [("epfd", .number queue), ("max", .number max), ("timeout", .number timeout)]

/-- The bytes that a call hands over apart from its arguments. -/
def payload : SystemCall → Bytes
  | send _ pieces _ _ => pieces.flatten
  | _ => []

/-- The number that a successful call returns. -/
def returned : (c : SystemCall) → c.Value → Int
  | socket .., (fd : Int) => fd
  | getFlags .., (flags : Int32) => flags.toInt
  | accept .., (got : Accepted) => got.fd
  | receive .., (got : Received) => got.bytes.length
  | send .., (n : Nat) => n
  | available .., (n : Int) => n
  | pendingError .., (n : Int) => n
  | eventQueue .., (fd : Int) => fd
  | eventCounter .., (fd : Int) => fd
  | write _ bytes, _ => bytes.length
  | wait .., (events : List Event) => events.length
  | close .., _ | setFlags .., _ | bind .., _ | connect .., _ | listen .., _ => 0
  | localAddress .., _ | setOption .., _ | watch .., _ => 0

end SystemCall

/-- What came of a call, in the form that all calls share. -/
structure Response where
  error : Option Int := none
  returned : Option Int := none
  bytes : Bytes := []
  flags : Int32 := 0
  address : AddressReport := {}
  events : List Event := []
deriving Repr, Inhabited

namespace SystemCall

/-- What a successful call gives.  No more bytes are received than there is room for, and no more
are sent than were handed over. -/
def value (r : Response) : (c : SystemCall) → c.Value
  | socket .. | eventQueue .. | eventCounter .. => (r.returned.getD 0 : Int)
  | getFlags .. => Int32.ofInt (r.returned.getD 0)
  | localAddress .. => r.address
  | accept .. => (⟨r.returned.getD 0, r.address⟩ : Accepted)
  | receive _ room _ _ => (⟨r.bytes.take (sumOf id room), r.flags, r.address⟩ : Received)
  | send _ pieces _ _ =>
    let total := pieces.flatten.length
    (min ((r.returned.map Int.toNat).getD total) total : Nat)
  | available .. | pendingError .. => (r.returned.getD 0 : Int)
  | wait .. => r.events
  | close .. | setFlags .. | bind .. | connect .. | listen .. | setOption .. => ()
  | watch .. | write .. => ()

/-- The reply to a call. -/
def reply (c : SystemCall) (r : Response) : c.Reply :=
  match r.error with
  | some e => .error e
  | none => .ok (c.value r)

end SystemCall
end Proactor
