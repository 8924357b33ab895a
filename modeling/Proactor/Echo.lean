import Proactor.Activity
import Proactor.Buffer
import Proactor.Lane
import Proactor.SetupFailure
/-! # The echo server

The server accepts connections and sends back what it receives.  Its code runs in completions: each
completion submits the operation that follows it.

* **Accepting.**  One accept waits at any time; accepting ends when the listener is shut down.
* **Connections.**  A connection receives, sends what it received, and receives again.  It is
  closed at the end of input, after an error, and when the server no longer runs.
* **Tasks** (`Echo.Task`).  The code of a completion, by the place where it stands. -/

namespace Proactor.Echo

/-- An accepted connection: its number, which no other connection has, and its descriptor, which
a later one may have again. -/
structure Connection where
  number : Nat
  fd : Descriptor
deriving DecidableEq, Repr, Inhabited

/-- What the server has done. -/
structure Stats where
  accepts : Nat := 0
  closes : Nat := 0
  bytesIn : Nat := 0
  bytesOut : Nat := 0
  errors : Nat := 0
deriving DecidableEq, Repr, Inhabited

/-- The counts as they are shown to a person. -/
def Stats.line (s : Stats) : String :=
  s!"sockasync-echo: accepts={s.accepts} closes={s.closes} " ++
    s!"in={s.bytesIn}B out={s.bytesOut}B errors={s.errors}"

/-- The state that all completions share. -/
structure Server where
  /-- Cleared once by a signal. -/
  running : Bool := true
  stats : Stats := {}
deriving DecidableEq, Repr, Inhabited

/-- What a task asks for.  Submissions only begin an operation; a later task gets its result. -/
inductive Call where
  | accept
  /-- Make a connection of an accepted descriptor. -/
  | adopt (fd : Descriptor)
  /-- Receive at most `room` bytes. -/
  | receive (connection : Connection) (room : Nat)
  | send (connection : Connection) (bytes : Bytes)
  | close (connection : Connection)
  /-- Close a descriptor that is no connection. -/
  | discard (fd : Descriptor)
deriving Repr, Inhabited

/-- The answers to the requests of a task. -/
def Call.Answer : Call → Type
  | accept => Unit
  | adopt _ => Except SetupFailure Connection
  | receive .. => Unit
  | send .. => Unit
  | close _ => Except Status Unit
  | discard _ => Unit

instance : Protocol Call := ⟨Call.Answer⟩

/-- The largest number of bytes received at a time. -/
def room : Nat := 4096

/-- Where a task stands.  With `more` an accept follows. -/
inductive Task where
  | accept
  | accepted (fd : Descriptor) (status : Status)
  | adopt (fd : Descriptor)
  | discard (fd : Descriptor)
  | receive (connection : Connection) (more : Bool)
  | received (connection : Connection) (bytes : Bytes) (status : Status)
  | send (connection : Connection) (bytes : Bytes)
  | sent (connection : Connection) (count : Nat) (status : Status)
  | finish (connection : Connection) (error : Option Status) (more : Bool)
  | close (connection : Connection) (more : Bool)
  | ended
deriving DecidableEq, Repr, Inhabited

namespace Server

/-- Count an error and tell of it. -/
def failed (s : Server) (next : Task) (what : String) (why : String) : Turn Server Task :=
  ⟨{ s with stats.errors := s.stats.errors + 1 }, next,
    [.warn s!"sockasync-echo: {what}: {why}"]⟩

end Server

namespace Task

/-- What follows when a connection needs nothing more. -/
def after (more : Bool) : Task := if more then accept else ended

/-- After an accepted descriptor was made a connection or not. -/
def afterAdopt (fd : Descriptor) (s : Server) :
    Except SetupFailure Connection → Turn Server Task
  | .ok c => ⟨{ s with stats.accepts := s.stats.accepts + 1 }, receive c true, []⟩
  | .error failure => s.failed (discard fd) s!"fd {fd}" failure.message

/-- After a connection was closed. -/
def afterClose (more : Bool) (s : Server) : Except Status Unit → Turn Server Task
  | .ok () => ⟨{ s with stats.closes := s.stats.closes + 1 }, after more, []⟩
  | .error _ => ⟨s, after more, []⟩

/-- The next step of a task. -/
def next (s : Server) : Task → Next Call Server Task
  | accept => .ask .accept fun _ s => ⟨s, ended, []⟩
  | accepted fd status =>
    if status.isSuccess then .step ⟨s, adopt fd, []⟩
    else if status = .shutdown then .step ⟨s, ended, []⟩
    else .step (s.failed accept "accept" status.message)
  | adopt fd => .ask (.adopt fd) fun result s => afterAdopt fd s result
  | discard fd => .ask (.discard fd) fun _ s => ⟨s, accept, []⟩
  | receive c more =>
    if s.running then .ask (.receive c room) fun _ s => ⟨s, after more, []⟩
    else .step ⟨s, finish c none more, []⟩
  | received c bytes status =>
    if ¬ status.isSuccess then .step ⟨s, finish c (some status) false, []⟩
    else if bytes.isEmpty ∨ ¬ s.running then .step ⟨s, finish c none false, []⟩
    else
      .step ⟨{ s with stats.bytesIn := s.stats.bytesIn + bytes.length }, send c bytes, []⟩
  | send c bytes => .ask (.send c bytes) fun _ s => ⟨s, ended, []⟩
  | sent c count status =>
    if ¬ status.isSuccess then .step ⟨s, finish c (some status) false, []⟩
    else .step ⟨{ s with stats.bytesOut := s.stats.bytesOut + count }, receive c false, []⟩
  | finish c error more =>
    match error with
    | some e =>
      if e = .shutdown then .step ⟨s, close c more, []⟩
      else .step (s.failed (close c more) s!"fd {c.fd}" e.message)
    | none => .step ⟨s, close c more, []⟩
  | close c more => .ask (.close c) fun result s => afterClose more s result
  | ended => .ended

end Task
end Proactor.Echo
