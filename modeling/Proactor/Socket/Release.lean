import Proactor.Socket
/-! # Releasing a descriptor

A release closes a descriptor without ever stalling the thread that releases it.

* **Lingering.**  The descriptor is closed as it is.  If that would block, it waits for unsent
  bytes: it is switched to blocking mode and closed again, which waits for as long as the owner
  asked.
* **Abortive.**  Where lingering is not wanted or the switch fails, a linger time of zero is set,
  and the close resets the connection.  A descriptor that knows no linger time is closed all the
  same.  After any other failure the descriptor stays open, since a close might block. -/

namespace Proactor.Release

/-- What a release asks of a descriptor. -/
inductive Call where
  | close (fd : Descriptor)
  /-- Have calls on the descriptor block. -/
  | makeBlocking (fd : Descriptor)
  /-- Have the next close reset the connection. -/
  | resetOnClose (fd : Descriptor)
deriving DecidableEq, Repr, Inhabited

instance : Protocol Call := ⟨fun _ => Except Errno Unit⟩

/-- Ask for one thing. -/
def ask (call : Call) : Program Call (Except Errno Unit) := .request call

/-- The last close. -/
def closeAtLast (fd : Descriptor) : Program Call (Except Status Unit) := do
  return (← ask (.close fd)).mapError Status.ofError

/-- A descriptor that knows no linger time does not linger. -/
def isTolerated (e : Errno) : Bool := e = .invalid ∨ e = .noOption

/-- Close with a reset. -/
def abortively (fd : Descriptor) : Program Call (Except Status Unit) := do
  match ← ask (.resetOnClose fd) with
  | .ok () => closeAtLast fd
  | .error e =>
    if isTolerated e then closeAtLast fd
    else
      .log (.warn s!"fd {fd}: zero linger failed ({e.text}), leaving descriptor open")
      return .error (.ofError e)

/-- Close after the kernel said that it would block. -/
def afterRefusal (fd : Descriptor) : Program Call (Except Status Unit) := do
  .log (.debug s!"fd {fd}: close would block, retrying in blocking mode")
  match ← ask (.makeBlocking fd) with
  | .ok () => closeAtLast fd
  | .error e =>
    .log (.debug s!"fd {fd}: cannot switch to blocking ({e.text}), closing abortively")
    abortively fd

/-- Release a descriptor, with a lingering close first if that is wanted. -/
def release (fd : Descriptor) (lingering : Bool) : Program Call (Except Status Unit) := do
  if lingering then
    match ← ask (.close fd) with
    | .ok () => return .ok ()
    | .error e => if e = .again then afterRefusal fd else return .error (.ofError e)
  else abortively fd

/-- How the kernel serves a release. -/
def ofKernel : Call → Program SystemCall (Except Errno Unit)
  | .close fd => SystemCall.perform (.close fd)
  | .makeBlocking fd => Socket.setMode fd true
  | .resetOnClose fd => SystemCall.perform (.setOption fd 1 13 [1, 0])

/-- Release a descriptor by system calls. -/
def bySystemCalls (fd : Descriptor) (lingering : Bool) :
    Program SystemCall (Except Status Unit) :=
  (release fd lingering).interpret ofKernel

end Proactor.Release
