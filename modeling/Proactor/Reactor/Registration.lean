import Proactor.Reactor
/-! # Registration with the reactor

* **Register.**  The handler is put into the table first, so that an event that comes at once finds
  it.  A descriptor that is watched already is asked for anew, which also has it reported again if
  it is ready now.  If that fails, the table is as it was before.
* **Unregister.**  If no readiness remains to be reported, the handler leaves the table first and
  then the kernel forgets the descriptor.  Otherwise the kernel reports what remains. -/

namespace Proactor.Reactor

/-- Where a registration stands. -/
inductive Registering where
  | enter (fd : Descriptor) (interest : Readiness) (handler : Handler)
  /-- It has the kernel watch the descriptor. -/
  | add (fd : Descriptor) (interest : Readiness) (previous : Option Handler)
  /-- The kernel watches the descriptor already; it asks anew. -/
  | modify (fd : Descriptor) (interest : Readiness) (previous : Option Handler)
  | ended (result : Except Errno Unit)
deriving Inhabited

namespace Registering

/-- The last step of a registration. -/
def finish (fd : Descriptor) (interest : Readiness) (r : Reactor) : Turn Reactor Registering :=
  ⟨r, ended (.ok ()), [.trace s!"fd {fd}: registered {interest.text}"]⟩

/-- A registration that failed leaves the table as it was. -/
def undo (fd : Descriptor) (previous : Option Handler) (e : Errno) (r : Reactor) :
    Turn Reactor Registering :=
  ⟨r.putBack fd previous, ended (.error e), []⟩

/-- After the kernel was asked to watch the descriptor. -/
def afterAdd (fd : Descriptor) (interest : Readiness) (previous : Option Handler)
    (reply : Except Int Unit) (r : Reactor) : Turn Reactor Registering :=
  match reply.mapError Errno.ofRaw with
  | .ok () => finish fd interest r
  | .error e =>
    if e = .present then ⟨r, modify fd interest previous, []⟩ else undo fd previous e r

/-- After the kernel was asked anew. -/
def afterModify (fd : Descriptor) (interest : Readiness) (previous : Option Handler)
    (reply : Except Int Unit) (r : Reactor) : Turn Reactor Registering :=
  match reply.mapError Errno.ofRaw with
  | .ok () => finish fd interest r
  | .error e => undo fd previous e r

/-- The next step of a registration. -/
def next (r : Reactor) : Registering → Next Call Reactor Registering
  | enter fd interest handler =>
    .step ⟨r.install fd handler, add fd interest (r.handler? fd), []⟩
  | add fd interest previous =>
    .ask (.system (.watch r.queue (.add fd (toKernel interest) (token fd)))) fun reply r =>
      afterAdd fd interest previous reply r
  | modify fd interest previous =>
    .ask (.system (.watch r.queue (.modify fd (toKernel interest) (token fd)))) fun reply r =>
      afterModify fd interest previous reply r
  | ended _ => .ended

/-- The result of a registration that has ended. -/
def result : Registering → Except Errno Unit
  | ended result => result
  | _ => .error .unknown

end Registering

/-- Where the narrowing of an interest stands. -/
inductive Unregistering where
  | enter (fd : Descriptor) (remaining : Readiness)
  /-- It has the kernel forget the descriptor. -/
  | delete (fd : Descriptor)
  /-- It has the kernel report what remains. -/
  | narrow (fd : Descriptor) (remaining : Readiness)
  | ended (result : Except Errno Unit)
deriving Inhabited

namespace Unregistering

/-- After the kernel was asked; `line` tells of its consent. -/
def finish (line : String) (reply : Except Int Unit) (r : Reactor) : Turn Reactor Unregistering :=
  match reply.mapError Errno.ofRaw with
  | .ok () => ⟨r, ended (.ok ()), [.trace line]⟩
  | .error e => ⟨r, ended (.error e), []⟩

/-- The next step. -/
def next (r : Reactor) : Unregistering → Next Call Reactor Unregistering
  | enter fd remaining =>
    if remaining.wanted.isEmpty then .step ⟨r.forget fd, delete fd, []⟩
    else .step ⟨r, narrow fd remaining, []⟩
  | delete fd =>
    .ask (.system (.watch r.queue (.delete fd))) fun reply r =>
      finish s!"fd {fd}: unregistered" reply r
  | narrow fd remaining =>
    .ask (.system (.watch r.queue (.modify fd (toKernel remaining) (token fd)))) fun reply r =>
      finish s!"fd {fd}: interest narrowed to {remaining.text}" reply r
  | ended _ => .ended

/-- The result once it has ended. -/
def result : Unregistering → Except Errno Unit
  | ended result => result
  | _ => .error .unknown

end Unregistering
end Proactor.Reactor
