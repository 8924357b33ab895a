import Mathlib.Data.List.Forall2
import Proactor.Proofs.Interleaving
import Proactor.Reactor.Loop
import Proactor.Reactor.Registration
/-! # Interleavings on a reactor

Dispatch threads, registrations and unregistrations work on one reactor at a time.  Any of them may
take the next step, new calls may begin and descriptors may be closed at any moment.

* **Kernel** (`Watched`).  What the kernel watches: one entry for each descriptor, made by one
  registration and dropped by an unregistration, or when the descriptor is closed.  A number that
  was closed can be registered again; that makes another entry.
* **Answers** (`Watched.Answers`).  The kernel may refuse every request.  A wait gives events of
  descriptors that are watched at that moment, as many as fit.
* **Parties** (`Party`).  A dispatch thread is kept together with the entries that raised the events
  it carries.
* **Runs** (`Run`).  What happened, newest first, and the system that was reached.  What happened is
  kept with the system before it. -/

namespace Proactor.Reactor

/-! ### The kernel's side -/

/-- Descriptors that the kernel gives are not negative and fit into 31 bits. -/
def IsDescriptor (fd : Int) : Prop := 0 ≤ fd ∧ fd < 2147483648

/-- A descriptor that the kernel watches. -/
structure Entry where
  /-- The number of entries that were made before it. -/
  number : Nat
  fd : Descriptor
  /-- What its events carry. -/
  token : UInt64

/-- The kernel's side of an event queue, apart from the counter that ends waits. -/
structure Watched where
  entries : List Entry := []
  /-- The number of entries that were made so far. -/
  made : Nat := 0

namespace Watched

/-- With a new entry. -/
def add (k : Watched) (fd : Descriptor) (token : UInt64) : Watched :=
  ⟨⟨k.made, fd, token⟩ :: k.entries, k.made + 1⟩

/-- With another token for the events of a descriptor. -/
def retoken (k : Watched) (fd : Descriptor) (token : UInt64) : Watched :=
  { k with entries := k.entries.map fun g => if g.fd = fd then { g with token } else g }

/-- Without a descriptor. -/
def drop (k : Watched) (fd : Descriptor) : Watched :=
  { k with entries := k.entries.filter (·.fd ≠ fd) }

/-- The descriptor is watched. -/
def Holds (k : Watched) (fd : Descriptor) : Prop := ∃ g ∈ k.entries, g.fd = fd

/-- What becomes of the kernel's side when a request has this answer. -/
inductive Answers (k : Watched) : Option (Exchange Call) → Watched → Prop
  | nothing : Answers k none k
  | refused (call : SystemCall) (error : Int) : Answers k (some ⟨.system call, .error error⟩) k
  | added {queue fd : Descriptor} {bits : UInt32} {token : UInt64} (free : ¬ k.Holds fd)
      (isDescriptor : IsDescriptor fd) :
      Answers k (some ⟨.system (.watch queue (.add fd bits token)), .ok ()⟩) (k.add fd token)
  | modified {queue fd : Descriptor} {bits : UInt32} {token : UInt64} (held : k.Holds fd) :
      Answers k (some ⟨.system (.watch queue (.modify fd bits token)), .ok ()⟩)
        (k.retoken fd token)
  | deleted {queue fd : Descriptor} (held : k.Holds fd) :
      Answers k (some ⟨.system (.watch queue (.delete fd)), .ok ()⟩) (k.drop fd)

/-- An event may come from an entry, or from the counter. -/
def Raises (k : Watched) : Option Entry → Proactor.Event → Prop
  | some g, e => g ∈ k.entries ∧ e.token = g.token
  | none, e => e.token = counterToken

end Watched

/-! ### Parties -/

/-- A dispatch thread. -/
structure Dispatcher where
  loop : Loop := .check
  /-- What raised the event that a handler takes. -/
  current : Option Entry := none
  /-- What raised the events for which it has not looked up a handler yet. -/
  origins : List (Option Entry) := []

/-- A dispatch thread that goes on with the events that it has. -/
def Dispatcher.goOn (d : Dispatcher) (loop : Loop) : Dispatcher :=
  match d.loop with
  | .batch _ => ⟨loop, d.origins.head?.join, d.origins.tail⟩
  | _ => ⟨loop, none, d.origins⟩

/-- A dispatch thread, or a call in progress. -/
inductive Party where
  | dispatcher (d : Dispatcher)
  | registering (c : Registering)
  | unregistering (c : Unregistering)

/-- A call that begins. -/
inductive Party.Begins : Party → Prop
  | registering (fd : Descriptor) (interest : Readiness) (h : Handler) :
      Begins (.registering (.enter fd interest h))
  | unregistering (fd : Descriptor) (remaining : Readiness) :
      Begins (.unregistering (.enter fd remaining))

/-- The events that a wait gave. -/
def fetched? : Option (Exchange Call) → Option (List Proactor.Event)
  | some ⟨.system (.wait _ _ _), .ok events⟩ => some events
  | _ => none

/-- The handler that took events; one that is gone does not. -/
def told? : Option (Exchange Call) → Option Handler
  | some ⟨.deliver h _, (true : Bool)⟩ => some h
  | _ => none

/-- What a party may do, in the states `r` of the reactor and `k` of the kernel: the request with
its answer, if there was one, both states and the party afterwards. -/
inductive Party.Acts (r : Reactor) (k : Watched) :
    Party → Option (Exchange Call) → Reactor → Watched → Party → Prop
  | fetch {d : Dispatcher} {x : Option (Exchange Call)} {turn : Turn Reactor Loop}
      {events : List Proactor.Event} {origins : List (Option Entry)}
      (yields : (d.loop.next r).Yields r x turn) (fetched : fetched? x = some events)
      (fits : events.length ≤ r.maxEvents) (raised : List.Forall₂ k.Raises origins events) :
      Acts r k (.dispatcher d) x turn.state k (.dispatcher ⟨turn.phase, none, origins⟩)
  | dispatch {d : Dispatcher} {x : Option (Exchange Call)} {turn : Turn Reactor Loop}
      (yields : (d.loop.next r).Yields r x turn) (fetched : fetched? x = none) :
      Acts r k (.dispatcher d) x turn.state k (.dispatcher (d.goOn turn.phase))
  | register {c : Registering} {x : Option (Exchange Call)} {turn : Turn Reactor Registering}
      {k' : Watched} (yields : (c.next r).Yields r x turn) (answers : k.Answers x k') :
      Acts r k (.registering c) x turn.state k' (.registering turn.phase)
  | unregister {c : Unregistering} {x : Option (Exchange Call)}
      {turn : Turn Reactor Unregistering} {k' : Watched}
      (yields : (c.next r).Yields r x turn) (answers : k.Answers x k') :
      Acts r k (.unregistering c) x turn.state k' (.unregistering turn.phase)

/-- A reactor, the kernel's side of it and everyone who works on it. -/
structure System where
  reactor : Reactor
  watched : Watched
  parties : List Party

/-- A reactor with `n` dispatch threads before its first registration. -/
def System.initial (r : Reactor) (n : Nat) : System where
  reactor := { r with handlers := [], stopped := false }
  watched := {}
  parties := List.replicate n (.dispatcher {})

/-! ### Runs -/

/-- What happened, with the system before it. -/
inductive Occurrence where
  /-- A call began. -/
  | joined (s : System) (q : Party)
  /-- The party with the number `i` took a step. -/
  | acted (s : System) (i : Nat) (q : Party) (exchange : Option (Exchange Call)) (q' : Party)
  /-- A descriptor was closed. -/
  | closed (s : System) (fd : Descriptor)
  /-- The reactor was stopped. -/
  | stopped (s : System)

/-- The system in which it happened. -/
def Occurrence.system : Occurrence → System
  | joined s _ | acted s _ _ _ _ | closed s _ | stopped s => s

/-- What happened on a reactor with `n` dispatch threads, newest first, and the system that was
reached. -/
inductive Run (r : Reactor) (n : Nat) : List Occurrence → System → Prop
  | start : Run r n [] (.initial r n)
  | join {t : List Occurrence} {s : System} (run : Run r n t s) {q : Party} (begins : q.Begins) :
      Run r n (.joined s q :: t) { s with parties := s.parties ++ [q] }
  | act {t : List Occurrence} {s : System} (run : Run r n t s) {i : Nat} {q q' : Party}
      (party : s.parties[i]? = some q) {x : Option (Exchange Call)} {r' : Reactor} {k' : Watched}
      (acts : q.Acts s.reactor s.watched x r' k' q') :
      Run r n (.acted s i q x q' :: t) ⟨r', k', s.parties.set i q'⟩
  | close {t : List Occurrence} {s : System} (run : Run r n t s) (fd : Descriptor) :
      Run r n (.closed s fd :: t) { s with watched := s.watched.drop fd }
  | stop {t : List Occurrence} {s : System} (run : Run r n t s) :
      Run r n (.stopped s :: t) { s with reactor := { s.reactor with stopped := true } }

section moments
variable {r : Reactor} {n : Nat} {newer older : List Occurrence} {o : Occurrence} {s : System}

/-- A run up to some moment is a run. -/
theorem Run.earlier (run : Run r n (newer ++ older) s) : ∃ s', Run r n older s' := by
  induction newer generalizing s with
  | nil => exact ⟨s, run⟩
  | cons e rest ih =>
      cases run with
      | join run _ => exact ih run
      | act run _ _ => exact ih run
      | close run _ => exact ih run
      | stop run => exact ih run

theorem Run.tail (run : Run r n (o :: older) s) : Run r n older o.system := by
  cases run with
  | join run _ => exact run
  | act run _ _ => exact run
  | close run _ => exact run
  | stop run => exact run

/-- What had happened before something led to the system in which it happened. -/
theorem Run.before (run : Run r n (newer ++ o :: older) s) : Run r n older o.system := by
  obtain ⟨s', run⟩ := run.earlier
  exact run.tail

end moments

/-! ### What happens to registrations and events -/

namespace Occurrence

/-- A registration puts a handler into the table. -/
def Installs (fd : Descriptor) (h : Handler) (o : Occurrence) : Prop :=
  ∃ s i interest x q', o = acted s i (.registering (.enter fd interest h)) x q'

/-- An entry is dropped, because it was unregistered or its descriptor was closed. -/
def Forgets (g : Entry) : Occurrence → Prop
  | acted s _ (.unregistering (.delete fd)) x _ => fd = g.fd ∧ g ∈ s.watched.entries ∧
      x = some ⟨.system (.watch s.reactor.queue (.delete fd)), .ok ()⟩
  | closed s fd => fd = g.fd ∧ g ∈ s.watched.entries
  | _ => False

/-- The dispatch thread with the number `i` has a handler take an event that an entry raised. -/
def Delivers (i : Nat) (g : Entry) (h : Handler) (o : Occurrence) : Prop :=
  ∃ s d x q', o = acted s i (.dispatcher d) x q' ∧ told? x = some h ∧ d.current = some g

end Occurrence

/-- The dispatch thread with the number `i` carries an event that an entry raised, and has not
looked up a handler for it. -/
def System.Carries (s : System) (i : Nat) (g : Entry) : Prop :=
  ∃ d, s.parties[i]? = some (.dispatcher d) ∧ some g ∈ d.origins

end Proactor.Reactor
