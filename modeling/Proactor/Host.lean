import Proactor.Kernel
import Proactor.Operation
import Proactor.Pool
import Proactor.Thread
/-! # The host of an engine

Everything that an engine wants from the process in which it lives: system calls, threads, and
that completions reach those who wait for them. -/

namespace Proactor.Host

/-- A request to the host. -/
inductive Call where
  | system (call : SystemCall)
  /-- From now on the given thread is the one that goes on; the answer is the one before it. -/
  | enter (thread : Thread)
  /-- Start a worker thread; a failure gives the number of its error. -/
  | startWorker (index : Nat)
  /-- Have the worker threads end as soon as they find nothing to do. -/
  | haltWorkers
  /-- Wait until a worker thread has ended; the answer says whether it ended in order. -/
  | joinWorker (index : Nat)
  /-- Start a dispatch thread; a failure gives the number of its error. -/
  | startDispatcher (index : Nat)
  /-- Have the dispatch threads end before their next wait. -/
  | haltDispatchers
  /-- Wait until a dispatch thread has ended; the answer says whether it ended in order. -/
  | joinDispatcher (index : Nat)
  /-- Give a completion to whoever submitted its operation. -/
  | complete (completion : Completion)
  /-- Have whoever made a channel release its descriptor. -/
  | release (fd : Descriptor)
  /-- Write a line for the reader. -/
  | print (line : String)
deriving Inhabited

/-- The answers of the host. -/
def Call.Answer : Call → Type
  | system c => c.Reply
  | enter _ => Thread
  | startWorker _ => Except Int Unit
  | haltWorkers => Unit
  | joinWorker _ => Bool
  | startDispatcher _ => Except Int Unit
  | haltDispatchers => Unit
  | joinDispatcher _ => Bool
  | complete _ => Pool.Outcome
  | release _ => Except Status Unit
  | print _ => Unit

instance : Protocol Call := ⟨Call.Answer⟩

/-- A program of system calls, run by the host. -/
def bySystem {α : Type} (p : Program SystemCall α) : Program Call α :=
  p.interpret fun call => Program.request (Call.system call)

/-- Make a system call; the number of an error is recognised. -/
def perform (call : SystemCall) : Program Call (Except Errno call.Value) :=
  bySystem (SystemCall.perform call)

/-- Let a thread go on: the thread that went on before. -/
def enter (thread : Thread) : Program Call Thread := Program.request (Call.enter thread)

/-- Start a worker thread. -/
def startWorker (index : Nat) : Program Call (Except Int Unit) :=
  Program.request (Call.startWorker index)

/-- Have the worker threads end. -/
def haltWorkers : Program Call Unit := Program.request Call.haltWorkers

/-- Wait until a worker thread has ended: whether it ended in order. -/
def joinWorker (index : Nat) : Program Call Bool := Program.request (Call.joinWorker index)

/-- Start a dispatch thread. -/
def startDispatcher (index : Nat) : Program Call (Except Int Unit) :=
  Program.request (Call.startDispatcher index)

/-- Have the dispatch threads end. -/
def haltDispatchers : Program Call Unit := Program.request Call.haltDispatchers

/-- Wait until a dispatch thread has ended: whether it ended in order. -/
def joinDispatcher (index : Nat) : Program Call Bool := Program.request (Call.joinDispatcher index)

/-- Give a completion to whoever waits for it. -/
def complete (completion : Completion) : Program Call Pool.Outcome :=
  Program.request (Call.complete completion)

/-- Have the maker of a channel release its descriptor. -/
def release (fd : Descriptor) : Program Call (Except Status Unit) :=
  Program.request (Call.release fd)

/-- Write a line for the reader. -/
def print (line : String) : Program Call Unit := Program.request (Call.print line)

end Proactor.Host
