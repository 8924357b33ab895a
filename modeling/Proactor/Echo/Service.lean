import Proactor.Echo
import Proactor.Engine.Run
/-! # The echo service

The echo server on an engine, from its command line to its end.

* **Start** (`Service.start`).  The endpoint, the engine, and a listening socket; then the first
  accept is submitted.  What goes wrong ends the process with an exit code.
* **Work** (`Service.work`).  The completions that are due run.
* **Stop** (`Service.stop`).  After a signal the listener is closed and the engine shut down. -/

namespace Proactor.Echo

/-- Who waits for the completion of an operation. -/
inductive Purpose where
  | accept
  | receive (connection : Connection)
  | send (connection : Connection)
deriving DecidableEq, Repr, Inhabited

/-- The task of a completion. -/
def Purpose.task : Purpose → Outcome → Task
  | accept, .accepted fd _ status => .accepted fd status
  | receive c, .transferred count buffer _ _ status =>
    .received c (buffer.joined.data.take count) status
  | send c, .transferred count _ _ _ status => .sent c count status
  | _, _ => .ended

/-- The server and the operations for which it waits. -/
structure Service where
  server : Server := {}
  listener : Handler := 0
  waiting : List (Nat × Purpose) := []
  /-- The ticket of the next operation. -/
  next : Nat := 0
deriving Repr, Inhabited

namespace Service

/-- Wait for the completion of one more operation: its ticket, and the service that waits. -/
def expect (s : Service) (purpose : Purpose) : Nat × Service :=
  (s.next, { s with waiting := s.waiting ++ [(s.next, purpose)], next := s.next + 1 })

/-- The completion of an operation is here: what it was for, and the service that waits no
longer. -/
def take (s : Service) (ticket : Nat) : Option Purpose × Service :=
  ((s.waiting.find? (·.1 == ticket)).map (·.2),
    { s with waiting := s.waiting.filter (·.1 != ticket) })

/-- A part of the run of the service. -/
abbrev Run := StateT Engine (StateT Service (Program Host.Call))

open Engine.Run (host)

/-- Submit an operation on a socket. -/
def submit (owner : Completion → Run Pool.Outcome) (h : Handler) (purpose : Purpose)
    (op : Nat → Operation) : Run Unit := do
  let (ticket, service) := (← getThe Service).expect purpose
  set service
  let _ ← Engine.Run.submit owner h (.throughSocket (op ticket))

/-- Close the socket of a connection. -/
def closeConnection (owner : Completion → Run Pool.Outcome) (c : Connection) :
    Run (Except Status Unit) := do
  let closing ← Engine.Run.close owner c.number
  Engine.Run.forget c.number
  match closing.phase with
  | .ended result => return result
  | _ => return .ok ()

/-- Where the tasks of the server run. -/
def tasks (owner : Completion → Run Pool.Outcome) : Surroundings Run Call Server where
  get := return (← getThe Service).server
  set server := modifyThe Service ({ · with server })
  answer := fun
    | .accept => do
      submit owner (← getThe Service).listener .accept fun ticket => .accept ticket .blank
    | .adopt fd => do
      match ← host (Host.bySystem (Socket.adopt fd)) with
      | .error failure => return .error failure
      | .ok () => return .ok ⟨← Engine.Run.openSocket fd, fd⟩
    | .receive c room =>
      submit owner c.number (.receive c) fun ticket =>
        .receive ticket (.single (.whole (List.replicate room 0))) 0 none
    | .send c bytes =>
      submit owner c.number (.send c) fun ticket => .send ticket (.single (.whole bytes)) 0 none
    | .close c => closeConnection owner c
    | .discard fd => do
      let _ ← host (Host.perform (.close fd))
  write := Engine.Run.write

/-- Run a task. -/
def runTask (owner : Completion → Run Pool.Outcome) (task : Task) : Run Unit := do
  let _ ← Activity.run (tasks owner) Task.next task

/-- Take a completion.  A task may have others run before it goes on, at most `depth` deep. -/
def completed : (depth : Nat) → Completion → Run Pool.Outcome
  | 0, _ => return .finished
  | depth + 1, c => do
    let (purpose, service) := (← getThe Service).take c.ticket
    set service
    match purpose with
    | some purpose => runTask (completed depth) (purpose.task c.outcome)
    | none => pure ()
    return .finished

/-- Take a completion. -/
def owner : Completion → Run Pool.Outcome := completed Activity.patience

/-! ### Start -/

/-- The endpoint on which the server listens unless it is told another. -/
def standardEndpoint : String := "127.0.0.1:7878"

/-- The endpoint as the first argument, else the environment, gives it. -/
def endpointText (args : List String) (env : Environment) : String :=
  (args.head? <|> env.read? "SOCKASYNC_ECHO_ADDR" some).getD standardEndpoint

/-- Tell of an error and end with an exit code. -/
def fail {α : Type} (code : UInt32) (text : String) : Program Host.Call (Except UInt32 α) := do
  .log (.error s!"sockasync-echo: {text}")
  return .error code

/-- Have a socket listen: its local endpoint. -/
def listenOn (fd : Descriptor) (e : Endpoint) : Program SystemCall (Except Status Endpoint) :=
  ExceptT.run do
    ExceptT.mk (Socket.reuseAddress fd)
    ExceptT.mk (Socket.bind fd e)
    ExceptT.mk (Socket.listen fd 1024)
    ExceptT.mk (Socket.localEndpoint fd)

/-- The engine and the listening socket, or an exit code. -/
def prepare (args : List String) (env : Environment) (processors : Nat) :
    Program Host.Call (Except UInt32 (Engine × Descriptor)) := do
  let text := endpointText args env
  match Endpoint.parse? text with
  | none => fail 2 s!"bad address {Text.quoted text}: {Endpoint.parseFailure}"
  | some e =>
    let config := Config.ofEnvironment processors env
    if env.isSet "SOCKASYNC_DEBUG" then config.lines.forM Host.print
    match ← Engine.start config with
    | .error failure => fail 1 s!"engine: {failure.message}"
    | .ok engine =>
      match ← Host.bySystem (Socket.stream e) with
      | .error failure => fail 1 s!"socket: {failure.message}"
      | .ok fd =>
        match ← Host.bySystem (listenOn fd e) with
        | .error status => fail 1 s!"listen on {e.text}: {status.message}"
        | .ok here =>
          Host.print s!"sockasync-echo: listening on {here.text}"
          return .ok (engine, fd)

/-- The service with its engine while it runs. -/
structure Running where
  engine : Engine
  service : Service
deriving Inhabited

/-- Carry a running service on. -/
def Running.onward (r : Running) (part : Run Unit) : Program Host.Call Running := do
  let (((), engine), service) ← (part.run r.engine).run r.service
  return ⟨engine, service⟩

/-- Start the service: it runs, or the process ends with an exit code. -/
def start (args : List String) (env : Environment) (processors : Nat) :
    Program Host.Call (Except UInt32 Running) := do
  match ← prepare args env processors with
  | .error code => return .error code
  | .ok (engine, fd) =>
    let running : Running := ⟨engine, {}⟩
    return .ok (← running.onward do
      let listener ← Engine.Run.openSocket fd
      modifyThe Service ({ · with listener })
      runTask owner .accept)

/-! ### Work and stop -/

/-- Run the completions that are due. -/
def work : Run Unit := Engine.Run.work owner

/-- Take the kernel's answer to a wait for events. -/
def deliver (reply : Except Int (List Event)) : Run Unit := do
  let _ ← Engine.Run.deliver owner reply

/-- Stop after a signal. -/
def stop : Run Unit := do
  modifyThe Service fun s => { s with server.running := false }
  host (Host.print "\nsockasync-echo: shutting down...")
  let closing ← Engine.Run.close owner (← getThe Service).listener
  match closing.phase with
  | .ended (.error status) =>
    Engine.Run.write (.warn s!"sockasync-echo: listener close: {status.message}")
  | _ => pure ()
  Engine.Run.shutdown owner
  host (Host.print (← getThe Service).server.stats.line)
  host (Host.print "sockasync-echo: done.")

end Service
end Proactor.Echo
