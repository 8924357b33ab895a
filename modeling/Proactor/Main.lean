import Proactor.Echo.Service
import Proactor.Kernel.Wire
/-! # The echo server as a command

Usage: `proactor [address]`.  System calls are written to standard output and answered on standard
input, in the form of `Wire`; log lines go to standard error.  The server runs until it is told to
stop or its input ends. -/

namespace Proactor.Main

/-- The variables that the command looks at. -/
def variableNames : List String := [
  "SOCKASYNC_LOG_LEVEL", "SOCKASYNC_FLUSH_LOG", "SOCKASYNC_ECHO_ADDR", "SOCKASYNC_DEBUG",
  "SOCKASYNC_COMPLETION_WORKERS", "SOCKASYNC_DISPATCH_THREADS", "SOCKASYNC_MAX_EVENTS",
  "SOCKASYNC_WAIT_TIMEOUT_MS", "SOCKASYNC_PARK_TIMEOUT_MS", "SOCKASYNC_BLOCKING_CLOSE"]

/-- The number of processors that is assumed. -/
def processors : Nat := 4

/-- What the command keeps while it runs. -/
structure Session where
  env : Environment
  settings : IO.Ref Log.Settings
  thread : IO.Ref Thread
  /-- The command was told to stop. -/
  stopping : IO.Ref Bool

/-- Write a line for the reader. -/
def print (s : Session) (line : String) : IO Unit := do
  let err ← IO.getStderr
  err.putStrLn line
  if (← s.settings.get).flush then err.flush

/-- Write a log line if its level is to be written. -/
def write (s : Session) (entry : Log.Entry) : IO Unit := do
  let (shown, settings) := (← s.settings.get).write s.env entry.level
  s.settings.set settings
  if shown then print s (entry.line (← s.thread.get).name)

/-- Have the agent make a system call. -/
def perform (s : Session) (c : SystemCall) : IO c.Reply := do
  let out ← IO.getStdout
  out.putStrLn (Wire.request c)
  out.flush
  let line ← (← IO.getStdin).getLine
  if line.isEmpty then
    s.stopping.set true
    return .error Errno.interrupted.number
  match Wire.read line with
  | .response r => return c.reply r
  | .signal =>
    s.stopping.set true
    return .error Errno.interrupted.number

/-- Answer the requests of the service; its threads take turns on this one. -/
def answer (s : Session) : (r : Host.Call) → IO (Protocol.Answer r)
  | .system c => perform s c
  | .enter thread => s.thread.modifyGet (·, thread)
  | .startWorker _ | .startDispatcher _ => return .ok ()
  | .haltWorkers | .haltDispatchers => return ()
  | .joinWorker _ | .joinDispatcher _ => return true
  | .complete _ => return .finished
  | .release _ => return .ok ()
  | .print line => do
    s.settings.modify (·.print s.env)
    print s line

/-- Run completions and wait for events until told to stop. -/
partial def serve (s : Session) (running : Echo.Service.Running) : IO Unit := do
  let onward (r : Echo.Service.Running) (part : Echo.Service.Run Unit) :=
    (r.onward part).run (answer s) (write s)
  let running ← onward running Echo.Service.work
  if ← s.stopping.get then
    let _ ← onward running Echo.Service.stop
  else
    let r := running.engine.reactor
    let reply ← perform s (.wait r.queue r.maxEvents r.timeout)
    serve s (← onward running (Echo.Service.deliver reply))

/-- Run the echo server; the result is the exit code. -/
def run (args : List String) : IO UInt32 := do
  let values ← variableNames.filterMapM fun name => return (← IO.getEnv name).map (name, some ·)
  let s : Session := ⟨⟨values⟩, ← IO.mkRef {}, ← IO.mkRef .main, ← IO.mkRef false⟩
  match ← (Echo.Service.start args s.env processors).run (answer s) (write s) with
  | .error code => return code
  | .ok running =>
    serve s running
    return 0

end Proactor.Main

/-- The command. -/
def main (args : List String) : IO UInt32 := Proactor.Main.run args
