/-! # Threads

An engine runs on the threads of its users, on worker threads that run completions, and on
dispatch threads that wait for readiness. -/

namespace Proactor

/-- A thread of the process. -/
inductive Thread where
  | main
  | worker (index : Nat)
  | dispatcher (index : Nat)
deriving DecidableEq, Repr, Inhabited

/-- The name of a thread, as log lines show it. -/
def Thread.name : Thread → String
  | main => "main"
  | worker i => s!"sockasync-cb-{i}"
  | dispatcher i => s!"sockasync-epoll-{i}"

end Proactor
