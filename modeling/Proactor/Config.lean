import Proactor.Duration
import Proactor.Environment
import Proactor.Text.Number
import Proactor.Text.Quoted
/-! # Engine configuration

* **Defaults** (`Config.standard`) and their overrides (`Config.ofEnvironment`).
* **Validity** (`Config.check`).  The first value out of its range is the problem reported. -/

namespace Proactor

/-- The tuning of an engine. -/
structure Config where
  /-- Threads that run completions. -/
  workers : Nat
  /-- Threads that wait for readiness. -/
  dispatchers : Nat
  /-- Events taken in one wait. -/
  maxEvents : Nat
  /-- The longest wait for events. -/
  wait : Duration
  /-- How long an idle worker sleeps. -/
  park : Duration
  /-- New sockets try a lingering close first. -/
  blockingClose : Bool
deriving DecidableEq, Repr, Inhabited

namespace Config

/-- Half the processors, at least two and at most eight. -/
def workersFor (processors : Nat) : Nat := min 8 (max 2 (processors / 2))

/-- `0` stands for a number that suits the machine. -/
def resolveWorkers (processors n : Nat) : Nat := if n = 0 then workersFor processors else n

/-- The configuration without any override. -/
def standard (processors : Nat) : Config where
  workers := resolveWorkers processors 0
  dispatchers := 1
  maxEvents := 256
  wait := .ofMilliseconds 100
  park := .ofMilliseconds 10
  blockingClose := true

/-- The largest count, of 64 bits. -/
def maxCount : Nat := 18446744073709551615

/-- The standard configuration with the overrides of the environment. -/
def ofEnvironment (processors : Nat) (env : Environment) : Config :=
  let count (key : String) (default : Nat) := env.read key (Text.natural? maxCount) default
  { workers := resolveWorkers processors (count "SOCKASYNC_COMPLETION_WORKERS" 0)
    dispatchers := count "SOCKASYNC_DISPATCH_THREADS" 1
    maxEvents := count "SOCKASYNC_MAX_EVENTS" 256
    wait := .ofMilliseconds (count "SOCKASYNC_WAIT_TIMEOUT_MS" 100)
    park := .ofMilliseconds (count "SOCKASYNC_PARK_TIMEOUT_MS" 10)
    blockingClose := env.switch "SOCKASYNC_BLOCKING_CLOSE" true }

/-- What is wrong with a configuration. -/
inductive Problem where
  | noWorkers
  | tooManyWorkers
  | noDispatchers
  | noEvents
  | tooManyEvents
  | noWait
deriving DecidableEq, Repr, Inhabited

/-- The wording of a problem. -/
def Problem.message : Problem → String
  | noWorkers => "completion_workers must be > 0"
  | tooManyWorkers => "completion_workers must be <= 64"
  | noDispatchers => "dispatch_threads must be > 0"
  | noEvents => "max_events must be > 0"
  | tooManyEvents => "max_events must fit in an i32"
  | noWait => "wait_timeout must be > 0"

/-- The programmer's name of a problem. -/
def Problem.name (p : Problem) : String := s!"InvalidValue({Text.quoted p.message})"

/-- The wording of a problem where it stands alone. -/
def Problem.sentence (p : Problem) : String := s!"Invalid config: {p.message}"

/-- The first problem of a configuration, if there is one. -/
def check (c : Config) : Except Problem Unit :=
  if c.workers = 0 then .error .noWorkers
  else if 64 < c.workers then .error .tooManyWorkers
  else if c.dispatchers = 0 then .error .noDispatchers
  else if c.maxEvents = 0 then .error .noEvents
  else if 2147483647 < c.maxEvents then .error .tooManyEvents
  else if c.wait.isZero then .error .noWait
  else .ok ()

/-- The configuration as it is shown to a person. -/
def lines (c : Config) : List String := [
  "sockasync Configuration:",
  s!"  completion_workers:  {c.workers}",
  s!"  dispatch_threads:    {c.dispatchers}",
  s!"  max_events:          {c.maxEvents}",
  s!"  wait_timeout:        {c.wait.text}",
  s!"  park_timeout:        {c.park.text}",
  s!"  blocking_close:      {c.blockingClose}"]

end Config
end Proactor
