import Proactor.Config
import Proactor.Status
/-! # Failures while something is set up

Engines, reactors, pools and channels can fail to come into being.  A channel that cannot be set
up completes the operation that needed it with `SetupFailure.status`. -/

namespace Proactor

/-- Why something could not be set up. -/
inductive SetupFailure where
  /-- The reactor's own descriptor could not be made. -/
  | reactor (error : Errno)
  /-- The reactor refused a descriptor. -/
  | register (error : Errno)
  /-- A thread could not be started. -/
  | spawn
  /-- A socket could not be made or adjusted. -/
  | socket (status : Status)
  | config (problem : Config.Problem)
  /-- Any other failed system call. -/
  | system (error : Errno)
deriving DecidableEq, Repr, Inhabited

namespace SetupFailure

/-- The programmer's name of a failure. -/
def name : SetupFailure → String
  | reactor e => s!"ReactorSetup({e.number})"
  | register e => s!"Register({e.number})"
  | spawn => "SpawnFailed"
  | socket s => s!"Socket({s.name})"
  | config p => s!"InvalidConfig({Text.quoted p.message})"
  | system e => s!"Os({e.number})"

/-- The wording of a failure. -/
def message : SetupFailure → String
  | reactor e => s!"reactor setup: errno {e.number}"
  | register e => s!"reactor register: errno {e.number}"
  | spawn => "failed to spawn thread"
  | socket s => s!"socket: {s.message}"
  | config p => s!"invalid config: {p.message}"
  | system e => s!"OS error: errno {e.number}"

/-- What an operation completes with when its channel could not be set up. -/
def status : SetupFailure → Status
  | reactor e | register e | system e => .ofError e
  | socket s => s
  | config _ => .invalidArgument
  | spawn => .noBufferSpace

end SetupFailure
end Proactor
