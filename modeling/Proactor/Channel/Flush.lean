import Proactor.Channel
/-! # Completing what a stop handed out

Operations that a stopped queue handed out are completed one by one with `shutdown`; then those
that were parked meanwhile, and so on until none is left.  Only then do the queues stop draining,
so that a newer submission never completes before an older one. -/

namespace Proactor.Channel

/-- Where the completion of operations that were handed out stands. -/
inductive Flush where
  | complete (ops : List Operation)
  | settle
  | ended
deriving Inhabited

namespace Flush

/-- The next step. -/
def next (c : Channel) : Flush → Next Call Channel Flush
  | complete [] => .step ⟨c, settle, []⟩
  | complete (op :: rest) =>
    .ask (c.complete (op.withStatus .shutdown)) fun _ c => ⟨c, complete rest, []⟩
  | settle =>
    let (c, parked) := c.settle
    .step ⟨c, if parked.isEmpty then ended else complete parked, []⟩
  | ended => .ended

/-- The operations that are still to be completed. -/
def held : Flush → List Operation
  | complete ops => ops
  | settle | ended => []

end Flush
end Proactor.Channel
