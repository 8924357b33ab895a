import Proactor.Program
/-! # Activities

Several threads work on one channel, pool or reactor at a time.  An *activity* is one of them: a
call in progress.  Its place in its code is a value of a type of phases, so that one can say where
every thread stands.

* **Steps** (`Next`).  From the shared state and its phase an activity either has ended, waits for
  a lock, takes an atomic step, or makes a request.  What a step does between two locks or calls
  is atomic.
* **Requests.**  The shared state may change between a request and its answer, except for what
  is behind a lock that the activity holds meanwhile; that is as the activity left it.
* **Runs** (`Activity.run`).  Where the requests can be answered, an activity can be carried on
  until it ends or has to wait. -/

namespace Proactor

/-- The outcome of an atomic step: the shared state, the place of the activity, and the lines it
wrote. -/
structure Turn (σ φ : Type) where
  state : σ
  phase : φ
  lines : List Log.Entry := []

/-- What an activity does next. -/
inductive Next (ε : Type) [Protocol ε] (σ φ : Type) where
  /-- It has ended. -/
  | ended
  /-- It waits for a lock that another activity holds. -/
  | blocked
  /-- It takes an atomic step. -/
  | step (turn : Turn σ φ)
  /-- It makes a request and goes on from the answer and the shared state of that moment. -/
  | ask (request : ε) (resume : Protocol.Answer request → σ → Turn σ φ)

namespace Turn

variable {σ φ ψ : Type}

/-- The turn of an activity seen as part of another. -/
def map (f : φ → ψ) (t : Turn σ φ) : Turn σ ψ := ⟨t.state, f t.phase, t.lines⟩

end Turn

namespace Next

variable {ε : Type} [Protocol ε] {σ φ ψ : Type}

/-- The step of an activity seen as part of another. -/
def map (f : φ → ψ) : Next ε σ φ → Next ε σ ψ
  | ended => ended
  | blocked => blocked
  | step t => step (t.map f)
  | ask r resume => ask r fun a s => (resume a s).map f

end Next

/-! ### Runs -/

/-- Where activities run: the shared state can be read and replaced, requests are answered, and
lines are written. -/
structure Surroundings (m : Type → Type) (ε : Type) [Protocol ε] (σ : Type) where
  get : m σ
  set : σ → m Unit
  answer : (r : ε) → m (Protocol.Answer r)
  write : Log.Entry → m Unit

namespace Activity

variable {m : Type → Type} [Monad m] {ε : Type} [Protocol ε] {σ φ : Type}

/-- Take over the state of a turn and write its lines. -/
def settle (on : Surroundings m ε σ) (turn : Turn σ φ) : m φ := do
  on.set turn.state
  turn.lines.forM on.write
  return turn.phase

/-- The number of steps after which a run is given up. -/
def patience : Nat := 1000000000000

/-- Carry an activity on for at most `fuel` steps, to a phase where `pause` holds or where it
cannot go on. -/
def runFor (on : Surroundings m ε σ) (next : σ → φ → Next ε σ φ) (pause : φ → Bool) :
    (fuel : Nat) → φ → m φ
  | 0, phase => pure phase
  | fuel + 1, phase => do
    if pause phase then return phase
    match next (← on.get) phase with
    | .ended => return phase
    | .blocked => return phase
    | .step turn =>
      let phase ← settle on turn
      runFor on next pause fuel phase
    | .ask r resume =>
      let answer ← on.answer r
      let phase ← settle on (resume answer (← on.get))
      runFor on next pause fuel phase

/-- Carry an activity on until it ends or has to wait. -/
def run (on : Surroundings m ε σ) (next : σ → φ → Next ε σ φ) (phase : φ) : m φ :=
  runFor on next (fun _ => false) patience phase

end Activity
end Proactor
