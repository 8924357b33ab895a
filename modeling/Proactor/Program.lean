import Proactor.Log
/-! # Programs that make requests

What the library wants from its surroundings it says as a value.  A `Protocol` gives the requests
and the type of each answer.

* **Programs** (`Program`).  A sequence of requests in which every next step may depend on the
  answers so far.  Setting things up and taking them down are programs.
* **Runs** (`Program.run`).  Whoever can answer the requests in some monad can run a program.
* **Refinement** (`Program.interpret`).  A program over one protocol becomes one over another when
  each request is replaced by a program that answers it. -/

namespace Proactor

/-- Requests of type `ε`, with the type of the answer to each. -/
class Protocol (ε : Type) where
  Answer : ε → Type

/-- A sequence of requests and log lines that ends in a value. -/
inductive Program (ε : Type) [Protocol ε] (α : Type) where
  | done (value : α)
  | ask (request : ε) (next : Protocol.Answer request → Program ε α)
  | note (entry : Log.Entry) (next : Program ε α)

namespace Program

variable {ε δ : Type} [Protocol ε] [Protocol δ] {α β : Type}

/-- One program after another. -/
def bind : Program ε α → (α → Program ε β) → Program ε β
  | done a, f => f a
  | ask r next, f => ask r fun answer => (next answer).bind f
  | note e next, f => note e (next.bind f)

instance : Monad (Program ε) where
  pure := done
  bind := bind

/-- Make one request. -/
def request (r : ε) : Program ε (Protocol.Answer r) := ask r done

/-- Write one log line. -/
def log (e : Log.Entry) : Program ε Unit := note e (done ())

/-- Replace every request by a program that answers it. -/
def interpret (f : (r : ε) → Program δ (Protocol.Answer r)) : Program ε α → Program δ α
  | done a => done a
  | ask r next => (f r).bind fun answer => (next answer).interpret f
  | note e next => note e (next.interpret f)

/-- Run a program where its requests can be answered and its lines written. -/
def run {m : Type → Type} [Monad m] (answer : (r : ε) → m (Protocol.Answer r))
    (write : Log.Entry → m Unit) : Program ε α → m α
  | done a => pure a
  | ask r next => do
    let a ← answer r
    (next a).run answer write
  | note e next => do
    write e
    next.run answer write

@[simp] theorem done_bind (a : α) (f : α → Program ε β) : (done a).bind f = f a := rfl

theorem bind_done (p : Program ε α) : p.bind done = p := by
  induction p with
  | done a => rfl
  | ask r next ih => simp [bind, ih]
  | note e next ih => simp [bind, ih]

theorem bind_assoc {γ : Type} (p : Program ε α) (f : α → Program ε β) (g : β → Program ε γ) :
    (p.bind f).bind g = p.bind fun a => (f a).bind g := by
  induction p with
  | done a => rfl
  | ask r next ih => simp [bind, ih]
  | note e next ih => simp [bind, ih]

end Program
end Proactor
