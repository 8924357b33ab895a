import Proactor.Echo.Service
import Proactor.Proofs.Whole
/-! # Interleavings of the echo server

The tasks of the server go on side by side, and so does everything on its sockets: submissions,
dispatches and closes.  Completions are taken in any order, on any thread, and also by a task that
is inside a submission.

* **Ports** (`Port`).  A socket with everything that has happened on it, under a kernel that keeps
  its word, and with what the server was told: the completions that it took, and the results of its
  closes.  An operation is `outstanding` from its submission until its completion is taken.
* **Requests** (`Effect`).  What a request of a task does.  A submission only begins, and so the
  task may go on at once; a close is over when the task goes on.
* **Runs** (`Run`).  From a listening socket with a task that submits the first accept, step by step
  (`Step`).  The flag of the server may be cleared at any time; then the listener may be closed.
* **Replays** (`Port.goneOn`).  What happens on a socket when its parties take their steps in a
  given order, computed. -/

namespace Proactor

/-- The close that a party is. -/
def Channel.Party.closing? : Party → Option Closing
  | closing k => some k
  | _ => none

/-- The closes that have begun. -/
def Channel.System.closings (s : System) : List Closing := s.parties.filterMap (·.closing?)

namespace Echo

/-! ### Ports -/

/-- A socket with everything that has happened on it. -/
structure Port where
  number : Handler
  history : List Channel.Event
  system : Channel.System
  run : Channel.Run Channel.Party.ThroughSocket history system
  sound : ∀ e ∈ history, e.Sound
  /-- The operations whose completions the server took, newest first. -/
  taken : List Operation
  handed : ∀ op ∈ taken, op ∈ Channel.scheduled history
  /-- What the server was told of its closes, newest first. -/
  closed : List (Except Status Unit) := []

namespace Port

/-- A socket that was just opened. -/
def opened (number : Handler) (fd : Descriptor) : Port where
  number := number
  history := []
  system := Channel.ofSocket fd
  run := .start (.socket fd)
  sound := fun _ h => absurd h List.not_mem_nil
  taken := []
  handed := fun _ h => absurd h List.not_mem_nil

/-- The operations that were submitted and whose completions were not taken. -/
def outstanding (p : Port) : List Operation :=
  p.system.submitted.filter fun op => p.taken.all (·.ticket != op.ticket)

/-- The closes of the socket. -/
def closings (p : Port) : List Channel.Closing := p.system.closings

/-- The socket when the server has taken a completion. -/
def took (p : Port) (op : Operation) (scheduled : op ∈ Channel.scheduled p.history) : Port :=
  { p with
    taken := op :: p.taken
    handed := List.forall_mem_cons.mpr ⟨scheduled, p.handed⟩ }

/-- The socket when the server was told the result of a close. -/
def told (p : Port) (result : Except Status Unit) : Port :=
  { p with closed := result :: p.closed }

/-- The socket is as it was, but one thing more has happened on it. -/
structure Then (p : Port) (e : Channel.Event) (p' : Port) : Prop where
  history : p'.history = e :: p.history
  here : e.system = p.system
  number : p'.number = p.number
  taken : p'.taken = p.taken
  closed : p'.closed = p.closed

end Port

/-- What happens on a socket without a call of the server: a party goes on, or readiness is
reported. -/
inductive Foreign : Channel.Event → Prop
  | acted {s : Channel.System} {q q' : Channel.Party} {x : Option (Exchange Channel.Call)} :
      Foreign (.acted s q x q')
  | reported {s : Channel.System} (events : Readiness) :
      Foreign (.joined s (.dispatch (.enter events)))

/-! ### Requests -/

/-- What a request submits: for which purpose, and the operation with its ticket. -/
def Call.submits? : Call → Option (Purpose × (Nat → Operation))
  | accept => some (.accept, fun ticket => .accept ticket .blank)
  | receive c room =>
    some (.receive c, fun ticket =>
      .receive ticket (.single (.whole (List.replicate room 0))) 0 none)
  | send c bytes =>
    some (.send c, fun ticket => .send ticket (.single (.whole bytes)) 0 none)
  | adopt _ | close _ | discard _ => none

/-- The number of the socket on which one submits for a purpose. -/
def Purpose.socket (listener : Handler) : Purpose → Handler
  | accept => listener
  | receive c | send c => c.number

/-- This submission is what the service does for the request; both have nothing to say in answer. -/
theorem Service.answer_of_submits (owner : Completion → Service.Run Pool.Outcome) {call : Call}
    {purpose : Purpose} {op : Nat → Operation} (h : call.submits? = some (purpose, op)) :
    HEq ((tasks owner).answer call)
      (do submit owner (purpose.socket (← getThe Service).listener) purpose op :
        Service.Run Unit) := by
  cases call with
  | accept | receive _ _ | send _ _ =>
      cases h
      exact heq_of_eq rfl
  | adopt _ | close _ | discard _ => cases h

/-- What a request, with its answer, does to the service and its sockets. -/
inductive Effect : Service → List Port → Option (Exchange Call) → Service → List Port → Prop
  | none (s : Service) (ports : List Port) : Effect s ports none s ports
  | submitted {s : Service} {l₁ l₂ : List Port} {p p' : Port} {call : Call}
      {answer : Protocol.Answer call} {purpose : Purpose} {op : Nat → Operation}
      (submits : call.submits? = some (purpose, op))
      (there : p.number = purpose.socket s.listener)
      (joined :
        p.Then (.joined p.system (.submission (op s.next) (.throughSocket (op s.next)))) p') :
      Effect s (l₁ ++ p :: l₂) (some ⟨call, answer⟩) (s.expect purpose).2 (l₁ ++ p' :: l₂)
  | refused {s : Service} {ports : List Port} (fd : Descriptor) (failure : SetupFailure) :
      Effect s ports (some ⟨.adopt fd, .error failure⟩) s ports
  | adopted {s : Service} {ports : List Port} {c : Connection}
      (fresh : ∀ p ∈ ports, p.number ≠ c.number) :
      Effect s ports (some ⟨.adopt c.fd, .ok c⟩) s (ports ++ [.opened c.number c.fd])
  | closed {s : Service} {l₁ l₂ : List Port} {p : Port} {c : Connection} {k : Channel.Closing}
      {result : Except Status Unit} (there : p.number = c.number) (begun : k ∈ p.closings)
      (ended : k.phase = .ended result) :
      Effect s (l₁ ++ p :: l₂) (some ⟨.close c, result⟩) s (l₁ ++ p.told result :: l₂)
  | discarded {s : Service} {ports : List Port} (fd : Descriptor) :
      Effect s ports (some ⟨.discard fd, ()⟩) s ports

/-! ### Runs -/

/-- The server, its tasks in progress, and its sockets: the listener and the connections. -/
structure System where
  service : Service
  tasks : List Task
  ports : List Port

/-- The task asks for the close of the connection with this number. -/
def Task.closes (n : Handler) : Task → Bool
  | close c _ => c.number == n
  | _ => false

/-- One thing that happens. -/
inductive Step : System → System → Prop
  /-- A task goes on. -/
  | task {s s' : Service} {l₁ l₂ : List Task} {j : Task} {x : Option (Exchange Call)}
      {turn : Turn Server Task} {ports ports' : List Port}
      (yields : (j.next s.server).Yields s.server x turn) (effect : Effect s ports x s' ports') :
      Step ⟨s, l₁ ++ j :: l₂, ports⟩
        ⟨{ s' with server := turn.state }, l₁ ++ turn.phase :: l₂, ports'⟩
  /-- A task begins the close that it asks for: every close was asked for, once. -/
  | closing {s : Service} {tasks : List Task} {l₁ l₂ : List Port} {p p' : Port}
      (asked : p.closings.length < p.closed.length + tasks.countP (·.closes p.number))
      (joined : p.Then (.joined p.system (.closing .socket)) p') :
      Step ⟨s, tasks, l₁ ++ p :: l₂⟩ ⟨s, tasks, l₁ ++ p' :: l₂⟩
  /-- Something happens on a socket. -/
  | happened {s : Service} {tasks : List Task} {l₁ l₂ : List Port} {p p' : Port}
      {e : Channel.Event} (foreign : Foreign e) (happens : p.Then e p') :
      Step ⟨s, tasks, l₁ ++ p :: l₂⟩ ⟨s, tasks, l₁ ++ p' :: l₂⟩
  /-- A completion that was handed to the scheduler is taken. -/
  | completed {s : Service} {tasks : List Task} {l₁ l₂ : List Port} {p : Port} {op : Operation}
      (scheduled : op ∈ Channel.scheduled p.history)
      (untaken : ∀ o ∈ p.taken, o.ticket ≠ op.ticket) :
      Step ⟨s, tasks, l₁ ++ p :: l₂⟩
        ⟨(s.take op.ticket).2,
          tasks ++ ((s.take op.ticket).1.map (·.task op.completion.outcome)).toList,
          l₁ ++ p.took op scheduled :: l₂⟩
  /-- A signal clears the flag of the server. -/
  | signalled {s : Service} {tasks : List Task} {ports : List Port} :
      Step ⟨s, tasks, ports⟩ ⟨{ s with server.running := false }, tasks, ports⟩
  /-- After a signal the listener is closed. -/
  | stopped {s : Service} {tasks : List Task} {l₁ l₂ : List Port} {p p' : Port}
      (signalled : s.server.running = false) (there : p.number = s.listener)
      (joined : p.Then (.joined p.system (.closing .socket)) p') :
      Step ⟨s, tasks, l₁ ++ p :: l₂⟩ ⟨s, tasks, l₁ ++ p' :: l₂⟩

/-- A server with its listening socket, about to submit the first accept. -/
def System.listening (number : Handler) (fd : Descriptor) : System :=
  ⟨{ listener := number }, [.accept], [.opened number fd]⟩

/-- The systems that the server reaches. -/
inductive Run : System → Prop
  | start (number : Handler) (fd : Descriptor) : Run (.listening number fd)
  | step {s s' : System} (run : Run s) (step : Step s s') : Run s'

/-! ### Replays -/

namespace Port

/-- The socket when an operation was submitted on it. -/
def submitting (p : Port) (op : Operation)
    (welcome : (Channel.Newcomer.submission true op).welcome p.system = true) : Port :=
  { p with
    history := .joined p.system (.submission op (.throughSocket op)) :: p.history
    system := ⟨p.system.channel, p.system.parties ++ [.submission op (.throughSocket op)]⟩
    run := .join (p := .submission op (.throughSocket op)) p.run (Channel.Newcomer.begins welcome)
      rfl (Channel.Newcomer.unused welcome)
    sound := List.forall_mem_cons.mpr ⟨Channel.Event.sound_joined _ _, p.sound⟩
    handed := p.handed }

/-- The socket when a party has gone on, if it can. -/
def acted (p : Port) (answer : (call : Channel.Call) → Protocol.Answer call)
    (sound : ∀ call, Channel.Sound ⟨call, answer call⟩) (i : Nat) : Port :=
  match h : (Channel.Choice.act i answer).take Channel.Party.ThroughSocket
      (p.history, p.system) with
  | none => p
  | some (t, s) =>
    { p with
      history := t
      system := s
      run := Channel.Choice.run_of_take p.run h
      sound := by
        obtain ⟨q, x, q', rfl, asked⟩ := Channel.Choice.acted_of_take h
        refine List.forall_mem_cons.mpr ⟨fun y hy => ?_, p.sound⟩
        obtain ⟨call, rfl⟩ := asked y hy
        exact sound call
      handed := by
        obtain ⟨q, x, q', rfl, -⟩ := Channel.Choice.acted_of_take h
        intro op hop
        have before := p.handed op hop
        rw [Channel.scheduled, List.filterMap_cons]
        split
        · exact before
        · exact .tail _ before }

/-- The socket when these parties have gone on one after another. -/
def goneOn (p : Port) (answer : (call : Channel.Call) → Protocol.Answer call)
    (sound : ∀ call, Channel.Sound ⟨call, answer call⟩) (parties : List Nat) : Port :=
  parties.foldl (·.acted answer sound ·) p

end Port

section replays
variable {s s' : Service} {l₁ l₂ tasks : List Task} {j : Task} {ports ports' k₁ k₂ : List Port}
  {p : Port} {call : Call} {answer : Protocol.Answer call}

theorem Effect.submitting {op : Nat → Operation} (call : Call) (answer : Protocol.Answer call)
    (purpose : Purpose) (submits : call.submits? = some (purpose, op))
    (there : p.number = purpose.socket s.listener)
    (welcome : (Channel.Newcomer.submission true (op s.next)).welcome p.system = true) :
    Effect s (k₁ ++ p :: k₂) (some ⟨call, answer⟩) (s.expect purpose).2
      (k₁ ++ p.submitting (op s.next) welcome :: k₂) :=
  .submitted submits there ⟨rfl, rfl, rfl, rfl, rfl⟩

theorem Run.moved {turn : Turn Server Task} (run : Run ⟨s, l₁ ++ j :: l₂, ports⟩)
    (h : j.next s.server = .step turn) :
    Run ⟨{ s with server := turn.state }, l₁ ++ turn.phase :: l₂, ports⟩ :=
  run.step (.task (h ▸ .step turn) (.none s ports))

theorem Run.asked {resume : Protocol.Answer call → Server → Turn Server Task}
    (run : Run ⟨s, l₁ ++ j :: l₂, ports⟩)
    (effect : Effect s ports (some ⟨call, answer⟩) s' ports')
    (h : j.next s.server = .ask call resume) :
    Run ⟨{ s' with server := (resume answer s.server).state },
      l₁ ++ (resume answer s.server).phase :: l₂, ports'⟩ :=
  run.step (.task (h ▸ .ask call resume answer) effect)

theorem Run.acted {answer : (call : Channel.Call) → Protocol.Answer call}
    (run : Run ⟨s, tasks, k₁ ++ p :: k₂⟩) (sound : ∀ call, Channel.Sound ⟨call, answer call⟩)
    (i : Nat) : Run ⟨s, tasks, k₁ ++ p.acted answer sound i :: k₂⟩ := by
  unfold Port.acted
  split
  · exact run
  · next h =>
    obtain ⟨q, x, q', rfl, -⟩ := Channel.Choice.acted_of_take h
    exact run.step (.happened .acted ⟨rfl, rfl, rfl, rfl, rfl⟩)

theorem Run.gone_on {answer : (call : Channel.Call) → Protocol.Answer call}
    (run : Run ⟨s, tasks, k₁ ++ p :: k₂⟩) (sound : ∀ call, Channel.Sound ⟨call, answer call⟩)
    (parties : List Nat) : Run ⟨s, tasks, k₁ ++ p.goneOn answer sound parties :: k₂⟩ := by
  induction parties generalizing p with
  | nil => exact run
  | cons i rest ih => exact ih (run.acted sound i)

end replays

end Echo
end Proactor
