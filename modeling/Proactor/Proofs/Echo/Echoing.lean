import Proactor.Proofs.Echo.Entries
/-! # The echo server is faithful

* **Closes** (`Answered`).  Every close of a connection was asked for by a task, and was asked for
  once.
* **Connections** (`Port.Waits`, `Port.Finished`).  What a connection is like when no task is there
  for it.
* **Faithful servers** (`Faithful`).  There is one chain of operations for each connection, and one
  of accepts; what is sent back is what was received; and the counts agree with that. -/

namespace Proactor.Echo

/-! ### Closes -/

/-- Every close of a connection was asked for, and the server was told what closes came to. -/
structure Answered (listener : Handler) (tasks : List Task) (ports : List Port) : Prop where
  asked : ∀ p ∈ ports, p.number ≠ listener →
    p.closings.length ≤ p.closed.length + tasks.countP (·.closes p.number)
  told : ∀ p ∈ ports, ∀ r ∈ p.closed, ∃ k ∈ p.closings, k.phase = .ended r

section closes
variable {s s' : Server} {tasks l₁ l₂ : List Task} {j j' : Task} {x : Option (Exchange Call)}
  {ports k₁ k₂ : List Port} {p p' : Port} {e : Channel.Event} {listener n : Handler}

/-- A task that is to close asks for nothing else. -/
theorem Task.Moves.closing_of_closes (h : j.Moves s x s' j') (hj : j.closes n = true) :
    ∃ c r, x = some ⟨.close c, r⟩ := by
  cases h with
  | closes | closeFailed _ => exact ⟨_, _, rfl⟩
  | _ => cases hj

namespace Answered

/-- What happens on a socket keeps it, unless a close begins that was not asked for. -/
theorem happened (h : Answered listener tasks (k₁ ++ p :: k₂)) (happens : p.Then e p')
    (asked : p.number ≠ listener →
      p'.closings.length ≤ p.closed.length + tasks.countP (·.closes p.number)) :
    Answered listener tasks (k₁ ++ p' :: k₂) := by
  refine ⟨forall_replaced h.asked fun other => ?_, forall_replaced h.told fun r hr => ?_⟩
  · rw [happens.number, happens.closed]
    exact asked (happens.number ▸ other)
  · exact happens.ended (h.told p (mem_middle.mpr (.inl rfl)) r (happens.closed ▸ hr))

/-- What happens on a socket without a close keeps it. -/
theorem unclosed (h : Answered listener tasks (k₁ ++ p :: k₂)) (happens : p.Then e p')
    (nothing : e.newcomer?.bind (·.closing?) = none) :
    Answered listener tasks (k₁ ++ p' :: k₂) := by
  refine h.happened happens fun other => ?_
  rw [happens.length_closings, nothing]
  exact h.asked p (mem_middle.mpr (.inl rfl)) other

/-- What was asked for still is when a task that does not close goes on. -/
theorem moved (h : Answered listener (l₁ ++ j :: l₂) ports) (moves : j.Moves s x s' j')
    (other : ∀ c r, x ≠ some ⟨.close c, r⟩) : Answered listener (l₁ ++ j' :: l₂) ports := by
  refine ⟨fun p hp connection => ?_, h.told⟩
  have asked := h.asked p hp connection
  have none : j.closes p.number = false := by
    refine Bool.eq_false_iff.mpr fun hj => ?_
    obtain ⟨c, r, closing⟩ := moves.closing_of_closes hj
    exact other c r closing
  simp only [List.countP_append, List.countP_cons, none, Bool.false_eq_true, if_false] at asked ⊢
  omega

/-- A task is told what its close came to. -/
theorem closed {c : Connection} {more : Bool} {k : Channel.Closing} {result : Except Status Unit}
    (h : Answered listener (l₁ ++ .close c more :: l₂) (k₁ ++ p :: k₂))
    (others : ∀ q ∈ k₁ ++ k₂, q.number ≠ p.number) (there : p.number = c.number)
    (begun : k ∈ p.closings) (ended : k.phase = .ended result) :
    Answered listener (l₁ ++ j' :: l₂) (k₁ ++ p.told result :: k₂) := by
  have own : p ∈ k₁ ++ p :: k₂ := mem_middle.mpr (.inl rfl)
  refine ⟨fun q hq connection => ?_, forall_replaced h.told ?_⟩
  · rcases mem_middle.mp hq with rfl | hq
    · have asked := h.asked p own connection
      have one : (Task.close c more).closes p.number = true := by simp [Task.closes, there]
      simp only [List.countP_append, List.countP_cons, one, if_true, Port.told, Port.closings,
        List.length_cons] at asked ⊢
      omega
    · have asked := h.asked q (mem_middle.mpr (.inr hq)) connection
      have none : (Task.close c more).closes q.number = false := by
        simpa [Task.closes, ← there] using (others q hq).symm
      simp only [List.countP_append, List.countP_cons, none, Bool.false_eq_true,
        if_false] at asked ⊢
      omega
  · rintro r (_ | ⟨_, hr⟩)
    · exact ⟨k, begun, ended⟩
    · exact h.told p own r hr

/-- When a completion is taken, no less is asked for. -/
theorem took {op : Operation} (h : Answered listener tasks (k₁ ++ p :: k₂))
    (scheduled : op ∈ Channel.scheduled p.history) (newer : List Task) :
    Answered listener (tasks ++ newer) (k₁ ++ p.took op scheduled :: k₂) := by
  have own : p ∈ k₁ ++ p :: k₂ := mem_middle.mpr (.inl rfl)
  have asked : ∀ q ∈ k₁ ++ p :: k₂, q.number ≠ listener →
      q.closings.length ≤ q.closed.length + (tasks ++ newer).countP (·.closes q.number) :=
    fun q hq connection => Nat.le_trans (h.asked q hq connection)
      (Nat.add_le_add_left (List.sublist_append_left _ _).countP_le _)
  exact ⟨forall_replaced asked (asked p own), forall_replaced h.told (h.told p own)⟩

end Answered

/-- What a request of a task does leaves every close asked for. -/
theorem Effect.answered {s s' : Service} {server : Server} {ports' : List Port}
    (effect : Effect s ports x s' ports') (moves : j.Moves s.server x server j')
    (numbers : (ports.map (·.number)).Nodup)
    (h : Answered s.listener (l₁ ++ j :: l₂) ports) :
    Answered s'.listener (l₁ ++ j' :: l₂) ports' := by
  cases effect with
  | none => exact h.moved moves nofun
  | submitted submits there joined =>
      refine (h.moved moves fun c r same => ?_).unclosed joined rfl
      cases same
      cases submits
  | refused fd failure => exact h.moved moves nofun
  | adopted fresh =>
      have moved := h.moved moves nofun
      exact ⟨forall_joined moved.asked fun _ => Nat.zero_le _, forall_joined moved.told nofun⟩
  | closed there begun ended =>
      have others := others_of_nodup numbers
      cases moves with
      | closes => exact h.closed others there begun ended
      | closeFailed status => exact h.closed others there begun ended
  | discarded fd => exact h.moved moves nofun

end closes

/-- Whatever happens, every close was asked for. -/
theorem Step.answered {s s' : System} (step : Step s s') (numbers : (s.ports.map (·.number)).Nodup)
    (h : Answered s.service.listener s.tasks s.ports) :
    Answered s'.service.listener s'.tasks s'.ports := by
  cases step with
  | task yields effect => exact effect.answered (Task.moves_of_yields yields) numbers h
  | closing asked joined =>
      refine h.happened joined fun _ => ?_
      rw [joined.length_closings]
      exact asked
  | happened foreign happens => exact h.unclosed happens foreign.brings_nothing.2
  | completed scheduled untaken => exact h.took scheduled _
  | signalled => exact h
  | stopped signalled there joined => exact h.happened joined fun other => absurd there other

/-! ### Runs -/

section runs
variable {s : System}

theorem ledger_listening (number : Handler) (fd : Descriptor) :
    (System.listening number fd).ledger = ⟨{ listener := number }, [.accept], [{ number }]⟩ := rfl

/-- Whatever happened, every socket has one chain. -/
theorem Run.chained (run : Run s) : s.ledger.Chained := by
  induction run with
  | start number fd =>
      rw [ledger_listening]
      refine ⟨by simp, by simp, by simp, nofun, ?_, ?_, ?_, fun n => ?_⟩
      · simp [Task.connection?]
      · simp
      · simp
      · simp [Ledger.carried, Ledger.resting, Task.carries, Task.connection?, Task.accepting,
          Account.rests, Account.ends]
  | step run step ih => exact (step.ledger ih).chained ih

/-- Whatever happened, what was received is what was sent back and what is still owed. -/
theorem Run.settled (run : Run s) : s.ledger.Settled := by
  induction run with
  | start number fd =>
      rw [ledger_listening]
      refine ⟨by simp [Account.sent], ?_, by simp⟩
      simp [Task.connection?]
  | step run step ih => exact (step.ledger run.chained).settled run.chained ih

/-- Whatever happened, it was counted. -/
theorem Run.counted (run : Run s) : s.ledger.Counted := by
  induction run with
  | start number fd => exact ⟨rfl, Nat.le_refl 0, Nat.le_refl 0⟩
  | step run step ih => exact (step.ledger run.chained).counted ih

theorem Run.numbers (run : Run s) : (s.ports.map (·.number)).Nodup := by
  have numbers := run.chained.numbers
  rwa [System.ledger, List.map_map] at numbers

/-- Whatever happened, every close was asked for. -/
theorem Run.answered (run : Run s) : Answered s.service.listener s.tasks s.ports := by
  induction run with
  | start number fd =>
      refine ⟨?_, ?_⟩
      · rintro p (_ | ⟨_, ⟨⟩⟩) other
        exact absurd rfl other
      · rintro p (_ | ⟨_, ⟨⟩⟩)
        exact nofun
  | step run step ih => exact step.answered run.numbers ih

end runs

/-! ### Faithful servers -/

/-- The connection waits for one receive or one send, and was not closed. -/
structure Port.Waits (p : Port) : Prop where
  one : ∃ op, p.outstanding = [op] ∧ op.direction ≠ .connection
  unclosed : p.closings = [] ∧ p.closed = []

/-- The connection was closed once, the server was told so, and it waits for nothing. -/
structure Port.Finished (p : Port) : Prop where
  idle : p.outstanding = []
  once : ∃ result k, p.closed = [result] ∧ p.closings = [k] ∧ k.phase = .ended result

/-- What the server has come to is as it should be. -/
structure Faithful (s : System) : Prop where
  /-- The chain of a connection is at a task, or at an operation, or has ended. -/
  chain : ∀ p ∈ s.ports, p.number ≠ s.service.listener →
    s.tasks.countP (·.serves p.number) + p.outstanding.length + p.closed.length = 1
  /-- A connection for which no task is there waits or was finished. -/
  rests : ∀ p ∈ s.ports, p.number ≠ s.service.listener →
    (∀ j ∈ s.tasks, j.serves p.number = false) → p.Waits ∨ p.Finished
  /-- Accepting goes on in a task, or an accept is outstanding, or one was told of a shutdown. -/
  accepts : s.tasks.countP (·.accepting) +
    (s.ports.flatMap (·.outstanding)).countP (·.isAccept) +
    (s.ports.flatMap (·.taken)).countP (·.stopsAccepting) = 1
  /-- The successful sends on a connection sent a beginning of what its successful receives got. -/
  echoes : ∀ p ∈ s.ports, p.account.sent <+: p.account.received
  /-- Where a receive is outstanding, all of it was sent back. -/
  repaid : ∀ p ∈ s.ports, ∀ op ∈ p.outstanding, op.direction = .receive →
    p.account.sent = p.account.received
  connections : s.ports.length = s.service.server.stats.accepts + 1
  closes : s.service.server.stats.closes ≤ s.service.server.stats.accepts
  bytes : s.service.server.stats.bytesOut ≤ s.service.server.stats.bytesIn

/-- A task that is to close a connection is there for it. -/
theorem Task.serves_of_closes {n : Handler} {j : Task} (h : j.closes n = true) :
    j.serves n = true := by
  cases j with
  | close c more => exact h
  | _ => cases h

/-- Whatever is outstanding on a connection is a receive or a send. -/
theorem Awaits.direction {listener n : Handler} {op : Operation} {purpose : Purpose}
    (h : Awaits listener n op purpose) (other : n ≠ listener) : op.direction ≠ .connection := by
  cases h with
  | accept _ => exact absurd rfl other
  | receive _ _ | send _ _ _ => nofun

/-- A connection for which no task is there waits or was finished. -/
theorem Run.rests {s : System} {p : Port} (run : Run s) (hp : p ∈ s.ports)
    (other : p.number ≠ s.service.listener) (idle : ∀ j ∈ s.tasks, j.serves p.number = false) :
    p.Waits ∨ p.Finished := by
  have account : p.account ∈ s.ledger.accounts := List.mem_map_of_mem hp
  have chain : s.tasks.countP (·.serves p.number) + p.outstanding.length + p.closed.length = 1 :=
    run.chained.connection account other
  have unserved : s.tasks.countP (·.serves p.number) = 0 :=
    List.countP_eq_zero.mpr fun j hj => by simp [idle j hj]
  have unasked : s.tasks.countP (·.closes p.number) = 0 := by
    refine List.countP_eq_zero.mpr fun j hj closes => ?_
    simpa [idle j hj] using Task.serves_of_closes closes
  have asked := run.answered.asked p hp other
  have told := run.answered.told p hp
  rw [unserved] at chain
  rw [unasked] at asked
  cases closed : p.closed with
  | nil =>
      rw [closed] at chain asked
      obtain ⟨op, one⟩ := List.length_eq_one_iff.mp ((Nat.zero_add _).symm.trans chain)
      obtain ⟨purpose, -, awaits⟩ := run.chained.awaited p.account account op
        (show op ∈ p.outstanding from one ▸ .head _)
      exact .inl ⟨⟨op, one, awaits.direction other⟩,
        List.eq_nil_of_length_eq_zero (Nat.le_zero.mp asked), closed⟩
  | cons result rest =>
      rw [closed, List.length_cons] at chain asked
      obtain rfl : rest = [] := List.eq_nil_of_length_eq_zero (by omega)
      have none : p.outstanding = [] := List.eq_nil_of_length_eq_zero (by omega)
      obtain ⟨k, hk, ended⟩ := told result (closed ▸ .head _)
      obtain ⟨k', once⟩ := List.length_eq_one_iff.mp
        (Nat.le_antisymm asked (List.length_pos_of_mem hk))
      rw [once] at hk
      cases List.mem_singleton.mp hk
      exact .inr ⟨none, result, k, closed, once, ended⟩

/-- A connection that receives again has sent back what it received. -/
theorem Run.repaid {s : System} {p : Port} {op : Operation} (run : Run s) (hp : p ∈ s.ports)
    (outstanding : op ∈ p.outstanding) (receives : op.direction = .receive) :
    p.account.sent = p.account.received := by
  have owes : op.owes = some [] := by
    obtain ⟨t, work⟩ := op.work_of_direction receives
    rw [Operation.owes, work]
  have settled := run.settled.outside p.account (List.mem_map_of_mem hp) op outstanding [] owes
  rw [settled, List.append_nil]

/-- However the server runs, on a kernel that keeps its word (`Port.sound`), it has one chain of
operations for each connection and echoes faithfully. -/
theorem Run.faithful {s : System} (run : Run s) : Faithful s where
  chain p hp other := run.chained.connection (List.mem_map_of_mem hp) other
  rests p hp other idle := run.rests hp other idle
  accepts := by
    have accepting := run.chained.accepting
    simpa [System.ledger, List.flatMap_map, Port.account] using accepting
  echoes p hp := run.settled.echoed p.account (List.mem_map_of_mem hp)
  repaid p hp op outstanding receives := run.repaid hp outstanding receives
  connections := by simpa [System.ledger] using run.counted.accepts
  closes := run.counted.closes_le run.chained
  bytes := by
    have bytes : _ ≤ s.service.server.stats.bytesIn := run.counted.bytes
    have out : s.ledger.service.server.stats = s.service.server.stats := rfl
    rw [out] at bytes
    omega

/-- Whatever is asked succeeds at once.  There are three bytes to be received. -/
def obliging : (call : Channel.Call) → Protocol.Answer call
  | .system (.accept ..) => Except.ok (⟨11, default⟩ : Accepted)
  | .system (.available _) => Except.ok (3 : Int)
  | .system (.receive ..) => Except.ok (⟨[1, 2, 3], 0, default⟩ : Received)
  | .system (.send _ pieces _ _) => Except.ok pieces.flatten.length
  | call => Channel.notReady call

theorem sound_obliging (call : Channel.Call) : Channel.Sound ⟨call, obliging call⟩ := by
  cases call with
  | system call =>
      cases call with
      | send fd pieces address flags => exact ⟨Nat.le_refl _, List.eq_nil_of_length_eq_zero⟩
      | accept _ _ _ | available _ | receive _ _ _ _ => trivial
      | _ => exact (by decide : Errno.Meaningful 11)
  | _ => trivial

/-- The connection that is accepted. -/
def client : Connection := ⟨1, 11⟩

-- what was received is computed from the buffer of the receive, byte by byte
set_option maxRecDepth 50000 in
/-- A client is accepted, and the server receives three bytes and sends them back. -/
theorem faithful_once : ∃ s, Run s ∧ Faithful s ∧ s.service.server.stats = ⟨1, 0, 3, 3, 0⟩ ∧
    s.ports.map (·.account.sent) = [[], [1, 2, 3]] := by
  have r₀ : Run ⟨{ listener := 0 }, [] ++ .accept :: [], [] ++ .opened 0 10 :: []⟩ := .start 0 10
  -- the accept
  have r₁ := r₀.asked (.submitting .accept () .accept rfl rfl rfl) rfl
  have r₂ := r₁.gone_on sound_obliging (List.replicate 6 0)
  have r₃ := r₂.step (.completed (.head _) fun _ h => absurd h List.not_mem_nil)
  have r₄ : Run ⟨_, [.ended] ++ .accepted 11 .success :: [], _⟩ := r₃
  have r₅ := (r₄.moved rfl).asked
    (.adopted (c := client) (by rintro p (_ | ⟨_, ⟨⟩⟩); decide)) rfl
  -- the receive
  have r₆ : Run ⟨_, [.ended] ++ .receive client true :: [], [_] ++ .opened 1 11 :: []⟩ := r₅
  have r₇ := r₆.asked (.submitting (.receive client room) () (.receive client) rfl rfl rfl) rfl
  have r₈ := r₇.gone_on sound_obliging (List.replicate 9 0)
  have r₉ := r₈.step (.completed (.head _) fun _ h => absurd h List.not_mem_nil)
  have r₁₀ : Run ⟨_, [.ended, .accept] ++ .received client _ .success :: [], _⟩ := r₉
  -- the send
  have r₁₁ := (r₁₀.moved rfl).asked (.submitting (.send client _) () (.send client) rfl rfl rfl) rfl
  have r₁₂ := r₁₁.gone_on sound_obliging (List.replicate 6 1)
  have r₁₃ := r₁₂.step (.completed (.head _) (by rintro o (_ | ⟨_, ⟨⟩⟩); decide))
  have r₁₄ : Run ⟨_, [.ended, .accept, .ended] ++ .sent client _ .success :: [], _⟩ := r₁₃
  have r₁₅ := r₁₄.moved rfl
  exact ⟨_, r₁₅, r₁₅.faithful, rfl, rfl⟩

end Proactor.Echo
