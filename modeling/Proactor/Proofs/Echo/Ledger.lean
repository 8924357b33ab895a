import Mathlib.Data.List.Nodup
import Proactor.Proofs.Echo.Steps
import Proactor.Proofs.Wire
/-! # The ledger of the echo server

What the steps of the server come to, seen without what goes on inside the sockets.

* **Accounts** (`Account`).  The operations that are outstanding on a socket, those whose
  completions were taken, and how often it was closed.
* **Entries** (`Ledger.Step`).  What one step of the server does to its ledger.
* **Chains** (`Ledger.Chained`).  Every socket has one chain of operations.  A task carries it on,
  or an operation is outstanding, or it has ended, and it is at one of these places only. -/

namespace Proactor

/-- Where only one of the lists has what is counted. -/
theorem countP_flatMap_middle {α β : Type} {l₁ l₂ : List α} {a : α} {f : α → List β} {P : β → Bool}
    (h : ∀ b ∈ l₁ ++ l₂, ∀ o ∈ f b, P o = false) :
    ((l₁ ++ a :: l₂).flatMap f).countP P = (f a).countP P := by
  have none : ∀ k ⊆ l₁ ++ l₂, (k.flatMap f).countP P = 0 := by
    refine fun k hk => List.countP_eq_zero.mpr fun o ho => ?_
    obtain ⟨b, hb, ho⟩ := List.mem_flatMap.mp ho
    simp [h b (hk hb) o ho]
  rw [List.flatMap_append, List.flatMap_cons, List.countP_append, List.countP_append,
    none l₁ (List.subset_append_left _ _), none l₂ (List.subset_append_right _ _)]
  exact Nat.zero_add _

/-- The bytes that a send has sent. -/
def Operation.sent (op : Operation) : Bytes :=
  match op.work with
  | .send t => if op.status.isSuccess then t.buffer.content.take t.transferred else []
  | _ => []

/-- An accept that was turned away ends the chain of accepts. -/
def Operation.stopsAccepting (op : Operation) : Bool := op.isAccept && op.status == .shutdown

namespace Echo

/-! ### Tasks -/

namespace Task

/-- The connection for which a task is there. -/
def connection? : Task → Option Connection
  | receive c _ | received c _ _ | send c _ | sent c _ _ | finish c _ _ | close c _ => some c
  | accept | accepted .. | adopt _ | discard _ | ended => none

/-- The task carries the chain of accepts on. -/
def accepting : Task → Bool
  | accept | adopt _ | discard _ => true
  | accepted _ status => status != .shutdown
  | receive _ more | finish _ _ more | close _ more => more
  | received .. | send .. | sent .. | ended => false

/-- The task is there for the connection with this number. -/
def serves (n : Handler) (j : Task) : Bool := j.connection?.any (·.number == n)

/-- The numbers of the sockets whose chains a task carries on. -/
def carries (listener : Handler) (j : Task) : List Handler :=
  (j.connection?.map (·.number)).toList ++ if j.accepting then [listener] else []

variable {s s' : Server} {j j' : Task} {x : Option (Exchange Call)} {listener : Handler}

@[simp] theorem connection?_after (more : Bool) : (after more).connection? = none := by
  cases more <;> rfl

@[simp] theorem carries_after (more : Bool) :
    (after more).carries listener = if more then [listener] else [] := by
  cases more <;> rfl

end Task

/-- A request that neither submits nor opens nor closes anything, or none at all. -/
inductive Idle : Option (Exchange Call) → Prop
  | none : Idle none
  | refused (fd : Descriptor) (failure : SetupFailure) : Idle (some ⟨.adopt fd, .error failure⟩)
  | discarded (fd : Descriptor) : Idle (some ⟨.discard fd, ()⟩)

namespace Task.Moves

variable {s s' : Server} {j j' : Task} {x : Option (Exchange Call)}

/-- A task that asks for nothing carries on the same chains. -/
theorem idle (h : j.Moves s x s' j') (hx : Idle x) (listener : Handler) :
    j'.connection? = j.connection? ∧ j'.carries listener = j.carries listener := by
  cases h with
  | acceptFailed _ goesOn => exact ⟨rfl, by simp [carries, accepting, connection?, goesOn]⟩
  | adopted _ | accepts | receives _ | sends | closes | closeFailed _ => cases hx
  | _ => exact ⟨rfl, rfl⟩

/-- A task that submits gives up the chain that the operation carries on. -/
theorem submits {call : Call} {answer : Protocol.Answer call} {purpose : Purpose}
    {op : Nat → Operation} (h : j.Moves s (some ⟨call, answer⟩) s' j')
    (submits : call.submits? = some (purpose, op)) (listener : Handler) :
    j'.connection? = none ∧
      j.carries listener = purpose.socket listener :: j'.carries listener := by
  cases h with
  | accepts | sends =>
      cases submits
      exact ⟨rfl, rfl⟩
  | receives _ =>
      cases submits
      exact ⟨connection?_after _, by rw [carries_after]; rfl⟩
  | _ => cases submits

/-- Once accepting goes on in a task, it does until the task submits an accept. -/
theorem accepting (h : j.Moves s x s' j') (going : j.accepting = true) :
    j'.accepting = true ∨ x = some ⟨.accept, ()⟩ := by
  cases h with
  | accepts => exact .inr rfl
  | acceptStopped | receiveFailed _ | receivedLast | received _ | sends | sendFailed _ | sent =>
      cases going
  | @receives _ more _ | @closes _ more | @closeFailed _ more _ =>
      obtain rfl : more = true := going
      exact .inl rfl
  | acceptFailed _ _ | accepted | adopted _ | refused _ | discarded => exact .inl rfl
  | leaves _ | finishes _ => exact .inl going

/-- A task that closes a connection gives up its chain. -/
theorem closing {c : Connection} {more : Bool} {result : Except Status Unit}
    (h : (Task.close c more).Moves s (some ⟨.close c, result⟩) s' j') : j' = after more := by
  cases h <;> rfl

end Task.Moves

/-! ### Accounts -/

/-- What the server knows of a socket. -/
structure Account where
  number : Handler
  outstanding : List Operation := []
  /-- The operations whose completions were taken, newest first. -/
  taken : List Operation := []
  /-- How often it was closed. -/
  closed : Nat := 0

namespace Account

/-- How often the chain of the socket has come to its end. -/
def ends (a : Account) : Nat := a.taken.countP (·.stopsAccepting) + a.closed

/-- The places at which the chain of a socket is, outside of tasks. -/
def rests (a : Account) : List Handler :=
  List.replicate (a.outstanding.length + a.ends) a.number

/-- The bytes of the successful sends, first ones first. -/
def sent (a : Account) : Bytes := a.taken.reverse.flatMap (·.sent)

/-- The bytes of the successful receives, first ones first. -/
def received (a : Account) : Bytes := a.taken.reverse.flatMap (·.received)

/-- The account with one operation more outstanding. -/
def expecting (a : Account) (op : Operation) : Account :=
  { a with outstanding := a.outstanding ++ [op] }

/-- The account when the socket was closed once more. -/
def shut (a : Account) : Account := { a with closed := a.closed + 1 }

/-- The account when a completion was taken, and these operations are still outstanding. -/
def took (a : Account) (still : List Operation) (op : Operation) : Account :=
  { a with outstanding := still, taken := op :: a.taken }

end Account

/-- The service, its tasks, and the accounts of its sockets. -/
structure Ledger where
  service : Service
  tasks : List Task
  accounts : List Account

/-! ### Entries -/

/-- An operation is outstanding on a socket for a purpose. -/
inductive Awaits (listener : Handler) : Handler → Operation → Purpose → Prop
  | accept (n : Nat) : Awaits listener listener (.accept n .blank) .accept
  | receive {c : Connection} (n : Nat) (other : c.number ≠ listener) :
      Awaits listener c.number (.receive n (.single (.whole (List.replicate room 0))) 0 none)
        (.receive c)
  | send {c : Connection} (n : Nat) (bytes : Bytes) (other : c.number ≠ listener) :
      Awaits listener c.number (.send n (.single (.whole bytes)) 0 none) (.send c)

/-- An operation was submitted on a socket for a purpose, and handed back as `op`: what it has done,
and the task that gets to know of it. -/
inductive Completes (listener : Handler) (op : Operation) :
    Handler → Operation → Purpose → Task → Prop
  | accept {n : Nat} {address : Address} {fd : Descriptor} (work : op.work = .accept address fd) :
      Completes listener op listener (.accept n .blank) .accept (.accepted fd op.status)
  | receive {c : Connection} {n : Nat} {t : Transfer} {bytes : Bytes} (other : c.number ≠ listener)
      (work : op.work = .receive t)
      (received : op.received = if op.status.isSuccess then bytes else []) :
      Completes listener op c.number (.receive n (.single (.whole (List.replicate room 0))) 0 none)
        (.receive c) (.received c bytes op.status)
  | send {c : Connection} {n : Nat} {t : Transfer} {bytes : Bytes} {count : Nat}
      (other : c.number ≠ listener) (work : op.work = .send t)
      (whole : op.status = .success → op.sent = bytes ∧ count = bytes.length) :
      Completes listener op c.number (.send n (.single (.whole bytes)) 0 none) (.send c)
        (.sent c count op.status)

/-- What one step of the server does to its ledger. -/
inductive Ledger.Step : Ledger → Ledger → Prop
  | same (l : Ledger) : Step l l
  | signalled {s : Service} {tasks : List Task} {accounts : List Account} :
      Step ⟨s, tasks, accounts⟩ ⟨{ s with server.running := false }, tasks, accounts⟩
  | moved {s : Service} {server : Server} {l₁ l₂ : List Task} {j j' : Task}
      {x : Option (Exchange Call)} {accounts : List Account} (h : j.Moves s.server x server j')
      (idle : Idle x) :
      Step ⟨s, l₁ ++ j :: l₂, accounts⟩ ⟨{ s with server }, l₁ ++ j' :: l₂, accounts⟩
  | submitted {s : Service} {server : Server} {l₁ l₂ : List Task} {j j' : Task} {call : Call}
      {answer : Protocol.Answer call} {purpose : Purpose} {op : Nat → Operation}
      {k₁ k₂ : List Account} {a : Account} (h : j.Moves s.server (some ⟨call, answer⟩) server j')
      (submits : call.submits? = some (purpose, op))
      (there : a.number = purpose.socket s.listener) :
      Step ⟨s, l₁ ++ j :: l₂, k₁ ++ a :: k₂⟩
        ⟨{ (s.expect purpose).2 with server }, l₁ ++ j' :: l₂, k₁ ++ a.expecting (op s.next) :: k₂⟩
  | adopted {s : Service} {l₁ l₂ : List Task} {accounts : List Account} {c : Connection}
      (fresh : ∀ a ∈ accounts, a.number ≠ c.number) :
      Step ⟨s, l₁ ++ .adopt c.fd :: l₂, accounts⟩
        ⟨{ s with server.stats.accepts := s.server.stats.accepts + 1 },
          l₁ ++ .receive c true :: l₂, accounts ++ [{ number := c.number }]⟩
  | closed {s : Service} {server : Server} {l₁ l₂ : List Task} {c : Connection} {more : Bool}
      {result : Except Status Unit} {j' : Task} {k₁ k₂ : List Account} {a : Account}
      (h : (Task.close c more).Moves s.server (some ⟨.close c, result⟩) server j')
      (there : a.number = c.number) :
      Step ⟨s, l₁ ++ .close c more :: l₂, k₁ ++ a :: k₂⟩
        ⟨{ s with server }, l₁ ++ j' :: l₂, k₁ ++ a.shut :: k₂⟩
  | completed {s : Service} {tasks : List Task} {k₁ k₂ : List Account} {a : Account}
      {o₁ o₂ : List Operation} {op op₀ : Operation} {purpose : Purpose} {j : Task}
      (split : a.outstanding = o₁ ++ op₀ :: o₂)
      (completes : Completes s.listener op a.number op₀ purpose j)
      (only : ∀ o ∈ o₁ ++ o₂, o.ticket ≠ op.ticket) (waiting : (op.ticket, purpose) ∈ s.waiting) :
      Step ⟨s, tasks, k₁ ++ a :: k₂⟩
        ⟨(s.take op.ticket).2, tasks ++ [j], k₁ ++ a.took (o₁ ++ o₂) op :: k₂⟩

/-! ### Chains -/

namespace Ledger

/-- The sockets whose chains tasks carry on. -/
def carried (l : Ledger) : List Handler := l.tasks.flatMap (·.carries l.service.listener)

/-- The sockets whose chains rest outside of tasks. -/
def resting (l : Ledger) : List Handler := l.accounts.flatMap (·.rests)

/-- Every socket has one chain, and the service waits for what is outstanding. -/
structure Chained (l : Ledger) : Prop where
  numbers : (l.accounts.map (·.number)).Nodup
  listens : l.service.listener ∈ l.accounts.map (·.number)
  /-- Tickets are given out once. -/
  tickets : (l.service.waiting.map (·.1)).Nodup
  issued : ∀ w ∈ l.service.waiting, w.1 < l.service.next
  /-- No connection is the listener. -/
  apart : ∀ j ∈ l.tasks, ∀ c, j.connection? = some c → c.number ≠ l.service.listener
  awaited : ∀ a ∈ l.accounts, ∀ op ∈ a.outstanding, ∃ purpose,
    (op.ticket, purpose) ∈ l.service.waiting ∧ Awaits l.service.listener a.number op purpose
  /-- The listener is not closed by tasks, and accepts are made on it only. -/
  kinds : ∀ a ∈ l.accounts, (a.number = l.service.listener → a.closed = 0) ∧
    (a.number ≠ l.service.listener → ∀ op ∈ a.taken, op.stopsAccepting = false)
  one : ∀ n, l.carried.count n + l.resting.count n = (l.accounts.map (·.number)).count n

end Ledger

section entries
variable {s : Service} {server : Server} {l₁ l₂ tasks : List Task} {j j' : Task}
  {x : Option (Exchange Call)} {accounts k₁ k₂ : List Account} {a : Account} {listener n : Handler}
  {op op₀ o : Operation} {purpose : Purpose}

theorem Awaits.socket (h : Awaits listener n op purpose) : n = purpose.socket listener := by
  cases h <;> rfl

/-- What a request submits is then outstanding for its purpose. -/
theorem Task.Moves.awaits {s s' : Server} {call : Call} {answer : Protocol.Answer call}
    {make : Nat → Operation} (h : j.Moves s (some ⟨call, answer⟩) s' j')
    (submits : call.submits? = some (purpose, make)) (there : n = purpose.socket listener)
    (apart : ∀ c, j.connection? = some c → c.number ≠ listener) (ticket : Nat) :
    (make ticket).ticket = ticket ∧ Awaits listener n (make ticket) purpose := by
  subst there
  cases h with
  | accepts =>
      cases submits
      exact ⟨rfl, .accept ticket⟩
  | receives _ =>
      cases submits
      exact ⟨rfl, .receive ticket (apart _ rfl)⟩
  | sends =>
      cases submits
      exact ⟨rfl, .send ticket _ (apart _ rfl)⟩
  | _ => cases submits

theorem Completes.socket (h : Completes listener op n op₀ purpose j) :
    n = purpose.socket listener := by
  cases h <;> rfl

/-- The task that gets to know of a completion carries the chain on, unless it has ended. -/
theorem Completes.carries (h : Completes listener op n op₀ purpose j) :
    j.carries listener ++ List.replicate op.stopsAccepting.toNat n = [n] := by
  cases h with
  | accept work =>
      have accept : op.isAccept = true := by simp [Operation.isAccept, work]
      by_cases hs : op.status = .shutdown <;>
        simp [Task.carries, Task.connection?, Task.accepting, Operation.stopsAccepting, accept, hs]
  | receive _ work _ | send _ work _ =>
      have other : op.stopsAccepting = false := by
        simp [Operation.stopsAccepting, Operation.isAccept, work]
      rw [other]
      rfl

/-- A connection is told of no accepts. -/
theorem Completes.connection (h : Completes listener op n op₀ purpose j) :
    (n ≠ listener → op.stopsAccepting = false) ∧
      ∀ c, j.connection? = some c → c.number = n ∧ n ≠ listener := by
  cases h with
  | accept _ => exact ⟨fun hn => absurd rfl hn, fun _ hc => by cases hc⟩
  | receive other work _ | send other work _ =>
      refine ⟨fun _ => by simp [Operation.stopsAccepting, Operation.isAccept, work], fun c hc => ?_⟩
      cases hc
      exact ⟨rfl, other⟩

namespace Account

theorem rests_expecting (a : Account) (op : Operation) :
    (a.expecting op).rests = a.number :: a.rests := by
  have more : (a.expecting op).outstanding.length + (a.expecting op).ends =
      a.outstanding.length + a.ends + 1 := by
    simp only [expecting, List.length_append, List.length_singleton, ends]
    omega
  rw [rests, more]
  rfl

theorem rests_shut (a : Account) : a.shut.rests = a.number :: a.rests := rfl

theorem rests_took {a : Account} {o₁ o₂ : List Operation} {op₀ : Operation}
    (split : a.outstanding = o₁ ++ op₀ :: o₂) (op : Operation) :
    a.number :: (a.took (o₁ ++ o₂) op).rests =
      List.replicate op.stopsAccepting.toNat a.number ++ a.rests := by
  have stops : (if op.stopsAccepting = true then 1 else 0) = op.stopsAccepting.toNat := by
    cases op.stopsAccepting <;> rfl
  simp only [rests, took, ends, split, List.replicate_append_replicate, ← List.replicate_succ,
    List.length_append, List.length_cons, List.countP_cons, stops]
  congr 1
  omega

end Account

namespace Ledger.Chained

/-- No two sockets have one number. -/
theorem others (h : Chained ⟨s, tasks, k₁ ++ a :: k₂⟩) : ∀ b ∈ k₁ ++ k₂, b.number ≠ a.number :=
  others_of_nodup h.numbers

theorem moved (h : Chained ⟨s, l₁ ++ j :: l₂, accounts⟩) (moves : j.Moves s.server x server j')
    (idle : Idle x) : Chained ⟨{ s with server }, l₁ ++ j' :: l₂, accounts⟩ := by
  obtain ⟨connection, carries⟩ := moves.idle idle s.listener
  refine ⟨h.numbers, h.listens, h.tickets, h.issued, ?_, h.awaited, h.kinds, fun n => ?_⟩
  · exact forall_replaced h.apart (connection ▸ h.apart j (mem_middle.mpr (.inl rfl)))
  · have one := h.one n
    simp only [carried, List.flatMap_append, List.flatMap_cons, carries] at one ⊢
    exact one

theorem submitted (h : Chained ⟨s, l₁ ++ j :: l₂, k₁ ++ a :: k₂⟩) {call : Call}
    {answer : Protocol.Answer call} {make : Nat → Operation}
    (moves : j.Moves s.server (some ⟨call, answer⟩) server j')
    (submits : call.submits? = some (purpose, make))
    (there : a.number = purpose.socket s.listener) :
    Chained ⟨{ (s.expect purpose).2 with server }, l₁ ++ j' :: l₂,
      k₁ ++ a.expecting (make s.next) :: k₂⟩ := by
  obtain ⟨connection, carries⟩ := moves.submits submits s.listener
  obtain ⟨ticket, awaits⟩ :=
    moves.awaits submits there (h.apart j (mem_middle.mpr (.inl rfl))) s.next
  have own : a ∈ k₁ ++ a :: k₂ := mem_middle.mpr (.inl rfl)
  have same : (k₁ ++ a.expecting (make s.next) :: k₂).map (·.number) =
      (k₁ ++ a :: k₂).map (·.number) := by simp [Account.expecting]
  have awaited : ∀ b ∈ k₁ ++ a :: k₂, ∀ o ∈ b.outstanding, ∃ purpose',
      (o.ticket, purpose') ∈ s.waiting ++ [(s.next, purpose)] ∧
        Awaits s.listener b.number o purpose' := by
    intro b hb o ho
    obtain ⟨purpose', waits, awaits⟩ := h.awaited b hb o ho
    exact ⟨purpose', List.mem_append_left _ waits, awaits⟩
  refine ⟨same ▸ h.numbers, same ▸ h.listens, ?_, ?_, ?_, ?_, ?_, fun n => ?_⟩
  · show ((s.waiting ++ [(s.next, purpose)]).map (·.1)).Nodup
    rw [List.map_append, List.nodup_append]
    refine ⟨h.tickets, by simp, ?_⟩
    rintro n hn m hm rfl
    obtain ⟨w, hw, rfl⟩ := List.mem_map.mp hn
    have issued : w.1 < s.next := h.issued w hw
    simp only [List.map_cons, List.map_nil, List.mem_singleton] at hm
    omega
  · exact forall_joined (fun w hw => Nat.lt_succ_of_lt (h.issued w hw)) (Nat.lt_succ_self s.next)
  · exact forall_replaced h.apart fun c hc => by
      rw [connection] at hc
      cases hc
  · refine forall_replaced awaited (forall_joined (awaited a own) ⟨purpose, ?_, awaits⟩)
    rw [ticket]
    exact List.mem_append_right _ (.head _)
  · exact forall_replaced h.kinds (h.kinds a own)
  · have one := h.one n
    have listener : { (s.expect purpose).2 with server }.listener = s.listener := rfl
    rw [same]
    simp only [carried, resting, List.flatMap_append, List.flatMap_cons, carries, List.count_append,
      List.count_cons, Account.rests_expecting, there] at one ⊢
    rw [listener]
    omega

theorem adopted {c : Connection} (h : Chained ⟨s, l₁ ++ .adopt c.fd :: l₂, accounts⟩)
    (fresh : ∀ a ∈ accounts, a.number ≠ c.number) :
    Chained ⟨{ s with server.stats.accepts := s.server.stats.accepts + 1 },
      l₁ ++ .receive c true :: l₂, accounts ++ [{ number := c.number }]⟩ := by
  have numbers : (accounts ++ [({ number := c.number } : Account)]).map (·.number) =
      accounts.map (·.number) ++ [c.number] := by simp
  have other : c.number ≠ s.listener := by
    intro hc
    obtain ⟨a, ha, hn⟩ := List.mem_map.mp h.listens
    exact fresh a ha (hn.trans hc.symm)
  refine ⟨?_, ?_, h.tickets, h.issued, ?_, ?_, ?_, fun n => ?_⟩
  · rw [numbers, List.nodup_append]
    refine ⟨h.numbers, by simp, ?_⟩
    rintro n hn m hm rfl
    obtain ⟨a, ha, rfl⟩ := List.mem_map.mp hn
    exact fresh a ha (List.mem_singleton.mp hm)
  · rw [numbers]
    exact List.mem_append_left _ h.listens
  · exact forall_replaced h.apart fun c' hc => by
      cases hc
      exact other
  · exact forall_joined h.awaited fun o ho => by cases ho
  · exact forall_joined h.kinds ⟨fun _ => rfl, fun _ o ho => by cases ho⟩
  · have one := h.one n
    have gives : (Task.adopt c.fd).carries s.listener = [s.listener] := rfl
    have takes : (Task.receive c true).carries s.listener = [c.number, s.listener] := rfl
    have rests : ({ number := c.number } : Account).rests = [] := rfl
    rw [numbers]
    simp only [carried, resting, List.flatMap_append, List.flatMap_cons, List.flatMap_nil, gives,
      takes, rests, List.count_append, List.count_cons, List.count_nil] at one ⊢
    omega

theorem closed {c : Connection} {more : Bool} {result : Except Status Unit}
    (h : Chained ⟨s, l₁ ++ .close c more :: l₂, k₁ ++ a :: k₂⟩)
    (moves : (Task.close c more).Moves s.server (some ⟨.close c, result⟩) server j')
    (there : a.number = c.number) :
    Chained ⟨{ s with server }, l₁ ++ j' :: l₂, k₁ ++ a.shut :: k₂⟩ := by
  cases moves.closing
  have own : a ∈ k₁ ++ a :: k₂ := mem_middle.mpr (.inl rfl)
  have other : a.number ≠ s.listener := there ▸ h.apart _ (mem_middle.mpr (.inl rfl)) c rfl
  have same : (k₁ ++ a.shut :: k₂).map (·.number) = (k₁ ++ a :: k₂).map (·.number) := by
    simp [Account.shut]
  refine ⟨same ▸ h.numbers, same ▸ h.listens, h.tickets, h.issued, ?_, ?_, ?_, fun n => ?_⟩
  · exact forall_replaced h.apart fun c' hc => by
      rw [Task.connection?_after] at hc
      cases hc
  · exact forall_replaced h.awaited (h.awaited a own)
  · exact forall_replaced h.kinds ⟨fun hn => absurd hn other, (h.kinds a own).2⟩
  · have one := h.one n
    have gives : (Task.close c more).carries s.listener =
        c.number :: (Task.after more).carries s.listener := by
      rw [Task.carries_after]
      rfl
    rw [same]
    simp only [carried, resting, List.flatMap_append, List.flatMap_cons, gives, List.count_append,
      List.count_cons, Account.rests_shut, there] at one ⊢
    omega

theorem completed {o₁ o₂ : List Operation} (h : Chained ⟨s, tasks, k₁ ++ a :: k₂⟩)
    (split : a.outstanding = o₁ ++ op₀ :: o₂)
    (completes : Completes s.listener op a.number op₀ purpose j)
    (only : ∀ o ∈ o₁ ++ o₂, o.ticket ≠ op.ticket) (waiting : (op.ticket, purpose) ∈ s.waiting) :
    Chained ⟨(s.take op.ticket).2, tasks ++ [j], k₁ ++ a.took (o₁ ++ o₂) op :: k₂⟩ := by
  have own : a ∈ k₁ ++ a :: k₂ := mem_middle.mpr (.inl rfl)
  have numbers : (k₁ ++ a.took (o₁ ++ o₂) op :: k₂).map (·.number) =
      (k₁ ++ a :: k₂).map (·.number) := by simp [Account.took]
  obtain ⟨shut, kind⟩ := h.kinds a own
  have still : ∀ {o : Operation} {purpose' : Purpose}, (o.ticket, purpose') ∈ s.waiting →
      o.ticket ≠ op.ticket → (o.ticket, purpose') ∈ (s.take op.ticket).2.waiting := by
    intro o purpose' hw ho
    exact List.mem_filter.mpr ⟨hw, by simpa using ho⟩
  refine ⟨numbers ▸ h.numbers, numbers ▸ h.listens, ?_, ?_, ?_, ?_, ?_, fun n => ?_⟩
  · exact h.tickets.sublist (List.filter_sublist.map _)
  · exact fun w hw => h.issued w (List.mem_filter.mp hw).1
  · refine forall_joined h.apart fun c hc => ?_
    obtain ⟨hn, other⟩ := completes.connection.2 c hc
    exact hn ▸ other
  · intro b hb o ho
    rcases mem_middle.mp hb with rfl | hb
    · have before : o ∈ a.outstanding := split ▸ mem_middle.mpr (.inr ho)
      obtain ⟨purpose', waits, awaits⟩ := h.awaited a own o before
      exact ⟨purpose', still waits (only o ho), awaits⟩
    · obtain ⟨purpose', waits, awaits⟩ := h.awaited b (mem_middle.mpr (.inr hb)) o ho
      refine ⟨purpose', still waits fun ht => h.others b hb ?_, awaits⟩
      -- one ticket is for one purpose, and a purpose has one socket
      obtain rfl : purpose' = purpose :=
        congrArg Prod.snd (List.inj_on_of_nodup_map h.tickets waits waiting ht)
      exact awaits.socket.trans completes.socket.symm
  · refine forall_replaced h.kinds ⟨shut, fun hn o ho => ?_⟩
    rcases List.mem_cons.mp ho with rfl | ho
    · exact completes.connection.1 hn
    · exact kind hn o ho
  · have one := h.one n
    have passes := congrArg (List.count n) completes.carries
    have rests := congrArg (List.count n) (Account.rests_took split op)
    have listener : (s.take op.ticket).2.listener = s.listener := rfl
    rw [numbers]
    simp only [carried, resting, List.flatMap_append, List.flatMap_cons, List.flatMap_nil,
      List.count_append, List.count_cons, List.count_nil, listener] at one passes rests ⊢
    omega

end Ledger.Chained

/-- Whatever is entered, every socket keeps one chain. -/
theorem Ledger.Step.chained {l l' : Ledger} (step : Step l l') (h : l.Chained) : l'.Chained := by
  cases step with
  | same => exact h
  | signalled =>
      exact ⟨h.numbers, h.listens, h.tickets, h.issued, h.apart, h.awaited, h.kinds, h.one⟩
  | moved moves idle => exact h.moved moves idle
  | submitted moves submits there => exact h.submitted moves submits there
  | adopted fresh => exact h.adopted fresh
  | closed moves there => exact h.closed moves there
  | completed split completes only waiting => exact h.completed split completes only waiting

/-! ### Places -/

theorem Task.count_carries_connection (j : Task) (hn : n ≠ listener) :
    (j.carries listener).count n = if j.serves n then 1 else 0 := by
  have others : (if j.accepting then [listener] else []).count n = 0 := by
    split
    · exact List.count_eq_zero.mpr fun h => hn (List.mem_singleton.mp h)
    · rfl
  rw [carries, List.count_append, others, serves]
  cases j.connection? <;> simp [List.count_singleton]

theorem Task.count_carries_listener (j : Task)
    (apart : ∀ c, j.connection? = some c → c.number ≠ listener) :
    (j.carries listener).count listener = if j.accepting then 1 else 0 := by
  have others : (j.connection?.map (·.number)).toList.count listener = 0 := by
    refine List.count_eq_zero.mpr fun h => ?_
    obtain ⟨c, hc, same⟩ := Option.map_eq_some_iff.mp (Option.mem_toList.mp h)
    exact apart c hc same
  rw [carries, List.count_append, others]
  split <;> simp

/-- Where every task carries a chain on once or not at all, those are counted that do. -/
theorem Task.count_carried {f : Task → Bool}
    (h : ∀ j ∈ tasks, (j.carries listener).count n = if f j then 1 else 0) :
    (tasks.flatMap (·.carries listener)).count n = tasks.countP f := by
  induction tasks with
  | nil => rfl
  | cons j rest ih =>
      rw [List.flatMap_cons, List.count_append, h j (.head _), ih fun i hi => h i (.tail _ hi),
        List.countP_cons, Nat.add_comm]

/-- Accepts are made on the listener, and everything else on connections. -/
theorem Awaits.isAccept (h : Awaits listener n op purpose) :
    op.isAccept = true ↔ n = listener := by
  cases h with
  | accept _ => exact ⟨fun _ => rfl, fun _ => rfl⟩
  | receive _ other | send _ _ other => exact ⟨nofun, fun hn => absurd hn other⟩

namespace Ledger

variable {l : Ledger}

/-- A socket has one place at which its chain is. -/
theorem Chained.alone (h : l.Chained) (ha : a ∈ l.accounts) :
    l.carried.count a.number + a.outstanding.length + a.ends = 1 := by
  obtain ⟨service, tasks, accounts⟩ := l
  obtain ⟨k₁, k₂, rfl⟩ := List.append_of_mem ha
  have once : ((k₁ ++ a :: k₂).map (·.number)).count a.number = 1 :=
    List.count_eq_one_of_mem h.numbers (List.mem_map_of_mem ha)
  have own : (resting ⟨service, tasks, k₁ ++ a :: k₂⟩).count a.number =
      a.outstanding.length + a.ends := by
    refine (countP_flatMap_middle fun b hb n hn => ?_).trans List.count_replicate_self
    rw [List.eq_of_mem_replicate hn]
    exact beq_eq_false_iff_ne.mpr (h.others b hb)
  have one := h.one a.number
  simp only at one
  omega

/-- A connection is served, or waits, or is closed. -/
theorem Chained.connection (h : l.Chained) (ha : a ∈ l.accounts)
    (other : a.number ≠ l.service.listener) :
    l.tasks.countP (·.serves a.number) + a.outstanding.length + a.closed = 1 := by
  have alone := h.alone ha
  have served : l.carried.count a.number = l.tasks.countP (·.serves a.number) :=
    Task.count_carried fun j _ => j.count_carries_connection other
  have going : a.taken.countP (·.stopsAccepting) = 0 :=
    List.countP_eq_zero.mpr fun op hop => by simp [(h.kinds a ha).2 other op hop]
  rw [served, Account.ends, going] at alone
  omega

/-- Accepting goes on in a task, or an accept waits, or one was turned away. -/
theorem Chained.accepting (h : l.Chained) :
    l.tasks.countP (·.accepting) + (l.accounts.flatMap (·.outstanding)).countP (·.isAccept) +
      (l.accounts.flatMap (·.taken)).countP (·.stopsAccepting) = 1 := by
  obtain ⟨a, ha, hn⟩ := List.mem_map.mp h.listens
  have alone := h.alone ha
  have going : l.carried.count a.number = l.tasks.countP (·.accepting) := by
    rw [hn]
    exact Task.count_carried fun j hj => j.count_carries_listener (h.apart j hj)
  have closed := (h.kinds a ha).1 hn
  obtain ⟨service, tasks, accounts⟩ := l
  obtain ⟨k₁, k₂, rfl⟩ := List.append_of_mem ha
  have mem : ∀ b ∈ k₁ ++ k₂, b ∈ k₁ ++ a :: k₂ ∧ b.number ≠ service.listener :=
    fun b hb => ⟨mem_middle.mpr (.inr hb), hn ▸ h.others b hb⟩
  have outstanding : ((k₁ ++ a :: k₂).flatMap (·.outstanding)).countP (·.isAccept) =
      a.outstanding.countP (·.isAccept) := by
    refine countP_flatMap_middle fun b hb op hop => Bool.eq_false_iff.mpr fun accept => ?_
    obtain ⟨purpose, -, awaits⟩ := h.awaited b (mem b hb).1 op hop
    exact (mem b hb).2 (awaits.isAccept.mp accept)
  have accepts : a.outstanding.countP (·.isAccept) = a.outstanding.length := by
    refine List.countP_eq_length.mpr fun op hop => ?_
    obtain ⟨purpose, -, awaits⟩ := h.awaited a ha op hop
    exact awaits.isAccept.mpr hn
  have taken : ((k₁ ++ a :: k₂).flatMap (·.taken)).countP (·.stopsAccepting) =
      a.taken.countP (·.stopsAccepting) :=
    countP_flatMap_middle fun b hb => (h.kinds b (mem b hb).1).2 (mem b hb).2
  rw [going, Account.ends, closed] at alone
  rw [outstanding, accepts, taken]
  exact alone

end Ledger

end entries

end Echo
end Proactor
