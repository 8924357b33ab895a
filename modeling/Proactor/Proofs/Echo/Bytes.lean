import Proactor.Proofs.Echo.Ledger
/-! # The bytes of the echo server

What the server sends back is what it received, and its counts agree with that.

* **Debts** (`Ledger.Settled`).  What was received on a connection is what was sent back, and what
  the place of its chain still owes: a task, or an operation that is outstanding.
* **Counts** (`Ledger.Counted`).  Bytes are counted as sent only after they were counted as
  received, and only connections are counted as closed. -/

namespace Proactor

theorem sumOf_le_length {α : Type} {f : α → Nat} {l : List α} (h : ∀ a ∈ l, f a ≤ 1) :
    sumOf f l ≤ l.length := by
  induction l with
  | nil => exact Nat.le_refl 0
  | cons a rest ih =>
      have first := h a (.head _)
      have others := ih fun b hb => h b (.tail _ hb)
      rw [sumOf_cons, List.length_cons]
      omega

/-- What is still to be sent back to the peer when the operation is outstanding. -/
def Operation.owes (op : Operation) : Option Bytes :=
  match op.work with
  | .receive _ => some []
  | .send t => some t.buffer.content
  | .accept .. | .connect .. => none

theorem Window.content_whole (data : Bytes) : (whole data).content = data := by
  rw [content, whole, List.drop_zero, List.take_length]

/-- A send owes all of the vector that it sends. -/
theorem Operation.owes_send (n : Nat) (bytes : Bytes) :
    (send n (.single (.whole bytes)) 0 none).owes = some bytes := by
  have content : (Buffer.single (.whole bytes)).content = bytes :=
    (List.append_nil _).trans (Window.content_whole bytes)
  exact congrArg some content

namespace Echo

/-- What is still to be sent back to the peer when a task is at this place, if anything is known of
it. -/
def Task.owes : Task → Option Bytes
  | receive .. => some []
  | received _ bytes status => some (if status.isSuccess then bytes else [])
  | send _ bytes => some bytes
  | sent _ _ status => if status.isSuccess then some [] else none
  | _ => none

/-- The number of bytes that were counted as received and are not counted as sent. -/
def Task.due : Task → Nat
  | send _ bytes => bytes.length
  | sent _ count status => if status.isSuccess then count else 0
  | _ => 0

/-- The number of bytes that are being sent. -/
def Account.due (a : Account) : Nat := sumOf (fun op => (op.owes.getD []).length) a.outstanding

section entries
variable {s s' server : Server} {j j' : Task} {x : Option (Exchange Call)} {call : Call}
  {answer : Protocol.Answer call} {purpose : Purpose} {make : Nat → Operation}
  {listener n : Handler} {bytes : Bytes} {op op₀ : Operation} {a : Account} {l l' : Ledger}

/-- What a task owes, it has owed before. -/
theorem Task.Moves.owed (h : j.Moves s x s' j') (idle : Idle x) (ho : j'.owes = some bytes) :
    j.owes = some bytes := by
  cases h with
  | received _ | sent => exact ho
  | adopted _ | accepts | receives _ | sends | closes | closeFailed _ => cases idle
  | _ => cases ho

/-- What an operation owes, its task has owed before. -/
theorem Task.Moves.owed_submitted (h : j.Moves s (some ⟨call, answer⟩) s' j')
    (submits : call.submits? = some (purpose, make)) (ho : (make n).owes = some bytes)
    (listener : Handler) :
    j.owes = some bytes ∧ ∃ c, j.connection? = some c ∧ purpose.socket listener = c.number := by
  cases h with
  | accepts =>
      cases submits
      cases ho
  | receives _ =>
      cases submits
      exact ⟨ho, _, rfl, rfl⟩
  | @sends c sent =>
      cases submits
      exact ⟨(Operation.owes_send n sent).symm.trans ho, _, rfl, rfl⟩
  | _ => cases submits

/-- Whoever is there for a connection carries its chain on. -/
theorem Ledger.mem_carried {c : Connection} (hj : j ∈ l.tasks) (hc : j.connection? = some c) :
    c.number ∈ l.carried := by
  refine List.mem_flatMap.mpr ⟨j, hj, List.mem_append_left _ ?_⟩
  rw [hc]
  exact .head _

/-! ### Debts -/

/-- On every connection, what was received is what was sent back and what is still owed. -/
structure Ledger.Settled (l : Ledger) : Prop where
  echoed : ∀ a ∈ l.accounts, a.sent <+: a.received
  inTask : ∀ j ∈ l.tasks, ∀ c bytes, j.connection? = some c → j.owes = some bytes →
    ∀ a ∈ l.accounts, a.number = c.number → a.received = a.sent ++ bytes
  outside : ∀ a ∈ l.accounts, ∀ op ∈ a.outstanding, ∀ bytes, op.owes = some bytes →
    a.received = a.sent ++ bytes

theorem Account.sent_took (a : Account) (still : List Operation) (op : Operation) :
    (a.took still op).sent = a.sent ++ op.sent := by
  rw [sent, took, List.reverse_cons, List.flatMap_append, List.flatMap_singleton]
  rfl

theorem Account.received_took (a : Account) (still : List Operation) (op : Operation) :
    (a.took still op).received = a.received ++ op.received := by
  rw [received, took, List.reverse_cons, List.flatMap_append, List.flatMap_singleton]
  rfl

/-- A completion pays what was owed, or leaves it to the task that gets to know of it. -/
theorem Completes.settles (h : Completes listener op n op₀ purpose j) {sent received : Bytes}
    (echoed : sent <+: received)
    (owed : ∀ bytes, op₀.owes = some bytes → received = sent ++ bytes) :
    sent ++ op.sent <+: received ++ op.received ∧
      ∀ bytes, j.owes = some bytes → received ++ op.received = sent ++ op.sent ++ bytes := by
  cases h with
  | accept work =>
      have none : op.sent = [] ∧ op.received = [] := by
        simp [Operation.sent, Operation.received, work]
      rw [none.1, none.2, List.append_nil, List.append_nil]
      exact ⟨echoed, fun _ ho => by cases ho⟩
  | receive _ work got =>
      have none : op.sent = [] := by simp [Operation.sent, work]
      have even : received = sent := (owed [] rfl).trans (List.append_nil _)
      rw [none, List.append_nil, even]
      refine ⟨List.prefix_append _ _, fun bytes ho => ?_⟩
      rw [got.trans (Option.some.inj ho)]
  | @send _ _ _ bytes _ _ work whole =>
      have none : op.received = [] := by simp [Operation.received, work]
      have even : received = sent ++ bytes := owed bytes (Operation.owes_send _ bytes)
      rw [none, List.append_nil]
      by_cases hs : op.status = .success
      · rw [(whole hs).1, ← even]
        refine ⟨List.prefix_refl _, fun bytes ho => ?_⟩
        simp only [Task.owes, hs, Status.isSuccess, beq_self_eq_true, if_true,
          Option.some.injEq] at ho
        rw [← ho, List.append_nil]
      · have failed : op.status.isSuccess = false := by simp [Status.isSuccess, hs]
        have nothing : op.sent = [] := by simp [Operation.sent, work, failed]
        rw [nothing, List.append_nil]
        refine ⟨echoed, fun bytes ho => ?_⟩
        simp [Task.owes, failed] at ho

namespace Ledger.Settled

variable {s : Service} {server : Server} {l₁ l₂ tasks : List Task} {j j' : Task}
  {accounts k₁ k₂ : List Account}

theorem moved (h : Settled ⟨s, l₁ ++ j :: l₂, accounts⟩) (moves : j.Moves s.server x server j')
    (idle : Idle x) : Settled ⟨{ s with server }, l₁ ++ j' :: l₂, accounts⟩ := by
  have same := (moves.idle idle s.listener).1
  have before := h.inTask j (mem_middle.mpr (.inl rfl))
  refine ⟨h.echoed, forall_replaced h.inTask fun c bytes hc ho => ?_, h.outside⟩
  exact before c bytes (same ▸ hc) (moves.owed idle ho)

theorem submitted (h : Settled ⟨s, l₁ ++ j :: l₂, k₁ ++ a :: k₂⟩)
    (moves : j.Moves s.server (some ⟨call, answer⟩) server j')
    (submits : call.submits? = some (purpose, make))
    (there : a.number = purpose.socket s.listener) :
    Settled ⟨{ (s.expect purpose).2 with server }, l₁ ++ j' :: l₂,
      k₁ ++ a.expecting (make s.next) :: k₂⟩ := by
  have own : a ∈ k₁ ++ a :: k₂ := mem_middle.mpr (.inl rfl)
  have before := h.inTask j (mem_middle.mpr (.inl rfl))
  refine ⟨forall_replaced h.echoed (h.echoed a own), forall_replaced (p := j) ?_ ?_,
    forall_replaced h.outside (forall_joined (h.outside a own) fun bytes ho => ?_)⟩
  · intro i hi c bytes hc ho
    have owed := h.inTask i hi c bytes hc ho
    exact forall_replaced owed (owed a own)
  · intro c bytes hc
    rw [(moves.submits submits s.listener).1] at hc
    cases hc
  · obtain ⟨owed, c, hc, socket⟩ := moves.owed_submitted submits ho s.listener
    exact before c bytes hc owed a own (there.trans socket)

theorem adopted {c : Connection} (h : Settled ⟨s, l₁ ++ .adopt c.fd :: l₂, accounts⟩)
    (chained : Chained ⟨s, l₁ ++ .adopt c.fd :: l₂, accounts⟩)
    (fresh : ∀ a ∈ accounts, a.number ≠ c.number) :
    Settled ⟨{ s with server.stats.accepts := s.server.stats.accepts + 1 },
      l₁ ++ .receive c true :: l₂, accounts ++ [{ number := c.number }]⟩ := by
  refine ⟨forall_joined h.echoed (List.prefix_refl _), forall_replaced (p := .adopt c.fd) ?_ ?_,
    forall_joined h.outside fun o ho => by cases ho⟩
  · intro i hi c' bytes hc ho
    refine forall_joined (h.inTask i hi c' bytes hc ho) fun hn => ?_
    -- nobody is there for a connection before it is accepted
    have there : c'.number ∈ carried ⟨s, l₁ ++ .adopt c.fd :: l₂, accounts⟩ := mem_carried hi hc
    rw [← hn] at there
    have carried := List.count_pos_iff.mpr there
    have none : (accounts.map (·.number)).count c.number = 0 := by
      refine List.count_eq_zero.mpr fun hm => ?_
      obtain ⟨b, hb, same⟩ := List.mem_map.mp hm
      exact fresh b hb same
    have one := chained.one c.number
    simp only at one carried
    omega
  · intro c' bytes hc ho
    cases hc
    cases ho
    exact forall_joined (fun a ha hn => absurd hn (fresh a ha)) fun _ => rfl

theorem closed {c : Connection} {more : Bool} {result : Except Status Unit}
    (h : Settled ⟨s, l₁ ++ .close c more :: l₂, k₁ ++ a :: k₂⟩)
    (moves : (Task.close c more).Moves s.server (some ⟨.close c, result⟩) server j') :
    Settled ⟨{ s with server }, l₁ ++ j' :: l₂, k₁ ++ a.shut :: k₂⟩ := by
  cases moves.closing
  have own : a ∈ k₁ ++ a :: k₂ := mem_middle.mpr (.inl rfl)
  refine ⟨forall_replaced h.echoed (h.echoed a own), forall_replaced (p := .close c more) ?_ ?_,
    forall_replaced h.outside (h.outside a own)⟩
  · intro i hi c' bytes hc ho
    have owed := h.inTask i hi c' bytes hc ho
    exact forall_replaced owed (owed a own)
  · intro c' bytes hc
    rw [Task.connection?_after] at hc
    cases hc

theorem completed {o₁ o₂ : List Operation} (h : Settled ⟨s, tasks, k₁ ++ a :: k₂⟩)
    (chained : Chained ⟨s, tasks, k₁ ++ a :: k₂⟩) (split : a.outstanding = o₁ ++ op₀ :: o₂)
    (completes : Completes s.listener op a.number op₀ purpose j) :
    Settled ⟨(s.take op.ticket).2, tasks ++ [j], k₁ ++ a.took (o₁ ++ o₂) op :: k₂⟩ := by
  have own : a ∈ k₁ ++ a :: k₂ := mem_middle.mpr (.inl rfl)
  -- the chain was at this operation, and so it is at no other place
  have alone := chained.alone own
  rw [split, List.length_append, List.length_cons] at alone
  have rest : o₁ ++ o₂ = [] := by
    refine List.eq_nil_of_length_eq_zero ?_
    rw [List.length_append]
    omega
  have nobody : a.number ∉ (Ledger.mk s tasks (k₁ ++ a :: k₂)).carried :=
    List.count_eq_zero.mp (by omega)
  obtain ⟨echoed, owed⟩ := completes.settles (h.echoed a own)
    (h.outside a own op₀ (split ▸ mem_middle.mpr (.inl rfl)))
  rw [← a.sent_took (o₁ ++ o₂), ← a.received_took (o₁ ++ o₂)] at echoed
  refine ⟨forall_replaced h.echoed echoed, forall_joined ?_ ?_, forall_replaced h.outside ?_⟩
  · intro i hi c bytes hc ho
    refine forall_replaced (h.inTask i hi c bytes hc ho) fun hn => ?_
    have there : c.number ∈ (Ledger.mk s tasks (k₁ ++ a :: k₂)).carried := mem_carried hi hc
    exact absurd (hn ▸ there) nobody
  · intro c bytes hc ho b hb hn
    rcases mem_middle.mp hb with rfl | hb
    · rw [Account.sent_took, Account.received_took]
      exact owed bytes ho
    · exact absurd (hn.trans (completes.connection.2 c hc).1) (chained.others b hb)
  · intro o ho
    have none : o ∈ ([] : List Operation) := rest ▸ ho
    cases none

end Ledger.Settled

/-- Whatever is entered, what is sent back is what was received. -/
theorem Ledger.Step.settled (step : Step l l') (chained : l.Chained) (h : l.Settled) :
    l'.Settled := by
  cases step with
  | same => exact h
  | signalled => exact ⟨h.echoed, h.inTask, h.outside⟩
  | moved moves idle => exact h.moved moves idle
  | submitted moves submits there => exact h.submitted moves submits there
  | adopted fresh => exact h.adopted chained fresh
  | closed moves there => exact h.closed moves
  | completed split completes only waiting => exact h.completed chained split completes

/-! ### Counts -/

/-- What the server counts agrees with its ledger. -/
structure Ledger.Counted (l : Ledger) : Prop where
  accepts : l.accounts.length = l.service.server.stats.accepts + 1
  closes : l.service.server.stats.closes ≤ sumOf (·.closed) l.accounts
  bytes : l.service.server.stats.bytesOut + sumOf Task.due l.tasks + sumOf Account.due l.accounts ≤
    l.service.server.stats.bytesIn

/-- Where nothing is opened, submitted or closed, only bytes are counted. -/
theorem Task.Moves.counts (h : j.Moves s x s' j') (idle : Idle x) :
    s'.stats.accepts = s.stats.accepts ∧ s'.stats.closes = s.stats.closes ∧
      s'.stats.bytesOut + j'.due + s.stats.bytesIn ≤
        s.stats.bytesOut + j.due + s'.stats.bytesIn := by
  cases h with
  | received _ | sent =>
      refine ⟨rfl, rfl, ?_⟩
      simp only [Task.due, Status.isSuccess, beq_self_eq_true, if_true]
      omega
  | sendFailed _ => exact ⟨rfl, rfl, by simp [Task.due]⟩
  | adopted _ | accepts | receives _ | sends | closes | closeFailed _ => cases idle
  | _ => exact ⟨rfl, rfl, Nat.le_refl _⟩

/-- What a task was to send is being sent. -/
theorem Task.Moves.counts_submitted (h : j.Moves s (some ⟨call, answer⟩) s' j')
    (submits : call.submits? = some (purpose, make)) :
    s' = s ∧ j'.due + ((make n).owes.getD []).length = j.due := by
  cases h with
  | accepts =>
      cases submits
      exact ⟨rfl, rfl⟩
  | @receives _ more _ =>
      cases submits
      exact ⟨rfl, by cases more <;> rfl⟩
  | @sends c bytes =>
      cases submits
      refine ⟨rfl, ?_⟩
      rw [Operation.owes_send]
      exact Nat.zero_add _
  | _ => cases submits

theorem Task.Moves.counts_closing {c : Connection} {more : Bool} {result : Except Status Unit}
    (h : (Task.close c more).Moves s (some ⟨.close c, result⟩) s' j') :
    s'.stats.accepts = s.stats.accepts ∧ s'.stats.closes ≤ s.stats.closes + 1 ∧
      s'.stats.bytesIn = s.stats.bytesIn ∧ s'.stats.bytesOut = s.stats.bytesOut ∧ j'.due = 0 := by
  cases h with
  | closes => exact ⟨rfl, Nat.le_refl _, rfl, rfl, by cases more <;> rfl⟩
  | closeFailed _ => exact ⟨rfl, Nat.le_succ _, rfl, rfl, by cases more <;> rfl⟩

/-- What was being sent is counted as sent only if all of it was. -/
theorem Completes.counts (h : Completes listener op n op₀ purpose j) :
    j.due ≤ (op₀.owes.getD []).length := by
  cases h with
  | accept _ => exact Nat.le_refl 0
  | receive _ _ _ => exact Nat.le_refl 0
  | @send _ _ _ bytes _ _ _ whole =>
      rw [Operation.owes_send, Task.due]
      split
      · next hs => exact Nat.le_of_eq (whole ((Status.isSuccess_iff _).mp hs)).2
      · exact Nat.zero_le _

theorem Account.due_expecting (a : Account) (op : Operation) :
    (a.expecting op).due = a.due + (op.owes.getD []).length := by
  simp [due, expecting]

theorem Account.due_shut (a : Account) : a.shut.due = a.due := rfl

/-- Whatever is entered, the counts agree with it. -/
theorem Ledger.Step.counted (step : Step l l') (h : l.Counted) : l'.Counted := by
  obtain ⟨accepts, closes, bytes⟩ := h
  cases step with
  | same => exact ⟨accepts, closes, bytes⟩
  | signalled => exact ⟨accepts, closes, bytes⟩
  | moved moves idle =>
      obtain ⟨same, still, counts⟩ := moves.counts idle
      refine ⟨accepts.trans (congrArg (· + 1) same.symm),
        Nat.le_trans (Nat.le_of_eq still) closes, ?_⟩
      simp only [sumOf_append, sumOf_cons] at bytes ⊢
      omega
  | @submitted s _ _ _ _ _ _ _ _ _ _ _ _ moves submits there =>
      obtain ⟨rfl, due⟩ := moves.counts_submitted (n := s.next) submits
      refine ⟨by simpa using accepts, by simpa [Account.expecting] using closes, ?_⟩
      simp only [sumOf_append, sumOf_cons, Account.due_expecting] at bytes ⊢
      omega
  | adopted fresh =>
      refine ⟨by simpa using accepts, by simpa using closes, ?_⟩
      simp only [sumOf_append, sumOf_cons] at bytes ⊢
      exact bytes
  | closed moves there =>
      obtain ⟨same, closed, received, sent, due⟩ := moves.counts_closing
      have none : ∀ (c : Connection) (more : Bool), (Task.close c more).due = 0 := fun _ _ => rfl
      refine ⟨by simpa [same] using accepts, ?_, ?_⟩
      · simp only [sumOf_append, sumOf_cons, Account.shut] at closes ⊢
        omega
      · simp only [sumOf_append, sumOf_cons, Account.due_shut, none] at bytes ⊢
        omega
  | @completed s _ _ _ _ _ _ op _ _ _ split completes only waiting =>
      have server : (s.take op.ticket).2.server = s.server := rfl
      have due := completes.counts
      rw [← server] at accepts closes bytes
      refine ⟨by simpa using accepts, by simpa [Account.took] using closes, ?_⟩
      simp only [sumOf_append, sumOf_cons, sumOf_nil, Account.due, Account.took, split] at bytes ⊢
      omega

/-- No more connections are counted as closed than were accepted. -/
theorem Ledger.Counted.closes_le (h : l.Counted) (chained : l.Chained) :
    l.service.server.stats.closes ≤ l.service.server.stats.accepts := by
  obtain ⟨a, ha, hn⟩ := List.mem_map.mp chained.listens
  have once : ∀ b ∈ l.accounts, b.closed ≤ 1 := by
    intro b hb
    have alone := chained.alone hb
    rw [Account.ends] at alone
    omega
  have none := (chained.kinds a ha).1 hn
  obtain ⟨accepts, closes, -⟩ := h
  obtain ⟨k₁, k₂, split⟩ := List.append_of_mem ha
  rw [split] at accepts closes once
  have left : sumOf (·.closed) k₁ ≤ k₁.length :=
    sumOf_le_length fun b hb => once b (mem_middle.mpr (.inr (List.mem_append_left _ hb)))
  have right : sumOf (·.closed) k₂ ≤ k₂.length :=
    sumOf_le_length fun b hb => once b (mem_middle.mpr (.inr (List.mem_append_right _ hb)))
  simp only [sumOf_append, sumOf_cons, none, List.length_append, List.length_cons] at accepts closes
  omega

end entries
end Echo
end Proactor
