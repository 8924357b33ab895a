import Proactor.Proofs.Echo.Bytes
/-! # What the echo server enters in its ledger

Whatever happens to the server and on its sockets, in any order and on any thread, is one of the
entries of a ledger (`Step.ledger`): an operation that was submitted is outstanding until its
completion is taken, and the task that takes the completion gets to know what became of the operation
(`Port.completes`). -/

namespace Proactor

namespace Operation

variable {op : Operation}

theorem work_of_accept (h : op.shape = .accept) : ∃ address fd, op.work = .accept address fd := by
  unfold shape at h
  split at h
  · exact ⟨_, _, ‹_›⟩
  all_goals cases h

theorem work_of_receive {frame : Bool × List (Nat × Nat × Nat)} (h : op.shape = .receive frame) :
    ∃ t, op.work = .receive t ∧ t.buffer.frame = frame := by
  unfold shape at h
  split at h
  case h_3 t work =>
    cases h
    exact ⟨t, work, rfl⟩
  all_goals cases h

theorem work_of_send {buffer : Buffer} (h : op.shape = .send buffer) :
    ∃ t, op.work = .send t ∧ t.buffer = buffer := by
  unfold shape at h
  split at h
  case h_4 t work =>
    cases h
    exact ⟨t, work, rfl⟩
  all_goals cases h

end Operation

namespace Echo

/-! ### The ledger of a system -/

/-- What the server knows of a socket. -/
def Port.account (p : Port) : Account where
  number := p.number
  outstanding := p.outstanding
  taken := p.taken
  closed := p.closed.length

namespace Port.Then

variable {p p' : Port} {e : Channel.Event} {op : Operation}

/-- Whatever submits nothing is not entered. -/
theorem account (h : p.Then e p') (nothing : e.newcomer?.bind (·.operation?) = none) :
    p'.account = p.account := by
  have outstanding := h.outstanding
  rw [nothing, Option.toList_none, List.append_nil] at outstanding
  rw [Port.account, Port.account, h.number, h.taken, h.closed, outstanding]

theorem account_submitted
    (h : p.Then (.joined p.system (.submission op (.throughSocket op))) p') :
    p'.account = p.account.expecting op := by
  rw [Port.account, h.number, h.taken, h.closed, h.outstanding]
  rfl

end Port.Then

/-- There is one purpose for each ticket. -/
theorem Service.take_of_mem {s : Service} (tickets : (s.waiting.map (·.1)).Nodup) {n : Nat}
    {purpose : Purpose} (h : (n, purpose) ∈ s.waiting) : (s.take n).1 = some purpose := by
  have some : (s.waiting.find? (·.1 == n)).isSome := by
    rw [List.find?_isSome]
    exact ⟨_, h, beq_self_eq_true n⟩
  obtain ⟨w, hw⟩ := Option.isSome_iff_exists.mp some
  have same : w.1 = n := by simpa using List.find?_some hw
  have one := List.inj_on_of_nodup_map tickets (List.mem_of_find?_eq_some hw) h same
  rw [take, hw, one]
  rfl

/-- What the server knows. -/
def System.ledger (s : System) : Ledger := ⟨s.service, s.tasks, s.ports.map (·.account)⟩

section entries
variable {s s' : Service} {tasks l₁ l₂ : List Task} {j j' : Task} {x : Option (Exchange Call)}
  {server : Server} {ports ports' : List Port} {p : Port} {op op₀ : Operation} {purpose : Purpose}
  {listener n : Handler}

/-- Whatever was handed back on a socket is what became of what was submitted. -/
theorem Port.completes {sub : Channel.Submission} (scheduled : op ∈ Channel.scheduled p.history)
    (submitted : .submission op₀ sub ∈ p.system.parties) (ticket : op₀.ticket = op.ticket)
    (awaits : Awaits listener n op₀ purpose) :
    Completes listener op n op₀ purpose (purpose.task op.completion.outcome) := by
  have shape : op.shape = op₀.shape :=
    p.run.shape submitted (Channel.mem_standings_of_scheduled scheduled) ticket.symm
  cases awaits with
  | accept m =>
      obtain ⟨address, fd, work⟩ := Operation.work_of_accept shape
      have outcome : op.completion.outcome = .accepted fd address op.status := by
        simp [Operation.completion, work]
      rw [outcome]
      exact .accept work
  | receive m other =>
      obtain ⟨t, work, frame⟩ := Operation.work_of_receive shape
      have outcome : op.completion.outcome =
          .transferred t.transferred t.buffer t.address t.resultFlags op.status := by
        simp [Operation.completion, work]
      rw [outcome]
      refine .receive other work ?_
      rw [Buffer.data_joined frame]
      simp [Operation.received, work]
  | send m bytes other =>
      obtain ⟨t, work, buffer⟩ := Operation.work_of_send shape
      have outcome : op.completion.outcome =
          .transferred t.transferred t.buffer t.address t.resultFlags op.status := by
        simp [Operation.completion, work]
      rw [outcome]
      refine .send other work fun success => ?_
      obtain ⟨t', work', buffer', all⟩ :=
        p.run.sent_whole p.sound submitted scheduled ticket.symm success
      obtain rfl : t = t' := Work.send.inj (work.symm.trans work')
      have content : (Buffer.single (.whole bytes)).content = bytes :=
        Option.some.inj (Operation.owes_send m bytes)
      have count : t.transferred = bytes.length := by
        rw [all, ← Buffer.length_content, content]
      refine ⟨?_, count⟩
      simp [Operation.sent, work, success, Status.isSuccess, buffer', content, count]

/-- A task that takes a completion is entered. -/
theorem Port.entered {k₁ k₂ : List Port} (scheduled : op ∈ Channel.scheduled p.history)
    (untaken : ∀ o ∈ p.taken, o.ticket ≠ op.ticket)
    (chained : (System.ledger ⟨s, tasks, k₁ ++ p :: k₂⟩).Chained) :
    (System.ledger ⟨s, tasks, k₁ ++ p :: k₂⟩).Step
      (System.ledger ⟨(s.take op.ticket).2,
        tasks ++ ((s.take op.ticket).1.map (·.task op.completion.outcome)).toList,
        k₁ ++ p.took op scheduled :: k₂⟩) := by
  obtain ⟨op₀, sub, o₁, o₂, submitted, ticket, split, only, still⟩ :=
    p.outstanding_of_scheduled scheduled untaken
  obtain ⟨purpose, waiting, awaits⟩ := chained.awaited p.account
    (List.mem_map_of_mem (mem_middle.mpr (.inl rfl))) op₀
    (show op₀ ∈ p.outstanding from split ▸ mem_middle.mpr (.inl rfl))
  rw [ticket] at waiting
  have found : (s.take op.ticket).1 = some purpose := Service.take_of_mem chained.tickets waiting
  have completes := Port.completes scheduled submitted ticket awaits
  rw [found]
  simp only [System.ledger, List.map_append, List.map_cons]
  have account : (p.took op scheduled).account = p.account.took (o₁ ++ o₂) op := by
    rw [Port.account, still]
    rfl
  rw [account]
  exact .completed split completes only waiting

/-- What a request of a task does is entered. -/
theorem Effect.entered (effect : Effect s ports x s' ports')
    (moves : j.Moves s.server x server j') :
    (System.ledger ⟨s, l₁ ++ j :: l₂, ports⟩).Step
      (System.ledger ⟨{ s' with server }, l₁ ++ j' :: l₂, ports'⟩) := by
  cases effect with
  | none => exact .moved moves .none
  | submitted submits there joined =>
      simp only [System.ledger, List.map_append, List.map_cons, joined.account_submitted]
      exact .submitted moves submits there
  | refused fd failure => exact .moved moves (.refused fd failure)
  | adopted fresh =>
      simp only [System.ledger, List.map_append]
      cases moves with
      | adopted c => exact .adopted (List.forall_mem_map.mpr fresh)
  | closed there begun ended =>
      simp only [System.ledger, List.map_append, List.map_cons]
      cases moves with
      | closes => exact .closed .closes there
      | closeFailed status => exact .closed (.closeFailed status) there
  | discarded fd => exact .moved moves (.discarded fd)

end entries

/-- Whatever happens is entered. -/
theorem Step.ledger {s s' : System} (step : Step s s') (chained : s.ledger.Chained) :
    s.ledger.Step s'.ledger := by
  have unentered : ∀ {service : Service} {tasks : List Task} {k₁ k₂ : List Port} {p p' : Port}
      {e : Channel.Event}, p.Then e p' → e.newcomer?.bind (·.operation?) = none →
      (System.ledger ⟨service, tasks, k₁ ++ p :: k₂⟩).Step
        (System.ledger ⟨service, tasks, k₁ ++ p' :: k₂⟩) := by
    intro service tasks k₁ k₂ p p' e happens nothing
    simp only [System.ledger, List.map_append, List.map_cons, happens.account nothing]
    exact .same _
  cases step with
  | task yields effect => exact effect.entered (Task.moves_of_yields yields)
  | closing asked joined => exact unentered joined rfl
  | happened foreign happens => exact unentered happens foreign.brings_nothing.1
  | completed scheduled untaken => exact Port.entered scheduled untaken chained
  | signalled => exact .signalled
  | stopped signalled there joined => exact unentered joined rfl

end Echo
end Proactor
