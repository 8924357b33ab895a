import Proactor.Proofs.Locks
/-! # Lines

The operations of one direction stand in a line: first those that a dispatch or a close holds, then
those that wait in the queue, then those that are parked.

* **Holding** (`Party.held`, `Party.brings`).  What a party has in its hands; the operation that a
  submission brings is not in the line yet.
* **Moves** (`Moves`).  A step leaves the line alone, or a submission joins it at its end, or the
  first in it is handed to the scheduler.  A submission may also finish without joining it.
* **Accounts** (`Run.accounted`).  Nothing is lost and nothing is served twice: every operation that
  was submitted is brought, in line or scheduled, and only once. -/

namespace Proactor

/-- The ticket of an operation if it is of this direction. -/
def Operation.ticketIn (d : Direction) (op : Operation) : Option Nat :=
  if op.direction = d then some op.ticket else none

theorem Operation.ticketIn_self {d : Direction} {op : Operation} (h : op.direction = d) :
    op.ticketIn d = some op.ticket := if_pos h

theorem Operation.ticketIn_eq_none {d : Direction} {op : Operation} (h : op.direction ≠ d) :
    op.ticketIn d = none := if_neg h

theorem Operation.ticket_of_ticketIn {d : Direction} {op : Operation} {n : Nat}
    (h : op.ticketIn d = some n) : op.ticket = n := by
  unfold ticketIn at h
  split at h
  · exact Option.some.inj h
  · cases h

theorem Operation.ticketIn_of_key {op op' : Operation} (h : op'.key = op.key) (d : Direction) :
    op'.ticketIn d = op.ticketIn d := by
  unfold ticketIn
  rw [ticket_eq_of_key h, direction_eq_of_key h]

/-- The tickets of the operations of a direction. -/
def tickets (d : Direction) (ops : List Operation) : List Nat := ops.filterMap (·.ticketIn d)

section tickets
variable (d : Direction)

@[simp] theorem tickets_nil : tickets d [] = [] := rfl

@[simp] theorem tickets_append (l₁ l₂ : List Operation) :
    tickets d (l₁ ++ l₂) = tickets d l₁ ++ tickets d l₂ := List.filterMap_append

theorem tickets_cons (op : Operation) (l : List Operation) :
    tickets d (op :: l) = tickets d [op] ++ tickets d l := tickets_append d [op] l

theorem tickets_of_key {op op' : Operation} (h : op'.key = op.key) :
    tickets d [op'] = tickets d [op] := by
  simp only [tickets, List.filterMap_cons, Operation.ticketIn_of_key h d]

theorem tickets_eq_nil {e : Direction} {ops : List Operation} (h : ∀ op ∈ ops, op.direction = e)
    (hd : d ≠ e) : tickets d ops = [] := by
  refine List.filterMap_eq_nil_iff.mpr fun op ho => ?_
  exact if_neg fun hop => hd (hop.symm.trans (h op ho))

end tickets

namespace Channel

/-! ### Holding -/

/-- The operations that a dispatch holds. -/
def Dispatch.held : Dispatch → List Operation
  | force ops _ _ => ops
  | forcing a ops _ _ => a.op :: ops
  | forced op ops _ _ => op :: ops
  | flush f _ _ => f.held
  | attempt a _ => [a.op]
  | restore op _ | complete op _ => [op]
  | _ => []

/-- The operations that a close holds. -/
def Closing.Phase.held : Closing.Phase → List Operation
  | release ops => ops
  | flush f _ => f.held
  | _ => []

namespace Party

/-- The operations that a party holds in the line. -/
def held : Party → List Operation
  | dispatch d => d.held
  | closing k => k.phase.held
  | _ => []

/-- The operation that a submission has not handed on. -/
def brings : Party → List Operation
  | submission _ s => s.phase.op?.toList
  | _ => []

end Party

/-- The operations of a direction that the channel keeps. -/
def line (c : Channel) (d : Direction) : List Operation :=
  (c.queue d).waiting ++ (c.queue d).parked

/-! ### Moves -/

/-- What a step does to what a submission brings and to the line, and what it hands to the
scheduler, all of one direction. -/
inductive Moves : List Nat → List Nat → List Nat → List Nat → List Nat → Prop
  | none (brought line : List Nat) : Moves brought line [] brought line
  | joined (brought line : List Nat) : Moves brought line [] [] (line ++ brought)
  | served (first line : List Nat) : Moves [] (first ++ line) first [] line
  | finished (brought line : List Nat) : Moves brought line brought [] line

theorem tickets_ofForced (d : Direction) (ops : List Operation) (rest : Option (List Stage))
    (pending : Option Status) (r : Progress) :
    tickets d (Dispatch.ofForced ops rest pending r).held = tickets d [r.op] ++ tickets d ops := by
  rcases Dispatch.ofForced_cases ops rest pending r with ⟨a, h, ha⟩ | ⟨op, pending', h, hk⟩ <;>
    rw [h]
  · rw [← ha, ← tickets_cons]
    rfl
  · rw [← tickets_of_key d hk, ← tickets_cons]
    rfl

theorem tickets_ofSwept (d : Direction) (s : Sweep) (r : Progress) :
    tickets d (Dispatch.ofSwept s r).held = tickets d [r.op] := by
  rcases Dispatch.ofSwept_cases s r with ⟨a, h, rfl⟩ | ⟨op, pending, h, hk⟩ | ⟨op, h, rfl⟩ <;>
    rw [h]
  · rfl
  · exact tickets_of_key d hk
  · rfl

theorem held_route (events : Readiness) (pending : Option Status) :
    (Dispatch.route events pending).held = [] := by
  unfold Dispatch.route
  split
  · rfl
  · split <;> rfl

/-- What one queue hands out or holds of a direction, out of what all of them do. -/
theorem tickets_three {f : Queue → List Operation} {c : Channel}
    (h : ∀ d, ∀ op ∈ f (c.queue d), op.direction = d) (d : Direction) :
    tickets d (f c.receive ++ f c.send ++ f c.connection) = tickets d (f (c.queue d)) := by
  have other : ∀ e, d ≠ e → tickets d (f (c.queue e)) = [] := fun e he =>
    tickets_eq_nil d (h e) he
  have hr := other .receive
  have hs := other .send
  have hc := other .connection
  simp only [queue] at hr hs hc
  cases d with
  | receive => simp [queue, hs, hc]
  | send => simp [queue, hr, hc]
  | connection => simp [queue, hr, hs]

theorem line_update {c c' : Channel} (h : ∀ d, c'.queue d = c.queue d) (d : Direction) :
    c'.line d = c.line d := by
  unfold line
  rw [h d]

theorem line_withQueue_self (c : Channel) (d : Direction) (q : Queue) :
    (c.withQueue d q).line d = q.waiting ++ q.parked := by
  rw [line, queue_withQueue]

theorem line_withQueue_ne (c : Channel) (d : Direction) (q : Queue) (e : Direction) (h : e ≠ d) :
    (c.withQueue d q).line e = c.line e := by
  rw [line, queue_withQueue_ne c q h]
  rfl

theorem line_withQueue {c : Channel} {e : Direction} {q : Queue}
    (h : q.waiting ++ q.parked = c.line e) (d : Direction) :
    (c.withQueue e q).line d = c.line d := by
  by_cases hd : d = e
  · subst hd
    rw [line_withQueue_self]
    exact h
  · exact line_withQueue_ne c e q d hd

theorem line_hinted (c : Channel) (e d : Direction) :
    (c.withQueue e (c.queue e).hinted).line d = c.line d :=
  line_withQueue (q := (c.queue e).hinted) rfl d

theorem Submission.line_abandon (s : Submission) (c : Channel) (d : Direction) :
    (s.abandon c).line d = c.line d := line_update (queue_abandon s c) d

theorem line_pushed {d : Direction} {q : Queue} (h : q.Valid d) (hs : q.isStopped = false)
    (op : Operation) :
    (q.pushed op).waiting ++ (q.pushed op).parked = q.waiting ++ q.parked ++ [op] := by
  have hp : q.parked = [] := Decidable.byContradiction fun hp => by
    have := h.drains (h.parks hp)
    rw [hs] at this
    cases this
  rw [Queue.waiting_pushed]
  simp [Queue.pushed, hp]

theorem Submission.Step.moves {c c' : Channel} {s s' : Submission} {x : Option (Exchange Call)}
    (h : Submission.Step c s x c' s') (valid : ∀ e, (c.queue e).Valid e) (d : Direction) :
    Moves (tickets d s.phase.op?.toList) (tickets d (c.line d))
      (tickets d (handedOver x).toList) (tickets d s'.phase.op?.toList)
      (tickets d (c'.line d)) := by
  -- the step carries the operation on and leaves the line alone
  have kept : ∀ {op op' : Operation} {c' : Channel}, op'.key = op.key →
      c'.line d = c.line d →
      Moves (tickets d [op]) (tickets d (c.line d)) [] (tickets d [op'])
        (tickets d (c'.line d)) := by
    intro op op' c' hk hl
    rw [tickets_of_key d hk, hl]
    exact .none _ _
  -- the step puts the operation at the end of its line
  have joined : ∀ {op : Operation} {q : Queue} {s : Submission},
      q.waiting ++ q.parked = c.line op.direction ++ [op] →
      Moves (tickets d [op]) (tickets d (c.line d)) [] []
        (tickets d ((s.abandon (c.withQueue op.direction q)).line d)) := by
    intro op q s hq
    rw [line_abandon]
    by_cases hd : d = op.direction
    · subst hd
      rw [line_withQueue_self, hq, tickets_append]
      exact .joined _ _
    · rw [line_withQueue_ne c _ q d hd, tickets_eq_nil (e := op.direction) d (by simp) hd]
      exact .none _ _
  cases h with
  | enterJoined _ | enterEarly _ _ _ | enterFirst _ _ _ | enterClosed _ _ =>
      exact kept rfl (line_update (queue_update rfl rfl rfl) d)
  | attachJoined _ =>
      rw [op?_joined]
      exact kept rfl rfl
  | attachDone _ =>
      rw [op?_joined]
      exact kept rfl (line_update (queue_update rfl rfl rfl) d)
  | attachFailed _ | offerStopped _ _ | enlistStopped _ _ => exact kept rfl rfl
  | offerIdle _ _ | enlistHinted _ _ =>
      rw [op?_ofProgress]
      exact kept (Attempt.key_start _) (line_hinted c _ d)
  | attempted reply =>
      rw [op?_ofProgress]
      exact kept (Attempt.key_resume _ _ reply) rfl
  | offerBusy hs _ | enlistWaiting hs _ => exact joined (line_pushed (valid _) hs _)
  | offerDraining _ _ | enlistDraining _ _ => exact joined (List.append_assoc _ _ _).symm
  | completed =>
      rw [line_abandon]
      exact .finished _ _

/-! ### What dispatches and closes do to the line -/

theorem waiting_halted (q : Queue) : q.halted.waiting = [] := rfl

theorem parked_eq_nil_or {d : Direction} {q : Queue} (h : q.Valid d) :
    q.waiting = [] ∨ q.parked = [] := by
  by_cases hp : q.parked = []
  · exact .inr hp
  · apply Or.inl
    have he := h.emptied (h.drains (h.parks hp))
    simp [Queue.waiting, he]

/-- A flush serves the first that it holds, or takes over what was parked. -/
theorem Flush.Step.moves {c c' : Channel} {f f' : Flush} {x : Option (Exchange Call)}
    (h : Flush.Step c f x c' f') (valid : ∀ e, (c.queue e).Valid e) (d : Direction) :
    Moves [] (tickets d (f.held ++ c.line d)) (tickets d (handedOver x).toList) []
      (tickets d (f'.held ++ c'.line d)) := by
  have settled : tickets d (c.settle.2 ++ c.settle.1.line d) = tickets d (c.line d) := by
    have hp : tickets d c.settle.2 = tickets d (c.queue d).parked :=
      tickets_three (f := Queue.parked) (fun e => (valid e).parked) d
    have hl : c.settle.1.line d = (c.queue d).waiting := by
      rw [line, queue_settle]
      exact List.append_nil _
    rw [tickets_append, hp, hl, line, tickets_append]
    rcases parked_eq_nil_or (valid d) with h | h <;> simp [h]
  cases h with
  | emptied => exact .none _ _
  | @completed op rest =>
      have hk := tickets_of_key d (Operation.key_withStatus op .shutdown)
      rw [held, List.cons_append, tickets_cons, ← hk]
      exact .served _ _
  | settled he =>
      rw [he] at settled
      rw [held, held, settled]
      exact .none _ _
  | parked _ =>
      rw [held, held, settled]
      exact .none _ _

/-- What a stop of every queue hands out stands first in the line. -/
theorem tickets_halted {c c' : Channel} (valid : ∀ e, (c.queue e).Valid e) {d : Direction}
    (hq : c'.queue d = (c.queue d).halted) :
    tickets d (c.waiting ++ c'.line d) = tickets d (c.line d) := by
  have hw : tickets d c.waiting = tickets d (c.queue d).waiting :=
    tickets_three (f := Queue.waiting) (fun e => (valid e).waiting) d
  rw [tickets_append, hw, line, line, hq, waiting_halted, tickets_append, tickets_append]
  rfl

theorem Closing.Step.moves {c c' : Channel} {k k' : Closing} {x : Option (Exchange Call)}
    (h : Closing.Step c k x c' k') (hk : ∀ v, k'.phase ≠ .broken v)
    (valid : ∀ e, (c.queue e).Valid e) (idle : c.attached = false → k.phase.held = [])
    (d : Direction) :
    Moves [] (tickets d (k.phase.held ++ c.line d)) (tickets d (handedOver x).toList) []
      (tickets d (k'.phase.held ++ c'.line d)) := by
  cases h with
  | again _ => exact .none _ _
  | @unattached b _ _ =>
      have hl : (shut b c).line d = c.line d := line_update (queue_shut b c) d
      rw [hl]
      exact .none _ _
  | @stopped b x c' _ _ _ hl =>
      have hq : c'.queue d = (c.queue d).halted := by rw [hl.queue, queue_halted, queue_shut]
      have hx : handedOver x = none := by cases hl <;> rfl
      rw [hx]
      show Moves [] (tickets d (c.line d)) [] [] (tickets d (c.waiting ++ c'.line d))
      rw [tickets_halted valid hq]
      exact .none _ _
  | stopBroken _ _ => exact absurd rfl (hk _)
  | released _ => exact .none _ _
  | releasedUnattached ha =>
      rw [idle ha]
      exact .none _ _
  | flushing hf => exact hf.moves valid d
  | flushed => exact .none _ _

/-- It makes no difference to the line whether the head of a queue is in its slot. -/
theorem tickets_headed (c c' : Channel) {d : Direction} {op : Operation}
    (ho : op.direction = d) (h : c.line d = op :: c'.line d)
    (other : ∀ e, e ≠ d → c'.line e = c.line e) (e : Direction) :
    tickets e ([op] ++ c'.line e) = tickets e (c.line e) := by
  by_cases he : e = d
  · subst he
    rw [h]
    rfl
  · rw [tickets_append, tickets_eq_nil (e := d) e (by simp [ho]) he, other e he]
    rfl

theorem Dispatch.Step.moves {c c' : Channel} {d d' : Dispatch} {x : Option (Exchange Call)}
    (h : Dispatch.Step c d x c' d') (fits : d.Fits) (hd' : ∀ v, d' ≠ broken v)
    (valid : ∀ e, (c.queue e).Valid e) (e : Direction) :
    Moves [] (tickets e (d.held ++ c.line e)) (tickets e (handedOver x).toList) []
      (tickets e (d'.held ++ c'.line e)) := by
  have none : ∀ {d' : Dispatch} {c' : Channel}, tickets e d'.held = tickets e d.held →
      c'.line e = c.line e →
      Moves [] (tickets e (d.held ++ c.line e)) [] [] (tickets e (d'.held ++ c'.line e)) := by
    intro d' c' hh hl
    rw [tickets_append, tickets_append, hh, hl]
    exact .none _ _
  cases h with
  | enterIgnored _ _ | forceNone | flushedInput | narrowSkipped _ | sweptBehind
  | sweepStopped _ | checkOutEmpty _ | checkOutBeyond _ _ | checkOutSkipped _ _ _ =>
      exact none rfl rfl
  | enterFailed _ _ _ | flushedAll | narrowed _ _ | swept | rearmSkipped _ | rearmed _ _ =>
      exact none rfl (line_update (queue_update rfl rfl rfl) e)
  | enterReady _ _ _ =>
      refine none ?_ (line_update (queue_update rfl rfl rfl) e)
      rw [held_route]
      rfl
  | queried _ =>
      refine none ?_ rfl
      rw [held_route]
      rfl
  | @hungUp pending x c' hw hl =>
      have hq : c'.queue e = (c.queue e).halted := by rw [hl.queue, queue_halted]
      have hx : handedOver x = Option.none := by cases hl <;> rfl
      rw [hx]
      show Moves [] (tickets e (c.line e)) [] [] (tickets e (c.waiting ++ c'.line e))
      rw [tickets_halted valid hq]
      exact .none _ _
  | hangUpBroken _ | endInputBroken _ | checkOutBroken _ | restoreBroken _ | retireBroken _ =>
      exact absurd rfl (hd' _)
  | @inputEnded rest pending hw =>
      show Moves [] (tickets e (c.line e)) [] []
        (tickets e (c.receive.waiting ++ (c.withQueue .receive c.receive.halted).line e))
      by_cases hr : e = .receive
      · subst hr
        rw [line_withQueue_self]
        exact .none _ _
      · have hw := tickets_eq_nil e (valid .receive).waiting hr
        simp only [queue] at hw
        rw [tickets_append, hw, line_withQueue_ne c .receive _ e hr]
        exact .none _ _
  | @forceNext op ops rest pending =>
      refine none ?_ rfl
      rw [tickets_ofForced, tickets_of_key e (Attempt.key_start op), ← tickets_cons]
      rfl
  | @forcing a ops rest pending reply =>
      refine none ?_ rfl
      rw [tickets_ofForced, tickets_of_key e (Attempt.key_resume _ _ reply), ← tickets_cons]
      rfl
  | @forced op ops rest pending =>
      show Moves [] (tickets e (op :: (ops ++ c.line e))) (tickets e [op]) []
        (tickets e (ops ++ c.line e))
      rw [tickets_cons]
      exact .served _ _
  | flushing hf => exact hf.moves valid e
  | @sweepBegun stage _ _ _ _ =>
      exact none rfl (line_withQueue (q := { c.queue stage.direction with state := .set }) rfl e)
  | @checkOutReady s n op rest he hb hw =>
      have ho := (valid s.stage.direction).waiting op (by simp [Queue.waiting, he])
      have hh := tickets_headed c (c.withQueue s.stage.direction
        { c.queue s.stage.direction with entries := ⟨n, Option.none⟩ :: rest }) ho
        (by simp [line, Queue.waiting, he]) (line_withQueue_ne c _ _) e
      rw [tickets_append e (ofSwept _ _).held, tickets_ofSwept,
        tickets_of_key e (Attempt.key_start op), ← tickets_append, hh]
      exact .none _ _
  | @attempted a s reply =>
      refine none ?_ rfl
      rw [tickets_ofSwept, tickets_of_key e (Attempt.key_resume _ _ reply)]
      rfl
  | @restored op s n rest he =>
      have hh := tickets_headed (c.withQueue s.stage.direction
        { c.queue s.stage.direction with
          state := .clear, entries := ⟨n, some op⟩ :: rest }) c fits
        (by simp [line, Queue.waiting, he]) (fun e he => (line_withQueue_ne c _ _ e he).symm) e
      show Moves [] (tickets e ([op] ++ c.line e)) [] [] (tickets e (line _ e))
      rw [hh]
      exact .none _ _
  | @completed op s =>
      show Moves [] (tickets e (op :: c.line e)) (tickets e [op]) [] (tickets e (c.line e))
      rw [tickets_cons]
      exact .served _ _
  | @retired s n rest he =>
      refine none rfl (line_withQueue ?_ e)
      simp [line, Queue.waiting, he]

/-- What a step does to the line, and to the operation that a submission brings. -/
theorem Party.Step.moves {c c' : Channel} {p p' : Party} {x : Option (Exchange Call)}
    (h : Step c p x c' p') (hp : p.Intact) (hp' : p'.Intact) (valid : ∀ e, (c.queue e).Valid e)
    (idle : c.attached = false → p.held = []) (d : Direction) :
    Moves (tickets d p.brings) (tickets d (p.held ++ c.line d)) (tickets d (handedOver x).toList)
      (tickets d p'.brings) (tickets d (p'.held ++ c'.line d)) := by
  cases h with
  | submission h => exact h.moves valid d
  | attachment h =>
      have hx : handedOver x = none := by cases h <;> rfl
      have hl : c'.line d = c.line d := line_update h.queue d
      rw [hx]
      show Moves [] (tickets d (c.line d)) [] [] (tickets d (c'.line d))
      rw [hl]
      exact .none _ _
  | dispatch h => exact h.moves hp.2 hp'.1 valid d
  | closing h => exact h.moves hp' valid idle d

end Channel
end Proactor
