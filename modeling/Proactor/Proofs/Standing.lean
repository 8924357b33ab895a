import Proactor.Proofs.Stream
/-! # How an operation stands

What a step of a party does to the operations that it has, that wait in the queues, or that it
hands to the scheduler.

* **Standing** (`Standing`).  An operation waits, is attempted, or is done.
* **Trying** (`Party.tries`).  The operation with whose attempt the next step of a party goes on,
  or whose attempt it begins.  Something becomes of it (`Party.Step.goes_on`,
  `Party.Step.begins`).
* **Outcomes** (`Became`).  What a part of an attempt leads to.  A dispatch may give an operation
  that is not ready, or that failed, another failure for its status.
* **Origins** (`Party.Step.comes`).  Whoever is not tried stands as before, or has been turned
  away (`Onward`). -/

namespace Proactor

/-- How an operation stands. -/
inductive Standing where
  /-- Nobody attempts it: its submission brings it, it is in a queue, or a stop handed it out. -/
  | waiting (op : Operation)
  /-- A system call is next. -/
  | trying (attempt : Attempt)
  /-- It has its result; it is to be scheduled, or was. -/
  | done (op : Operation)

namespace Standing

def op : Standing → Operation
  | waiting op | done op => op
  | trying a => a.op

/-- How an operation stands after a part of an attempt. -/
def ofProgress : Progress → Standing
  | .calling a => trying a
  | .ready op => done op
  | .notReady op => waiting op

@[simp] theorem op_ofProgress (r : Progress) : (ofProgress r).op = r.op := by
  cases r <;> rfl

theorem map_op_waiting (ops : List Operation) : (ops.map waiting).map op = ops := by
  rw [List.map_map]
  exact List.map_id ops

end Standing

/-- What becomes of an operation after a part of an attempt. -/
inductive Became : Progress → Standing → Prop
  | itself (r : Progress) : Became r (.ofProgress r)
  /-- Its failure is reported as another one. -/
  | instead {op : Operation} {status : Status} (failed : op.status ≠ .success)
      (hs : status ≠ .success) : Became (.ready op) (.done (op.withStatus status))
  /-- It is not attempted again. -/
  | givenUp {op : Operation} {status : Status} (hs : status ≠ .success) :
      Became (.notReady op) (.done (op.withStatus status))

theorem Became.key {r : Progress} {σ : Standing} (h : Became r σ) : σ.op.key = r.op.key := by
  cases h with
  | itself _ => rw [Standing.op_ofProgress]
  | instead _ _ => rfl
  | givenUp _ => rfl

theorem Became.work {r : Progress} {σ : Standing} (h : Became r σ) : σ.op.work = r.op.work := by
  cases h with
  | itself _ => rw [Standing.op_ofProgress]
  | instead _ _ => rfl
  | givenUp _ => rfl

theorem Became.calling {r : Progress} {a : Attempt} (h : Became r (.trying a)) : r = .calling a := by
  generalize hσ : Standing.trying a = σ at h
  cases h with
  | itself r =>
      cases r <;> cases hσ
      rfl
  | _ => cases hσ

/-- Only the number `0` says success. -/
theorem Status.ofErrno_eq_success (n : Int) : Status.ofErrno n = .success ↔ n = 0 := by
  refine ⟨fun h => ?_, fun h => h ▸ Status.ofErrno_zero⟩
  unfold Status.ofErrno at h
  split at h <;> first | rfl | cases h

/-- How an operation stands after a part of an attempt, made by a party with this pending error; it
may be the last attempt of the operation. -/
def Standing.after (pending : Option Status) (last : Bool) : Progress → Standing
  | .calling a => trying a
  | .ready op => done (Channel.Dispatch.takePending op pending).1
  | .notReady op =>
    match pending with
    | some status => done (op.withStatus status)
    | none => if last then done (op.withStatus .shutdown) else waiting op

/-- A success stays as it is. -/
theorem Standing.after_of_success {op : Operation} (h : op.status = .success)
    (pending : Option Status) (last : Bool) : after pending last (.ready op) = done op := by
  simp [after, Channel.Dispatch.takePending, h, Status.isSuccess]

namespace Channel

/-! ### Where everything stands -/

def Submission.Phase.standings : Submission.Phase → List Standing
  | enter op | attach op _ | offer op | enlist op => [.waiting op]
  | attempt a _ => [.trying a]
  | complete op => [.done op]
  | answered _ | broken _ => []

def Dispatch.standings : Dispatch → List Standing
  | force ops _ _ => ops.map .waiting
  | forcing a ops _ _ => .trying a :: ops.map .waiting
  | forced op ops _ _ => .done op :: ops.map .waiting
  | flush f _ _ => f.held.map .waiting
  | attempt a _ => [.trying a]
  | restore op _ => [.waiting op]
  | complete op _ => [.done op]
  | _ => []

/-- How the operations stand that a party has. -/
def Party.standings : Party → List Standing
  | submission _ s => s.phase.standings
  | attachment _ => []
  | dispatch d => d.standings
  | closing k => k.phase.held.map .waiting

/-- How everything stands. -/
def System.standings (t : List Event) (s : System) : List Standing :=
  s.parties.flatMap (·.standings) ++
    (s.channel.line .receive ++ s.channel.line .send ++ s.channel.line .connection).map .waiting ++
    (scheduled t).map .done

/-- A party has an operation that stands so, or the channel keeps one. -/
inductive Party.Has (c : Channel) (p : Party) : Standing → Prop
  | own {σ : Standing} (h : σ ∈ p.standings) : Has c p σ
  | line {op : Operation} (d : Direction) (h : op ∈ c.line d) : Has c p (.waiting op)

/-- The operation of which the next step of a party begins an attempt. -/
def Party.begins? (c : Channel) : Party → Option Operation
  | submission _ ⟨_, .enter op⟩ =>
    if c.attached = false ∧ c.isOpen = true ∧ op.isConnect = true then some op else none
  | submission _ ⟨_, .offer op⟩ =>
    match (c.queue op.direction).offer op with
    | .ok (_, .attempt op) => some op
    | _ => none
  | submission _ ⟨_, .enlist op⟩ =>
    match (c.queue op.direction).enlist op with
    | .ok (_, .retry op) => some op
    | _ => none
  | dispatch (.force (op :: _) _ _) => some op
  | dispatch (.checkOut s) =>
    match (c.queue s.stage.direction).checkOut s.bound s.stage.wants with
    | .ok (_, .ready op) => some op
    | _ => none
  | _ => none

/-- The operation of which the next step of a party is a part of an attempt. -/
def Party.tries (c : Channel) (p : Party) : Option Operation :=
  (p.attempt?.map (·.op)).or (p.begins? c)

/-- How an operation stands after a step of a party that did not try it. -/
inductive Onward (c : Channel) (p : Party) (x : Option (Exchange Call)) :
    Standing → Standing → Prop
  | same (σ : Standing) : Onward c p x σ σ
  | stopped (op : Operation) : Onward c p x (.waiting op) (.done (op.withStatus .shutdown))
  /-- The channel could not join the reactor. -/
  | refused {o op : Operation} {g tried : Bool} {e : Errno} (ha : c.attached = false)
      (hp : p = .submission o ⟨g, .attach op tried⟩)
      (hx : x = some ⟨.register c.fd .standard, .error e⟩) :
      Onward c p x (.waiting op) (.done (op.withStatus (.ofError e)))

theorem Onward.key {c : Channel} {p : Party} {x : Option (Exchange Call)} {σ σ' : Standing}
    (h : Onward c p x σ σ') : σ'.op.key = σ.op.key := by
  cases h <;> rfl

theorem Onward.work {c : Channel} {p : Party} {x : Option (Exchange Call)} {σ σ' : Standing}
    (h : Onward c p x σ σ') : σ'.op.work = σ.op.work := by
  cases h <;> rfl

/-- The pending error that a dispatch carries along. -/
def Dispatch.pending : Dispatch → Option Status
  | hangUp pending | endInput _ pending | force _ _ pending | forcing _ _ _ pending
  | forced _ _ _ pending | flush _ _ pending | narrow _ pending | sweep _ _ pending
  | rearm pending => pending
  | checkOut s | attempt _ s | restore _ s | complete _ s | retire s => s.pending
  | enter _ | query _ | ended | broken _ => none

/-- The pending error that a party has to hand out. -/
def Party.pending : Party → Option Status
  | dispatch k => k.pending
  | _ => none

/-- The party attempts operations for the last time. -/
def Party.last : Party → Bool
  | dispatch (.force ..) | dispatch (.forcing ..) => true
  | _ => false

variable {use : Party → Prop} {c c' : Channel} {p p' : Party} {x : Option (Exchange Call)}
  {t : List Event} {s : System} {d : Direction} {op : Operation} {σ σ' : Standing}

/-- Who begins an attempt is not in one. -/
theorem Party.attempt?_of_begins (h : p.begins? c = some op) : p.attempt? = none := by
  unfold begins? at h
  split at h <;> first | rfl | cases h

theorem Party.tries_of_begins (h : p.begins? c = some op) : p.tries c = some op := by
  rw [tries, attempt?_of_begins h, h]
  rfl

theorem Party.op_standings (p : Party) : p.standings.map Standing.op = p.brings ++ p.held := by
  cases p with
  | submission _ s =>
      obtain ⟨g, phase⟩ := s
      cases phase <;> rfl
  | attachment _ => rfl
  | dispatch k =>
      cases k with
      | force ops _ _ => exact Standing.map_op_waiting ops
      | forcing a ops _ _ => exact congrArg (a.op :: ·) (Standing.map_op_waiting ops)
      | forced op ops _ _ => exact congrArg (op :: ·) (Standing.map_op_waiting ops)
      | flush f _ _ => exact Standing.map_op_waiting f.held
      | _ => rfl
  | closing k => exact Standing.map_op_waiting k.phase.held

/-! ### Where the queues get what they keep -/

theorem mem_line_withQueue {e : Direction} {q : Queue} {P : Prop}
    (h : op ∈ (c.withQueue e q).line d) (hq : op ∈ q.waiting ++ q.parked → op ∈ c.line e ∨ P) :
    op ∈ c.line d ∨ P := by
  by_cases hd : d = e
  · subst hd
    rw [line_withQueue_self] at h
    exact hq h
  · rw [line_withQueue_ne c e q d hd] at h
    exact .inl h

theorem Submission.Step.line_origin {s s' : Submission} (h : Submission.Step c s x c' s')
    (ho : op ∈ c'.line d) : op ∈ c.line d ∨ .waiting op ∈ s.phase.standings := by
  -- the queue takes the operation of the submission and keeps what it had
  have added : ∀ {o : Operation} {q : Queue} {s : Submission},
      (∀ op, op ∈ q.waiting ++ q.parked → op ∈ c.line o.direction ∨ op = o) →
      op ∈ (s.abandon (c.withQueue o.direction q)).line d →
      op ∈ c.line d ∨ Standing.waiting op ∈ [Standing.waiting o] := by
    intro o q s hq ho
    rw [line_abandon] at ho
    refine mem_line_withQueue ho fun h => (hq op h).imp id ?_
    rintro rfl
    exact .head _
  cases h with
  | enterJoined _ | enterClosed _ _ | enterEarly _ _ _ | enterFirst _ _ _ | attachDone _ =>
      rw [line_update (queue_update rfl rfl rfl)] at ho
      exact .inl ho
  | attachJoined _ | attachFailed _ | offerStopped _ _ | attempted _ | enlistStopped _ _ =>
      exact .inl ho
  | completed =>
      rw [line_abandon] at ho
      exact .inl ho
  | offerIdle _ _ | enlistHinted _ _ =>
      rw [line_hinted] at ho
      exact .inl ho
  | offerBusy _ _ | enlistWaiting _ _ => exact added (fun _ => Queue.mem_pushed) ho
  | offerDraining _ _ | enlistDraining _ _ => exact added (fun _ => Queue.mem_park) ho

theorem line_settle : c.settle.1.line d = (c.queue d).waiting := by
  rw [line, queue_settle]
  exact List.append_nil _

theorem Flush.Step.line_origin {f f' : Flush} (h : Flush.Step c f x c' f')
    (ho : op ∈ c'.line d) : op ∈ c.line d := by
  cases h with
  | emptied | completed => exact ho
  | settled _ | parked _ =>
      rw [line_settle] at ho
      exact List.mem_append_left _ ho

theorem line_of_halted (hq : c'.queue d = (c.queue d).halted) (ho : op ∈ c'.line d) :
    op ∈ c.line d := by
  rw [line, hq] at ho
  exact List.mem_append_right _ ho

theorem Dispatch.Step.line_origin {k k' : Dispatch} (h : Dispatch.Step c k x c' k')
    (hk : ∀ v, k' ≠ broken v) (ho : op ∈ c'.line d) :
    op ∈ c.line d ∨ .waiting op ∈ k.standings := by
  cases h with
  | hungUp _ hl =>
      have hq : c'.queue d = (c.queue d).halted := by rw [hl.queue, queue_halted]
      exact .inl (line_of_halted hq ho)
  | inputEnded _ =>
      exact mem_line_withQueue ho fun h => .inl (List.mem_append_right _ h)
  | hangUpBroken _ | endInputBroken _ | checkOutBroken _ | restoreBroken _ | retireBroken _ =>
      exact absurd rfl (hk _)
  | flushing hf => exact .inl (hf.line_origin ho)
  | sweepBegun _ => exact mem_line_withQueue ho .inl
  | checkOutReady he _ _ =>
      refine mem_line_withQueue ho fun h => .inl ?_
      simp only [line, Queue.waiting, he, List.filterMap_cons, List.mem_append] at h ⊢
      exact h.imp (List.mem_cons_of_mem _) id
  | restored he =>
      refine mem_line_withQueue ho fun h => ?_
      simp only [line, Queue.waiting, he, List.filterMap_cons, List.mem_append,
        List.mem_cons] at h ⊢
      rcases h with (rfl | h) | h
      · exact .inr (.head _)
      · exact .inl (.inl h)
      · exact .inl (.inr h)
  | retired he =>
      refine mem_line_withQueue ho fun h => .inl ?_
      simp only [line, Queue.waiting, he, List.filterMap_cons, List.mem_append] at h ⊢
      exact h
  | _ =>
      rw [line_update (queue_update rfl rfl rfl)] at ho
      exact .inl ho

/-- What is in a queue was there before, or the party has put it in. -/
theorem Party.Step.line_origin (h : Step c p x c' p') (hp' : p'.Intact) (ho : op ∈ c'.line d) :
    p.Has c (.waiting op) := by
  have has : op ∈ c.line d ∨ .waiting op ∈ p.standings := by
    cases h with
    | submission h => exact h.line_origin ho
    | attachment h =>
        rw [line_update h.queue] at ho
        exact .inl ho
    | dispatch h => exact h.line_origin hp'.1 ho
    | closing h =>
        cases h with
        | unattached _ _ =>
            rw [line_update (Closing.queue_shut _ _)] at ho
            exact .inl ho
        | stopped _ _ _ hl =>
            have hq : c'.queue d = (c.queue d).halted := by
              rw [hl.queue, queue_halted, Closing.queue_shut]
            exact .inl (line_of_halted hq ho)
        | stopBroken _ _ => exact absurd rfl (hp' _)
        | flushing hf => exact .inl (hf.line_origin ho)
        | _ => exact .inl ho
  exact has.elim (.line d) .own

/-! ### Where the parties get what they have -/

/-- How an operation stands after a step that it was not tried in is how it stood before, or it has
been turned away. -/
def Party.Comes (c : Channel) (x : Option (Exchange Call)) (p : Party) (σ' : Standing) : Prop :=
  (∃ op, p.tries c = some op ∧ σ'.op.key = op.key) ∨ ∃ σ, p.Has c σ ∧ Onward c p x σ σ'

theorem Party.Comes.own (h : σ ∈ p.standings) : p.Comes c x σ := .inr ⟨σ, .own h, .same σ⟩

theorem Party.Comes.of_line (h : op ∈ c.line d) : p.Comes c x (.waiting op) :=
  .inr ⟨_, .line d h, .same _⟩

theorem mem_line_of_waiting (h : op ∈ c.waiting) : ∃ d, op ∈ c.line d := by
  simp only [waiting, List.mem_append] at h
  rcases h with (h | h) | h
  · exact ⟨.receive, List.mem_append_left _ h⟩
  · exact ⟨.send, List.mem_append_left _ h⟩
  · exact ⟨.connection, List.mem_append_left _ h⟩

theorem mem_line_of_settle (h : op ∈ c.settle.2) : ∃ d, op ∈ c.line d := by
  simp only [settle, Queue.settle, List.mem_append] at h
  rcases h with (h | h) | h
  · exact ⟨.receive, List.mem_append_right _ h⟩
  · exact ⟨.send, List.mem_append_right _ h⟩
  · exact ⟨.connection, List.mem_append_right _ h⟩

theorem Submission.standings_ofProgress (early : Bool) (r : Progress) :
    (Submission.Phase.ofProgress early r).standings = [.ofProgress r] := by
  cases r with
  | calling a => rfl
  | ready op => rfl
  | notReady op => cases early <;> rfl

theorem Submission.standings_joined (op : Operation) (tried : Bool) :
    (Submission.Phase.joined op tried).standings = [.waiting op] := by
  cases tried <;> rfl

theorem Submission.Step.comes {o : Operation} {s s' : Submission} (h : Submission.Step c s x c' s')
    (hs : σ' ∈ s'.phase.standings) : (Party.submission o s).Comes c x σ' := by
  have own : ∀ {σ : Standing}, σ' ∈ [σ] → σ ∈ s.phase.standings →
      (Party.submission o s).Comes c x σ' := by
    intro σ hs h
    rw [List.mem_singleton.mp hs]
    exact .own h
  have tried : ∀ {r : Progress} {op : Operation}, σ' ∈ [Standing.ofProgress r] →
      (Party.submission o s).tries c = some op → r.op.key = op.key →
      (Party.submission o s).Comes c x σ' := by
    intro r op hs ht hk
    rw [List.mem_singleton.mp hs]
    exact .inl ⟨op, ht, by rw [Standing.op_ofProgress, hk]⟩
  cases h with
  | enterJoined _ | enterFirst _ _ _ => exact own hs (.head _)
  | enterClosed _ _ | offerStopped _ _ | enlistStopped _ _ =>
      rw [List.mem_singleton.mp hs]
      exact .inr ⟨_, .own (.head _), .stopped _⟩
  | @enterEarly g op ha ho hc =>
      have begins : (Party.submission o ⟨g, .enter op⟩).begins? c = some op := if_pos ⟨ha, ho, hc⟩
      rw [List.mem_singleton.mp hs]
      exact .inl ⟨op, begins, rfl⟩
  | attachJoined _ | attachDone _ =>
      rw [standings_joined] at hs
      exact own hs (.head _)
  | attachFailed ha =>
      rw [List.mem_singleton.mp hs]
      exact .inr ⟨_, .own (.head _), .refused ha rfl rfl⟩
  | @offerIdle _ op hq he =>
      rw [standings_ofProgress] at hs
      refine tried hs ?_ (Attempt.key_start op)
      simp [Party.tries, Party.attempt?, Party.begins?, Queue.offer_idle op hq he]
  | @enlistHinted _ op hq he =>
      rw [standings_ofProgress] at hs
      refine tried hs ?_ (Attempt.key_start op)
      simp [Party.tries, Party.attempt?, Party.begins?, Queue.enlist_hinted op hq he]
  | @attempted _ a _ reply =>
      rw [standings_ofProgress] at hs
      exact tried hs rfl (Attempt.key_resume a c.fd reply)
  | offerBusy _ _ | offerDraining _ _ | enlistWaiting _ _ | enlistDraining _ _ | completed =>
      cases hs

theorem Dispatch.standings_route (events : Readiness) (pending : Option Status) :
    (route events pending).standings = [] := by
  rcases route_cases events pending with h | ⟨todo, h⟩ | ⟨todo, h⟩ <;> rw [h] <;> rfl

/-- An operation that takes the pending error had failed before. -/
theorem Dispatch.became_takePending {pending : Option Status} (hp : pending ≠ some .success)
    (op : Operation) : Became (.ready op) (.done (takePending op pending).1) := by
  cases hs : op.status.isSuccess with
  | true =>
      have same : (takePending op pending).1 = op := by simp [takePending, hs]
      rw [same]
      exact .itself _
  | false =>
      cases pending with
      | none =>
          have same : (takePending op none).1 = op := by simp [takePending, hs]
          rw [same]
          exact .itself _
      | some status =>
          have taken : (takePending op (some status)).1 = op.withStatus status := by
            simp [takePending, hs]
          rw [taken]
          refine .instead (fun h => ?_) fun h => hp (congrArg some h)
          rw [h] at hs
          cases hs

/-- No party makes a failure a success. -/
theorem became_after {pending : Option Status} (hp : pending ≠ some .success) (last : Bool)
    (r : Progress) : Became r (.after pending last r) := by
  cases r with
  | calling a => exact .itself _
  | ready op => exact Dispatch.became_takePending hp op
  | notReady op =>
      cases pending with
      | some status => exact .givenUp fun h => hp (congrArg some h)
      | none =>
          cases last with
          | true => exact .givenUp nofun
          | false => exact .itself _

/-- What a dispatch makes of a part of the last attempt of an operation. -/
theorem Dispatch.standings_ofForced (ops : List Operation) (rest : Option (List Stage))
    (pending : Option Status) (r : Progress) :
    (ofForced ops rest pending r).standings = .after pending true r :: ops.map .waiting := by
  cases r with
  | calling a | ready op => rfl
  | notReady op => cases pending <;> rfl

/-- What a dispatch makes of a part of an attempt of the head of a queue. -/
theorem Dispatch.standings_ofSwept (sw : Sweep) (r : Progress) :
    (ofSwept sw r).standings = [.after sw.pending false r] := by
  cases r with
  | calling a | ready op => rfl
  | notReady op => cases hq : sw.pending <;> simp [ofSwept, hq, standings, Standing.after]

theorem Flush.Step.comes {f f' : Flush} (h : Flush.Step c f x c' f')
    (ho : op ∈ f'.held) : op ∈ f.held ∨ ∃ d, op ∈ c.line d := by
  cases h with
  | emptied | settled _ => cases ho
  | completed => exact .inl (List.mem_cons_of_mem _ ho)
  | parked _ => exact .inr (mem_line_of_settle ho)

theorem Closing.Step.comes {k k' : Closing} (h : Closing.Step c k x c' k')
    (hs : σ' ∈ (Party.closing k').standings) : (Party.closing k).Comes c x σ' := by
  obtain ⟨op, ho, rfl⟩ := List.mem_map.mp hs
  cases h with
  | stopped _ _ _ _ =>
      obtain ⟨d, hd⟩ := mem_line_of_waiting ho
      exact .of_line hd
  | released _ => exact .own (List.mem_map_of_mem ho)
  | flushing hf =>
      rcases hf.comes ho with ho | ⟨d, hd⟩
      · exact .own (List.mem_map_of_mem ho)
      · exact .of_line hd
  | _ => cases ho

theorem Dispatch.Step.comes {k k' : Dispatch} (h : Dispatch.Step c k x c' k')
    (hp : k.pending ≠ some .success) (hs : σ' ∈ k'.standings) :
    (Party.dispatch k).Comes c x σ' := by
  have drained : ∀ {ops : List Operation}, (∀ op ∈ ops, ∃ d, op ∈ c.line d) →
      σ' ∈ ops.map .waiting → (Party.dispatch k).Comes c x σ' := by
    intro ops hl hs
    obtain ⟨op, ho, rfl⟩ := List.mem_map.mp hs
    obtain ⟨d, hd⟩ := hl op ho
    exact .of_line hd
  have tried : ∀ {r : Progress} {op : Operation} {σ : Standing}, Became r σ →
      (Party.dispatch k).tries c = some op → r.op.key = op.key →
      (Party.dispatch k).Comes c x σ := by
    intro r op σ hb ht hk
    exact .inl ⟨op, ht, hb.key.trans hk⟩
  cases h with
  | hungUp _ _ => exact drained (fun _ => mem_line_of_waiting) hs
  | inputEnded _ => exact drained (fun op ho => ⟨.receive, List.mem_append_left _ ho⟩) hs
  | @forceNext op ops rest pending =>
      rw [standings_ofForced] at hs
      rcases List.mem_cons.mp hs with rfl | hs
      · exact tried (became_after hp _ _) rfl (Attempt.key_start op)
      · exact .own (List.mem_cons_of_mem _ hs)
  | @forcing a ops rest pending reply =>
      rw [standings_ofForced] at hs
      rcases List.mem_cons.mp hs with rfl | hs
      · exact tried (became_after hp _ _) rfl (Attempt.key_resume a c.fd reply)
      · exact .own (List.mem_cons_of_mem _ hs)
  | forced => exact .own (List.mem_cons_of_mem _ hs)
  | flushing hf =>
      obtain ⟨op, ho, rfl⟩ := List.mem_map.mp hs
      rcases hf.comes ho with ho | ⟨d, hd⟩
      · exact .own (List.mem_map_of_mem ho)
      · exact .of_line hd
  | @checkOutReady sw m op rest he hb hw =>
      rw [standings_ofSwept, List.mem_singleton] at hs
      subst hs
      refine tried (became_after hp _ _) ?_ (Attempt.key_start op)
      simp [Party.tries, Party.attempt?, Party.begins?, Queue.checkOut_ready he hb hw]
  | @attempted a sw reply =>
      rw [standings_ofSwept, List.mem_singleton] at hs
      subst hs
      exact tried (became_after hp _ _) rfl (Attempt.key_resume a c.fd reply)
  | enterReady _ _ _ | queried _ =>
      rw [standings_route] at hs
      cases hs
  | _ => cases hs

/-- A dispatch that lets no success pass for a pending error. -/
def Party.Pends : Party → Prop
  | dispatch k => k.pending ≠ some .success
  | _ => True

/-- What a party has after a step comes from what it had, or from the queues, or was tried. -/
theorem Party.Step.comes (h : Party.Step c p x c' p') (hp : p.Pends) (hs : σ' ∈ p'.standings) :
    p.Comes c x σ' := by
  cases h with
  | submission h => exact h.comes hs
  | attachment h => cases hs
  | dispatch h => exact h.comes hp hs
  | closing h => exact h.comes hs

/-- What is handed to the scheduler was done, or it is turned away. -/
theorem Party.Step.schedules (h : Party.Step c p x c' p') (hx : Channel.handedOver x = some op) :
    ∃ σ, p.Has c σ ∧ Onward c p x σ (.done op) := by
  have flushed : ∀ {f f' : Flush} {x : Option (Exchange Call)}, Flush.Step c f x c' f' →
      Channel.handedOver x = some op →
      ∃ o ∈ f.held, op = o.withStatus .shutdown := by
    intro f f' x hf hx
    cases hf with
    | completed =>
        cases hx
        exact ⟨_, .head _, rfl⟩
    | _ => cases hx
  cases h with
  | submission h =>
      cases h with
      | completed =>
          cases hx
          exact ⟨_, .own (.head _), .same _⟩
      | _ => cases hx
  | attachment h => cases h <;> cases hx
  | dispatch h =>
      cases h with
      | hungUp _ hl => cases hl <;> cases hx
      | forced | completed =>
          cases hx
          exact ⟨_, .own (.head _), .same _⟩
      | flushing hf =>
          obtain ⟨o, ho, rfl⟩ := flushed hf hx
          exact ⟨_, .own (List.mem_map_of_mem ho), .stopped o⟩
      | _ => cases hx
  | closing h =>
      cases h with
      | stopped _ _ _ hl => cases hl <;> cases hx
      | flushing hf =>
          obtain ⟨o, ho, rfl⟩ := flushed hf hx
          exact ⟨_, .own (List.mem_map_of_mem ho), .stopped o⟩
      | _ => cases hx

/-! ### Pending errors -/

theorem Dispatch.fetched_ne_success (reply : Except Int Int) : fetched reply ≠ some .success := by
  intro h
  unfold fetched at h
  split at h
  · cases h
  · next n hn =>
    exact hn ((Status.ofErrno_eq_success n).mp (Option.some.inj h))
  · cases h

theorem Dispatch.pending_route (events : Readiness) (pending : Option Status) :
    (route events pending).pending = pending := by
  rcases route_cases events pending with h | ⟨todo, h⟩ | ⟨todo, h⟩ <;> rw [h] <;> rfl

theorem Dispatch.takePending_ne_success {pending : Option Status} (hp : pending ≠ some .success)
    (op : Operation) : (takePending op pending).2 ≠ some .success := by
  unfold takePending
  split
  · exact hp
  · cases pending <;> nofun

theorem Dispatch.pending_ofForced (ops : List Operation) (rest : Option (List Stage))
    {pending : Option Status} (hp : pending ≠ some .success) (r : Progress) :
    (ofForced ops rest pending r).pending ≠ some .success := by
  cases r with
  | calling a => exact hp
  | ready op => exact takePending_ne_success hp op
  | notReady op => nofun

theorem Dispatch.pending_ofSwept {sw : Sweep} (hp : sw.pending ≠ some .success) (r : Progress) :
    (ofSwept sw r).pending ≠ some .success := by
  cases r with
  | calling a => exact hp
  | ready op => exact takePending_ne_success hp op
  | notReady op =>
      unfold ofSwept
      cases hs : sw.pending with
      | none =>
          dsimp only [pending]
          rw [hs]
          nofun
      | some status => nofun

theorem Dispatch.Step.pends {k k' : Dispatch} (h : Dispatch.Step c k x c' k')
    (hp : k.pending ≠ some .success) : k'.pending ≠ some .success := by
  cases h with
  | enterReady _ _ _ =>
      rw [pending_route]
      nofun
  | queried reply =>
      rw [pending_route]
      exact fetched_ne_success reply
  | forceNext => exact pending_ofForced _ _ hp _
  | forcing _ => exact pending_ofForced _ _ hp _
  | checkOutReady _ _ _ => exact pending_ofSwept hp _
  | attempted _ => exact pending_ofSwept hp _
  | enterIgnored _ _ | enterFailed _ _ _ | hangUpBroken _ | endInputBroken _ | flushedAll | swept
  | checkOutBroken _ | restoreBroken _ | retireBroken _ | rearmSkipped _ | rearmed _ _ => nofun
  | _ => exact hp

/-- No dispatch ever has a success to report as an error. -/
theorem Run.pends (run : Run use t s) : ∀ p ∈ s.parties, p.Pends := by
  induction run with
  | start h => simp [h.parties]
  | join run begins _ _ ih =>
      refine forall_joined ih ?_
      cases begins with
      | dispatch events => exact nofun
      | _ => trivial
  | @act t c l₁ l₂ p run x turn yields ih =>
      refine forall_replaced ih ?_
      have hp := ih p (by simp)
      have step := Party.step_of_yields yields
      generalize turn.phase = p' at step
      cases step with
      | dispatch h => exact h.pends hp
      | _ => trivial

/-! ### Attempts -/

theorem Submission.standings_after (early : Bool) (r : Progress) :
    (Submission.Phase.ofProgress early r).standings = [.after none false r] := by
  rw [standings_ofProgress]
  cases r with
  | calling a | notReady op => rfl
  | ready op =>
      have same : (Dispatch.takePending op none).1 = op := by
        unfold Dispatch.takePending
        split <;> rfl
      rw [Standing.after, same]
      rfl

/-- The call of an attempt is answered, and the party goes on with what becomes of the
operation. -/
theorem Party.Step.answered (h : Party.Step c p x c' p') {a : Attempt}
    (ha : p.attempt? = some a) :
    .trying a ∈ p.standings ∧ ∃ reply, x = some ⟨.system (a.call c.fd).request, reply⟩ ∧
      .after p.pending p.last ((a.call c.fd).resume reply) ∈ p'.standings := by
  unfold attempt? at ha
  split at ha <;> cases ha
  · cases h with
    | submission h =>
        cases h with
        | @attempted _ _ early reply =>
            refine ⟨.head _, reply, rfl, ?_⟩
            rw [standings, Submission.standings_after]
            exact .head _
  · cases h with
    | dispatch h =>
        cases h with
        | @attempted _ sw reply =>
            refine ⟨.head _, reply, rfl, ?_⟩
            rw [standings, Dispatch.standings_ofSwept]
            exact .head _
  · cases h with
    | dispatch h =>
        cases h with
        | forcing reply =>
            refine ⟨.head _, reply, rfl, ?_⟩
            rw [standings, Dispatch.standings_ofForced]
            exact .head _

theorem Party.Pends.pending (h : p.Pends) : p.pending ≠ some .success := by
  cases p with
  | dispatch k => exact h
  | _ => nofun

/-- The call of an attempt is answered, and something becomes of the operation. -/
theorem Party.Step.goes_on (h : Party.Step c p x c' p') (hp : p.Pends) {a : Attempt}
    (ha : p.attempt? = some a) :
    .trying a ∈ p.standings ∧ ∃ reply, x = some ⟨.system (a.call c.fd).request, reply⟩ ∧
      ∃ σ' ∈ p'.standings, Became ((a.call c.fd).resume reply) σ' := by
  obtain ⟨before, reply, hx, after⟩ := h.answered ha
  exact ⟨before, reply, hx, _, after, became_after hp.pending _ _⟩

/-- Where an attempt begins, no call is made. -/
theorem Party.Step.begins (h : Party.Step c p x c' p') (hp : p.Pends)
    (hb : p.begins? c = some op) :
    x = none ∧ p.Has c (.waiting op) ∧ ∃ σ' ∈ p'.standings, Became (Attempt.start op) σ' := by
  have started : ∀ {early : Bool} {o : Operation} {g : Bool}, ∃ σ' ∈ (Party.submission o
      ⟨g, .ofProgress early (Attempt.start op)⟩).standings, Became (Attempt.start op) σ' := by
    intro early o g
    refine ⟨_, ?_, .itself _⟩
    rw [standings, Submission.standings_ofProgress]
    exact .head _
  cases h with
  | submission h =>
      cases h with
      | enterEarly ha ho hc =>
          simp only [begins?, ha, ho, hc, and_self, if_true, Option.some.injEq] at hb
          subst hb
          refine ⟨rfl, .own (.head _), _, .head _, ?_⟩
          rw [Attempt.start_of_isConnect hc]
          exact .itself _
      | offerIdle hs he =>
          simp only [begins?, Queue.offer_idle _ hs he, Option.some.injEq] at hb
          subst hb
          exact ⟨rfl, .own (.head _), started⟩
      | enlistHinted hs he =>
          simp only [begins?, Queue.enlist_hinted _ hs he, Option.some.injEq] at hb
          subst hb
          exact ⟨rfl, .own (.head _), started⟩
      | enterClosed _ ho => simp [begins?, ho] at hb
      | enterJoined hn | enterFirst _ _ hn => simp [begins?, hn] at hb
      | offerBusy hs he => simp [begins?, Queue.offer_busy _ hs he] at hb
      | offerStopped hs hd => simp [begins?, Queue.offer_stopped _ hs hd] at hb
      | offerDraining hs hd => simp [begins?, Queue.offer_draining _ hs hd] at hb
      | enlistWaiting hs hn => simp [begins?, Queue.enlist_waiting _ hs hn] at hb
      | enlistStopped hs hd => simp [begins?, Queue.enlist_stopped _ hs hd] at hb
      | enlistDraining hs hd => simp [begins?, Queue.enlist_draining _ hs hd] at hb
      | attachJoined _ | attachDone _ | attachFailed _ | attempted _ | completed => cases hb
  | attachment h => cases hb
  | dispatch h =>
      cases h with
      | @forceNext _ ops rest pending =>
          cases hb
          refine ⟨rfl, .own (.head _), _, ?_, became_after hp.pending true _⟩
          rw [standings, Dispatch.standings_ofForced]
          exact .head _
      | @checkOutReady sw _ o _ he hbound hw =>
          simp only [begins?, Queue.checkOut_ready he hbound hw, Option.some.injEq] at hb
          subst hb
          refine ⟨rfl, .line sw.stage.direction ?_, _, ?_, became_after hp.pending false _⟩
          · simp [line, Queue.waiting, he]
          · rw [standings, Dispatch.standings_ofSwept]
            exact .head _
      | checkOutEmpty he => simp [begins?, Queue.checkOut, he] at hb
      | checkOutBeyond he hbound => simp [begins?, Queue.checkOut, he, hbound] at hb
      | checkOutSkipped he hbound hw =>
          simp [begins?, Queue.checkOut, he, hw, Nat.not_le.mpr hbound] at hb
      | checkOutBroken he =>
          simp only [begins?, Queue.checkOut, he] at hb
          split at hb
          · next hq => split at hq <;> cases hq
          · cases hb
      | _ => cases hb
  | closing h => cases hb

end Channel
end Proactor
