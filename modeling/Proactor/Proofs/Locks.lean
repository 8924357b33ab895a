import Proactor.Proofs.Steps
/-! # Locks and heads

The dispatch lock keeps the heads of the queues in order.

* **Inside** (`Party.inside`).  At most one dispatch is inside, and it is there exactly while the
  channel is `dispatching`.
* **Heads** (`Party.out`).  A head is checked out by that dispatch or not at all.
* **Intact parties** (`Party.Intact`).  A submission keeps the operation that it brought, a sweep
  holds an operation of its own direction, and nobody has broken a rule of a queue.

`Orderly` says all this of a system, and every run keeps it (`Run.orderly`).  So the rules of the
queues are never broken (`Run.no_rule_broken`). -/

namespace Proactor.Channel

/-- The dispatch has the lock. -/
def Dispatch.inside : Dispatch → Bool
  | enter _ | ended | broken _ => false
  | _ => true

/-- The dispatch has checked out the head of a direction. -/
def Dispatch.out (e : Direction) : Dispatch → Bool
  | attempt _ s | restore _ s | complete _ s | retire s => s.stage.direction == e
  | _ => false

/-- What a sweep holds is of the direction that it sweeps. -/
def Dispatch.Fits : Dispatch → Prop
  | attempt a s => a.op.direction = s.stage.direction
  | restore op s | complete op s => op.direction = s.stage.direction
  | _ => True

/-- The operation that a submission holds. -/
def Submission.Phase.op? : Submission.Phase → Option Operation
  | enter op | attach op _ | offer op | enlist op | complete op => some op
  | attempt a _ => some a.op
  | answered _ | broken _ => none

namespace Party

def inside : Party → Bool
  | dispatch d => d.inside
  | _ => false

def out (e : Direction) : Party → Bool
  | dispatch d => d.out e
  | _ => false

/-- No rule was broken, and what is held is what should be. -/
def Intact : Party → Prop
  | submission op s =>
      (∀ v, s.phase ≠ .broken v) ∧ ∀ op', s.phase.op? = some op' → op'.key = op.key
  | attachment _ => True
  | dispatch d => (∀ v, d ≠ .broken v) ∧ d.Fits
  | closing k => ∀ v, k.phase ≠ .broken v

theorem inside_of_out {e : Direction} {p : Party} (h : p.out e = true) : p.inside = true := by
  cases p with
  | dispatch d => cases d <;> simp_all [out, Dispatch.out, inside, Dispatch.inside]
  | submission _ _ => simp [out] at h
  | attachment _ => simp [out] at h
  | closing _ => simp [out] at h

end Party

/-! ### Where an attempt leads -/

/-- A dispatch goes on with a hang-up, with the end of the input, or with the stages asked for. -/
theorem Dispatch.route_cases (events : Readiness) (pending : Option Status) :
    route events pending = hangUp pending ∨
      (∃ todo, route events pending = endInput todo pending) ∨
      ∃ todo, route events pending = sweep todo false pending := by
  unfold route
  split_ifs
  · exact .inl rfl
  · exact .inr (.inl ⟨_, rfl⟩)
  · exact .inr (.inr ⟨_, rfl⟩)

@[simp] theorem Dispatch.inside_route (events : Readiness) (pending : Option Status) :
    (route events pending).inside = true := by
  rcases route_cases events pending with h | ⟨todo, h⟩ | ⟨todo, h⟩ <;> rw [h] <;> rfl

@[simp] theorem Dispatch.out_route (e : Direction) (events : Readiness)
    (pending : Option Status) : (route events pending).out e = false := by
  rcases route_cases events pending with h | ⟨todo, h⟩ | ⟨todo, h⟩ <;> rw [h] <;> rfl

theorem Dispatch.fits_route (events : Readiness) (pending : Option Status) :
    (route events pending).Fits := by
  rcases route_cases events pending with h | ⟨todo, h⟩ | ⟨todo, h⟩ <;> rw [h] <;> trivial

theorem Dispatch.key_takePending (op : Operation) (pending : Option Status) :
    (takePending op pending).1.key = op.key := by
  unfold takePending
  split
  · rfl
  · split <;> rfl

/-- A forced operation is attempted further, or it is done; it stays the same operation. -/
theorem Dispatch.ofForced_cases (ops : List Operation) (rest : Option (List Stage))
    (pending : Option Status) (r : Progress) :
    (∃ a, ofForced ops rest pending r = forcing a ops rest pending ∧ a.op = r.op) ∨
      ∃ op pending', ofForced ops rest pending r = forced op ops rest pending' ∧
        op.key = r.op.key := by
  cases r with
  | calling a => exact .inl ⟨a, rfl, rfl⟩
  | notReady op => exact .inr ⟨_, _, rfl, rfl⟩
  | ready op => exact .inr ⟨_, _, rfl, key_takePending op pending⟩

/-- A head is attempted further, completed, or put back; it stays the same operation and the
sweep stays at its place. -/
theorem Dispatch.ofSwept_cases (s : Sweep) (r : Progress) :
    (∃ a, ofSwept s r = attempt a s ∧ r = .calling a) ∨
      (∃ op pending, ofSwept s r = complete op { s with pending } ∧ op.key = r.op.key) ∨
      ∃ op, ofSwept s r = restore op s ∧ r = .notReady op := by
  cases r with
  | calling a => exact .inl ⟨a, rfl, rfl⟩
  | ready op => exact .inr (.inl ⟨_, _, rfl, key_takePending op s.pending⟩)
  | notReady op =>
      cases hp : s.pending with
      | none => exact .inr (.inr ⟨op, by simp [ofSwept, hp], rfl⟩)
      | some status => exact .inr (.inl ⟨op.withStatus status, none, by simp [ofSwept, hp], rfl⟩)

theorem Dispatch.inside_ofForced (ops : List Operation) (rest : Option (List Stage))
    (pending : Option Status) (r : Progress) :
    (ofForced ops rest pending r).inside = true := by
  rcases ofForced_cases ops rest pending r with ⟨a, h, -⟩ | ⟨op, pending', h, -⟩ <;> rw [h] <;> rfl

theorem Dispatch.out_ofForced (e : Direction) (ops : List Operation) (rest : Option (List Stage))
    (pending : Option Status) (r : Progress) :
    (ofForced ops rest pending r).out e = false := by
  rcases ofForced_cases ops rest pending r with ⟨a, h, -⟩ | ⟨op, pending', h, -⟩ <;> rw [h] <;> rfl

theorem Dispatch.inside_ofSwept (s : Sweep) (r : Progress) : (ofSwept s r).inside = true := by
  rcases ofSwept_cases s r with ⟨a, h, -⟩ | ⟨op, pending, h, -⟩ | ⟨op, h, -⟩ <;> rw [h] <;> rfl

theorem Dispatch.out_ofSwept (e : Direction) (s : Sweep) (r : Progress) :
    (ofSwept s r).out e = (s.stage.direction == e) := by
  rcases ofSwept_cases s r with ⟨a, h, -⟩ | ⟨op, pending, h, -⟩ | ⟨op, h, -⟩ <;> rw [h] <;> rfl

theorem Dispatch.fits_ofSwept {s : Sweep} {r : Progress}
    (h : r.op.direction = s.stage.direction) : (ofSwept s r).Fits := by
  rcases ofSwept_cases s r with ⟨a, he, rfl⟩ | ⟨op, pending, he, hk⟩ | ⟨op, he, rfl⟩ <;> rw [he]
  · exact h
  · exact (Operation.direction_eq_of_key hk).trans h
  · exact h

theorem Submission.op?_ofProgress (early : Bool) (r : Progress) :
    (Submission.Phase.ofProgress early r).op? = some r.op := by
  cases r with
  | calling a => rfl
  | ready op => rfl
  | notReady op => cases early <;> rfl

theorem Submission.op?_joined (op : Operation) (tried : Bool) :
    (Submission.Phase.joined op tried).op? = some op := by
  cases tried <;> rfl

/-! ### The queues under a step -/

theorem queue_update {c c' : Channel} (hr : c'.receive = c.receive) (hs : c'.send = c.send)
    (hc : c'.connection = c.connection) (e : Direction) : c'.queue e = c.queue e := by
  cases e with
  | receive => exact hr
  | send => exact hs
  | connection => exact hc

@[simp] theorem Submission.queue_abandon (s : Submission) (c : Channel) (e : Direction) :
    (s.abandon c).queue e = c.queue e := by
  unfold abandon
  split <;> exact queue_update rfl rfl rfl e

theorem Left.queue {c c' : Channel} {x : Option (Exchange Call)} (h : Left c x c')
    (e : Direction) : c'.queue e = c.queue e := by
  cases h with
  | before _ => rfl
  | now _ _ => exact queue_update rfl rfl rfl e

/-- A change of one queue, seen from every direction. -/
theorem change_withQueue {c : Channel} {d e : Direction} {q : Queue}
    (h : Queue.Change d (c.queue d) false false q) :
    Queue.Change e (c.queue e) false false ((c.withQueue d q).queue e) := by
  by_cases he : e = d
  · subst he
    rw [queue_withQueue]
    exact h
  · rw [queue_withQueue_ne c q he]
    exact .same

theorem Submission.Step.change {c c' : Channel} {s s' : Submission} {x : Option (Exchange Call)}
    (h : Submission.Step c s x c' s') (e : Direction) :
    Queue.Change e (c.queue e) false false (c'.queue e) := by
  cases h with
  | enterJoined _ | enterClosed _ _ | enterEarly _ _ _ | enterFirst _ _ _ | attachDone _ =>
      rw [queue_update rfl rfl rfl e]
      exact .same
  | attachJoined _ | attachFailed _ | offerStopped _ _ | attempted _ | enlistStopped _ _ =>
      exact .same
  | completed =>
      rw [queue_abandon]
      exact .same
  | offerIdle hs _ => exact change_withQueue (.hinted hs)
  | enlistHinted hs _ => exact change_withQueue (.hinted (by simp [Queue.isStopped, hs]))
  | offerBusy hs _ | enlistWaiting hs _ =>
      rw [queue_abandon]
      exact change_withQueue (.pushed hs rfl)
  | offerDraining _ hd | enlistDraining _ hd =>
      rw [queue_abandon]
      exact change_withQueue (.parked hd rfl)

theorem Attachment.Step.queue {c c' : Channel} {a a' : Attachment} {x : Option (Exchange Call)}
    (h : Attachment.Step c a x c' a') (e : Direction) : c'.queue e = c.queue e := by
  cases h with
  | refused _ => rfl
  | entered _ | joined _ | done _ | failed _ => exact queue_update rfl rfl rfl e

theorem Flush.Step.change {c c' : Channel} {f f' : Flush} {x : Option (Exchange Call)}
    (h : Flush.Step c f x c' f') (e : Direction) {b : Bool} :
    Queue.Change e (c.queue e) b b (c'.queue e) := by
  cases h with
  | emptied => exact .same
  | completed => exact .same
  | settled _ | parked _ =>
      rw [queue_settle]
      exact .settled

theorem Closing.Step.change {c c' : Channel} {k k' : Closing} {x : Option (Exchange Call)}
    (h : Closing.Step c k x c' k') (hk : ∀ v, k'.phase ≠ .broken v) (e : Direction) :
    Queue.Change e (c.queue e) false false (c'.queue e) := by
  cases h with
  | again _ | released _ | releasedUnattached _ | flushed => exact .same
  | unattached _ _ =>
      rw [queue_shut]
      exact .same
  | stopped _ _ hw hl =>
      rw [hl.queue, queue_halted, queue_shut]
      exact .halted (hw e)
  | stopBroken _ _ => exact absurd rfl (hk _)
  | flushing hf => exact hf.change e

theorem Dispatch.Step.change {c c' : Channel} {d d' : Dispatch} {x : Option (Exchange Call)}
    (h : Dispatch.Step c d x c' d') (hd : d.Fits) (hd' : ∀ v, d' ≠ broken v) (e : Direction) :
    Queue.Change e (c.queue e) (d.out e) (d'.out e) (c'.queue e) := by
  cases h with
  | enterIgnored _ _ | forceNone | forced | flushedInput | narrowSkipped _ | sweptBehind
  | sweepStopped _ | checkOutEmpty _ | checkOutBeyond _ _ | checkOutSkipped _ _ _ =>
      exact .same
  | completed => exact .same
  | enterFailed _ _ _ | flushedAll | narrowed _ _ | swept | rearmSkipped _ | rearmed _ _ =>
      rw [queue_update rfl rfl rfl e]
      exact .same
  | enterReady _ _ _ =>
      rw [queue_update rfl rfl rfl e, out_route]
      exact .same
  | queried _ =>
      rw [out_route]
      exact .same
  | hungUp hw hl =>
      rw [hl.queue, queue_halted]
      exact .halted (hw e)
  | inputEnded hw => exact change_withQueue (.halted hw)
  | forceNext =>
      rw [out_ofForced]
      exact .same
  | forcing _ =>
      rw [out_ofForced]
      exact .same
  | flushing hf => exact hf.change e
  | sweepBegun hs => exact change_withQueue (.snapped hs)
  | attempted _ =>
      rw [out_ofSwept]
      exact .same
  | hangUpBroken _ | endInputBroken _ | checkOutBroken _ | restoreBroken _ | retireBroken _ =>
      exact absurd rfl (hd' _)
  | @checkOutReady s n op rest he hb hw =>
      rw [out_ofSwept]
      by_cases hs : e = s.stage.direction
      · subst hs
        rw [queue_withQueue, beq_self_eq_true]
        exact .checkedOut he
      · rw [queue_withQueue_ne c _ hs, beq_eq_false_iff_ne.mpr (Ne.symm hs)]
        exact .same
  | @restored op s n rest he =>
      by_cases hs : e = s.stage.direction
      · subst hs
        simp only [out, queue_withQueue, beq_self_eq_true]
        exact .restored he hd
      · simp only [out, queue_withQueue_ne c _ hs, beq_eq_false_iff_ne.mpr (Ne.symm hs)]
        exact .same
  | @retired s n rest he =>
      by_cases hs : e = s.stage.direction
      · subst hs
        simp only [out, queue_withQueue, beq_self_eq_true]
        exact .retired he
      · simp only [out, queue_withQueue_ne c _ hs, beq_eq_false_iff_ne.mpr (Ne.symm hs)]
        exact .same

theorem Party.Step.change {c c' : Channel} {p p' : Party} {x : Option (Exchange Call)}
    (h : Step c p x c' p') (hp : p.Intact) (hp' : p'.Intact) (e : Direction) :
    Queue.Change e (c.queue e) (p.out e) (p'.out e) (c'.queue e) := by
  cases h with
  | submission h => exact h.change e
  | attachment h =>
      rw [h.queue e]
      exact .same
  | dispatch h => exact h.change hp.2 hp'.1 e
  | closing h => exact h.change hp' e

/-! ### Intact parties -/

theorem Submission.Step.intact {c c' : Channel} {op : Operation} {s s' : Submission}
    {x : Option (Exchange Call)} (h : Submission.Step c s x c' s')
    (hp : (Party.submission op s).Intact) : (Party.submission op s').Intact := by
  obtain ⟨-, hp⟩ := hp
  have ofOp : ∀ {phase : Phase} {op' : Operation}, phase.op? = some op' → op'.key = op.key →
      (Party.submission op ⟨s'.guarded, phase⟩).Intact := by
    intro phase op' ho hk
    constructor
    · rintro v rfl
      cases ho
    · intro op'' ho'
      cases ho.symm.trans ho'
      exact hk
  have answered : ∀ answer, (Party.submission op ⟨s'.guarded, .answered answer⟩).Intact := by
    intro answer
    constructor
    · intro v hv
      cases hv
    · intro op' ho
      cases ho
  cases h with
  | enterJoined _ | enterEarly _ _ _ | enterFirst _ _ _ => exact ofOp rfl (hp _ rfl)
  | enterClosed _ _ | attachFailed _ | offerStopped _ _ | enlistStopped _ _ =>
      exact ofOp rfl ((Operation.key_withStatus _ _).trans (hp _ rfl))
  | attachJoined _ | attachDone _ => exact ofOp (op?_joined _ _) (hp _ rfl)
  | offerIdle _ _ | enlistHinted _ _ =>
      exact ofOp (op?_ofProgress _ _) ((Attempt.key_start _).trans (hp _ rfl))
  | attempted _ =>
      exact ofOp (op?_ofProgress _ _) ((Attempt.key_resume _ _ _).trans (hp _ rfl))
  | offerBusy _ _ | offerDraining _ _ | enlistWaiting _ _ | enlistDraining _ _ | completed =>
      exact answered _

theorem Dispatch.not_broken_of_inside {d : Dispatch} (h : d.inside = true) (v : Violation) :
    d ≠ broken v := by
  rintro rfl
  cases h

theorem Dispatch.Step.intact {c c' : Channel} {d d' : Dispatch} {x : Option (Exchange Call)}
    (h : Dispatch.Step c d x c' d') (hd : d.Fits) (valid : ∀ e, (c.queue e).Valid e)
    (whole : d.inside = true → ∀ e, d.out e = false → (c.queue e).Whole)
    (headless : ∀ e, d.out e = true → (c.queue e).Headless) : (Party.dispatch d').Intact := by
  have still : ∀ {d' : Dispatch}, d'.inside = true → d'.Fits → (Party.dispatch d').Intact :=
    fun h hf => ⟨not_broken_of_inside h, hf⟩
  cases h with
  | enterIgnored _ _ | flushedAll | swept | rearmSkipped _ | rearmed _ _ =>
      refine ⟨?_, trivial⟩
      intro v hv
      cases hv
  | enterReady _ _ _ | queried _ => exact still (inside_route _ _) (fits_route _ _)
  | enterFailed _ _ _ | hungUp _ _ | inputEnded _ | forceNone | forced | flushing _
  | flushedInput | narrowSkipped _ | narrowed _ _ | sweptBehind | sweepStopped _ | sweepBegun _
  | checkOutEmpty _ | checkOutBeyond _ _ | checkOutSkipped _ _ _ | restored _ | completed
  | retired _ => exact still rfl trivial
  | forceNext | forcing _ =>
      apply still (inside_ofForced _ _ _ _)
      rcases ofForced_cases _ _ _ _ with ⟨a, h, -⟩ | ⟨op, pending', h, -⟩ <;> rw [h] <;> trivial
  | @checkOutReady s n op rest he hb hw =>
      refine still (inside_ofSwept _ _) (fits_ofSwept ?_)
      have hv := (valid s.stage.direction).waiting op (by simp [Queue.waiting, he])
      exact (Operation.direction_eq_of_key (Attempt.key_start op)).trans hv
  | attempted reply =>
      refine still (inside_ofSwept _ _) (fits_ofSwept ?_)
      exact (Operation.direction_eq_of_key (Attempt.key_resume _ _ reply)).trans hd
  | hangUpBroken hw => exact absurd (fun e => whole rfl e rfl) hw
  | endInputBroken hw => exact absurd (whole rfl .receive rfl) hw
  | @checkOutBroken s n rest _ _ he =>
      have h := whole rfl s.stage.direction rfl ⟨n, none⟩ (by simp [he])
      cases h
  | restoreBroken he => exact absurd (headless _ (by simp [out])) he
  | retireBroken he => exact absurd (headless _ (by simp [out])) he

/-- No step breaks a rule, and what a party holds stays the same operations.  Heads that nobody has
checked out are in place as long as the party has the lock, or nobody does. -/
theorem Party.Step.intact {c c' : Channel} {p p' : Party} {x : Option (Exchange Call)}
    (h : Step c p x c' p') (hp : p.Intact) (valid : ∀ e, (c.queue e).Valid e)
    (whole : p.inside = true ∨ c.dispatching = false → ∀ e, p.out e = false → (c.queue e).Whole)
    (headless : ∀ e, p.out e = true → (c.queue e).Headless) : p'.Intact := by
  cases h with
  | submission h => exact h.intact hp
  | attachment h => trivial
  | dispatch h => exact h.intact hp.2 valid (fun hi => whole (.inl hi)) headless
  | closing h =>
      intro v hv
      cases h with
      | stopBroken free hw => exact hw fun e => whole (.inr free.dispatching) e rfl
      | _ => cases hv

/-! ### The dispatch lock -/

theorem Submission.dispatching_abandon (s : Submission) (c : Channel) :
    (s.abandon c).dispatching = c.dispatching := by
  unfold abandon
  split <;> rfl

theorem Left.dispatching {c c' : Channel} {x : Option (Exchange Call)} (h : Left c x c') :
    c'.dispatching = c.dispatching := by
  cases h <;> rfl

theorem Submission.Step.dispatching {c c' : Channel} {s s' : Submission}
    {x : Option (Exchange Call)} (h : Submission.Step c s x c' s') :
    c'.dispatching = c.dispatching := by
  cases h <;> simp [dispatching_abandon]

theorem Flush.Step.dispatching {c c' : Channel} {f f' : Flush} {x : Option (Exchange Call)}
    (h : Flush.Step c f x c' f') : c'.dispatching = c.dispatching := by
  cases h <;> rfl

theorem Closing.Step.dispatching {c c' : Channel} {k k' : Closing} {x : Option (Exchange Call)}
    (h : Closing.Step c k x c' k') (hk : ∀ v, k'.phase ≠ .broken v) :
    c'.dispatching = c.dispatching := by
  cases h with
  | @unattached b _ _ => cases b <;> rfl
  | @stopped b _ _ _ _ _ hl =>
      rw [hl.dispatching]
      cases b <;> rfl
  | stopBroken _ _ => exact absurd rfl (hk _)
  | flushing hf => exact hf.dispatching
  | _ => rfl

/-- The channel says whether the dispatch has the lock. -/
theorem Dispatch.Step.lock {c c' : Channel} {d d' : Dispatch} {x : Option (Exchange Call)}
    (h : Dispatch.Step c d x c' d') (hd' : ∀ v, d' ≠ broken v)
    (hd : d.inside = true → c.dispatching = true) :
    c'.dispatching.toNat + d.inside.toNat = c.dispatching.toNat + d'.inside.toNat := by
  cases h with
  | enterFailed he _ _ => simp [he, inside]
  | enterReady he _ _ =>
      rw [inside_route]
      simp [he, inside]
  | queried _ =>
      rw [inside_route]
      rfl
  | hungUp _ hl =>
      rw [hl.dispatching]
      rfl
  | hangUpBroken _ | endInputBroken _ | checkOutBroken _ | restoreBroken _ | retireBroken _ =>
      exact absurd rfl (hd' _)
  | forceNext | forcing _ =>
      rw [inside_ofForced]
      rfl
  | flushing hf => simp [hf.dispatching, inside]
  | flushedAll | swept | rearmSkipped _ | rearmed _ _ => simp [hd rfl, abandon, inside]
  | checkOutReady _ _ _ =>
      rw [inside_ofSwept, dispatching_withQueue]
      rfl
  | attempted _ =>
      rw [inside_ofSwept]
      rfl
  | _ => simp [inside]

theorem Party.Step.lock {c c' : Channel} {p p' : Party} {x : Option (Exchange Call)}
    (h : Step c p x c' p') (hp' : p'.Intact) (hp : p.inside = true → c.dispatching = true) :
    c'.dispatching.toNat + p.inside.toNat = c.dispatching.toNat + p'.inside.toNat := by
  cases h with
  | submission h => simp [h.dispatching, inside]
  | attachment h => cases h <;> rfl
  | dispatch h => exact h.lock hp'.1 hp
  | closing h => simp [h.dispatching hp', inside]

/-! ### Order -/

theorem Initial.queue {s : System} (h : Initial s) (d : Direction) : s.channel.queue d = {} := by
  cases h <;> cases d <;> rfl

theorem Initial.parties {s : System} (h : Initial s) : s.parties = [] := by
  cases h <;> rfl

/-- The locks and the heads of a system are in order. -/
structure Orderly (s : System) : Prop where
  valid : ∀ d, (s.channel.queue d).Valid d
  intact : ∀ p ∈ s.parties, p.Intact
  lock : s.parties.countP (·.inside) = s.channel.dispatching.toNat
  heads : ∀ d, (s.channel.queue d).Shaped (s.parties.any (·.out d))

namespace Orderly

variable {c : Channel} {l₁ l₂ : List Party} {p : Party}

/-- A party that is inside has the lock to itself. -/
theorem dispatching (h : Orderly ⟨c, l₁ ++ p :: l₂⟩) (hp : p.inside = true) :
    c.dispatching = true := by
  have hl := h.lock
  simp only [List.countP_append, List.countP_cons, hp] at hl
  cases hc : c.dispatching with
  | true => rfl
  | false => simp [hc] at hl

theorem locked {s : System} (h : Orderly s) (hp : p ∈ s.parties) (inside : p.inside = true) :
    s.channel.dispatching = true := by
  obtain ⟨c, parties⟩ := s
  obtain ⟨l₁, l₂, rfl⟩ := List.append_of_mem hp
  exact h.dispatching inside

/-- Of two parties at most one is inside. -/
theorem others_outside (hl : (l₁ ++ p :: l₂).countP (·.inside) = c.dispatching.toNat)
    (hp : p.inside = true ∨ c.dispatching = false) : ∀ o ∈ l₁ ++ l₂, o.inside = false := by
  simp only [List.countP_append, List.countP_cons] at hl
  have h0 : l₁.countP (·.inside) + l₂.countP (·.inside) = 0 := by
    rcases hp with hp | hc
    · rw [if_pos hp] at hl
      have := c.dispatching.toNat_le
      omega
    · simp only [hc, Bool.toNat_false] at hl
      omega
  intro o ho
  have ho' := List.countP_eq_zero.mp ((List.countP_append ..).trans h0) o ho
  simpa using ho'

theorem out_append (l₁ l₂ : List Party) (p : Party) (d : Direction) :
    (l₁ ++ p :: l₂).any (·.out d) = ((l₁ ++ l₂).any (·.out d) || p.out d) := by
  simp only [List.any_append, List.any_cons]
  cases p.out d <;> simp

theorem out_eq_false {l : List Party} (h : ∀ o ∈ l, o.inside = false) (d : Direction) :
    l.any (·.out d) = false := by
  rw [List.any_eq_false]
  intro o ho hout
  have := h o ho
  rw [Party.inside_of_out hout] at this
  cases this

theorem headless (h : Orderly ⟨c, l₁ ++ p :: l₂⟩) {d : Direction} (hp : p.out d = true) :
    (c.queue d).Headless := by
  have hd := h.heads d
  rw [out_append, hp, Bool.or_true] at hd
  exact hd

theorem whole (h : Orderly ⟨c, l₁ ++ p :: l₂⟩) (hp : p.inside = true ∨ c.dispatching = false)
    {d : Direction} (ho : p.out d = false) : (c.queue d).Whole := by
  have hd := h.heads d
  rw [out_append, ho, out_eq_false (others_outside h.lock hp), Bool.or_false] at hd
  exact hd

/-- A step keeps everything in order. -/
theorem step {c' : Channel} {p' : Party} {x : Option (Exchange Call)}
    (h : Orderly ⟨c, l₁ ++ p :: l₂⟩) (hs : p.Step c x c' p') :
    Orderly ⟨c', l₁ ++ p' :: l₂⟩ := by
  have hp : p.Intact := h.intact p (by simp)
  have hp' : p'.Intact :=
    hs.intact hp h.valid (fun hi d ho => h.whole hi ho) (fun d ho => h.headless ho)
  have lock : (l₁ ++ p' :: l₂).countP (·.inside) = c'.dispatching.toNat := by
    have hl := h.lock
    have hk := hs.lock hp' h.dispatching
    simp only [List.countP_append, List.countP_cons] at hl ⊢
    cases hi : p.inside <;> cases hi' : p'.inside <;> simp [hi, hi'] at hl hk ⊢ <;> omega
  refine ⟨fun d => (hs.change hp hp' d).valid (h.valid d), forall_replaced h.intact hp', lock, ?_⟩
  intro d
  rw [out_append]
  have hd := h.heads d
  rw [out_append] at hd
  refine (hs.change hp hp' d).shaped hd fun ho => ?_
  obtain ⟨o, hm, hout⟩ := List.any_eq_true.mp ho
  -- another party has the head, so neither end of the step is inside
  have outside : ∀ q : Party, (q.inside = true → ∀ o ∈ l₁ ++ l₂, o.inside = false) →
      q.out d = false := by
    intro q hq
    cases hqd : q.out d with
    | false => rfl
    | true =>
        have := hq (Party.inside_of_out hqd) o hm
        rw [Party.inside_of_out hout] at this
        cases this
  exact ⟨outside p fun hi => others_outside h.lock (.inl hi),
    outside p' fun hi => others_outside lock (.inl hi)⟩

section step
variable {c' : Channel} {p' : Party} {x : Option (Exchange Call)}
  (h : Orderly ⟨c, l₁ ++ p :: l₂⟩) (hs : p.Step c x c' p')
include h hs

theorem next : p'.Intact := (h.step hs).intact p' (by simp)

/-- What a step does to a queue. -/
theorem change (d : Direction) :
    Queue.Change d (c.queue d) (p.out d) (p'.out d) (c'.queue d) :=
  hs.change (h.intact p (by simp)) (h.next hs) d

theorem stays_stopped {d : Direction} (stopped : (c.queue d).isStopped = true) :
    (c'.queue d).isStopped = true :=
  (h.change hs d).stopped (h.valid d) stopped

end step

/-- A party that begins holds no lock and no head. -/
theorem begun {p : Party} {attached : Bool} (h : p.Begins attached) :
    p.Intact ∧ p.inside = false ∧ ∀ d, p.out d = false := by
  have submitted : ∀ (op : Operation) (g : Bool) {phase : Submission.Phase},
      phase.op? = some op → (Party.submission op ⟨g, phase⟩).Intact := by
    intro op g phase ho
    constructor
    · rintro v rfl
      cases ho
    · intro op' ho'
      cases ho.symm.trans ho'
      rfl
  cases h with
  | socketSubmission op => exact ⟨submitted op true rfl, rfl, fun _ => rfl⟩
  | submission op _ => exact ⟨submitted op false rfl, rfl, fun _ => rfl⟩
  | attachment => exact ⟨trivial, rfl, fun _ => rfl⟩
  | dispatch events => exact ⟨⟨nofun, trivial⟩, rfl, fun _ => rfl⟩
  | socketClosing => exact ⟨nofun, rfl, fun _ => rfl⟩
  | closing _ => exact ⟨nofun, rfl, fun _ => rfl⟩

theorem initial {s : System} (h : Initial s) : Orderly s := by
  have hq := h.queue
  have hn := h.parties
  refine ⟨?_, ?_, ?_, ?_⟩
  · intro d
    rw [hq]
    exact .fresh d
  · simp [hn]
  · rw [hn]
    cases h <;> rfl
  · intro d
    rw [hq, hn]
    simp [Queue.Shaped, Queue.Whole]

theorem join {s : System} (h : Orderly s) (hp : p.Begins s.channel.attached) :
    Orderly ⟨s.channel, s.parties ++ [p]⟩ := by
  obtain ⟨hi, hin, hout⟩ := begun hp
  refine ⟨h.valid, forall_joined h.intact hi, ?_, ?_⟩
  · rw [List.countP_append, h.lock]
    simp [hin]
  · intro d
    rw [List.any_append]
    simpa [hout d] using h.heads d

end Orderly

/-- Every run keeps the locks and the heads in order. -/
theorem Run.orderly {use : Party → Prop} {t : List Event} {s : System} (run : Run use t s) :
    Orderly s := by
  induction run with
  | start h => exact .initial h
  | join _ begins _ _ ih => exact ih.join begins
  | act _ yields ih => exact ih.step (Party.step_of_yields yields)

/-! ### Rules -/

/-- The rule of a queue that a party broke. -/
def Party.broken? : Party → Option Violation
  | submission _ ⟨_, .broken v⟩ => some v
  | dispatch (.broken v) => some v
  | closing ⟨_, .broken v⟩ => some v
  | _ => none

theorem Party.Intact.broken?_eq_none {p : Party} (h : p.Intact) : p.broken? = none := by
  cases p with
  | submission op s =>
      obtain ⟨guarded, phase⟩ := s
      cases phase with
      | broken v => exact absurd rfl (h.1 v)
      | _ => rfl
  | attachment _ => rfl
  | dispatch d =>
      cases d with
      | broken v => exact absurd rfl (h.1 v)
      | _ => rfl
  | closing k =>
      obtain ⟨ofSocket, phase⟩ := k
      cases phase with
      | broken v => exact absurd rfl (h v)
      | _ => rfl

/-- In no run is a rule of a queue broken.  What makes this so: at most one dispatch is inside, and
a slot is empty exactly where that dispatch has checked out the head of the queue. -/
theorem Run.no_rule_broken {use : Party → Prop} {t : List Event} {s : System}
    (run : Run use t s) :
    (∀ p ∈ s.parties, p.broken? = none) ∧
      s.parties.countP (·.inside) = s.channel.dispatching.toNat ∧
      ∀ d, (∃ p ∈ s.parties, p.out d = true ∧ p.inside = true) ∧ (s.channel.queue d).Headless ∨
        (∀ p ∈ s.parties, p.out d = false) ∧ (s.channel.queue d).Whole := by
  have orderly := run.orderly
  refine ⟨fun p hp => (orderly.intact p hp).broken?_eq_none, orderly.lock, fun d => ?_⟩
  have heads := orderly.heads d
  cases out : s.parties.any (·.out d) with
  | true =>
      obtain ⟨p, hp, hout⟩ := List.any_eq_true.mp out
      rw [out] at heads
      exact .inl ⟨⟨p, hp, hout, Party.inside_of_out hout⟩, heads⟩
  | false =>
      rw [out] at heads
      exact .inr ⟨fun p hp => by simpa using List.any_eq_false.mp out p hp, heads⟩

/-- A dispatch has checked out an accept that waits.  Meanwhile another accept queues up and a close
waits for the dispatch. -/
def acceptsAndClose : List Choice :=
  [.join (.submission false (.accept 7 default)), .act 0 notReady, .act 0 notReady,
    .act 0 notReady, .join (.dispatch .readable), .act 1 notReady, .act 1 notReady,
    .act 1 notReady, .join (.submission false (.accept 8 default)), .act 2 notReady,
    .join (.closing false)]

theorem no_rule_broken_accepts : ∃ t s, Run (fun _ => True) t s ∧
    (∀ p ∈ s.parties, p.broken? = none) ∧ (s.channel.queue .connection).Headless := by
  have runs : (replay (fun _ => True) (ofChannel 10) acceptsAndClose).isSome = true := by rfl
  have run := run_of_isSome (.channel 10) runs
  generalize hr : (replay (fun _ => True) (ofChannel 10) acceptsAndClose).get runs = r at run
  have out : ∃ p ∈ r.2.parties, p.out .connection = true := by
    rw [← hr]
    exact ⟨_, .tail _ (.head _), rfl⟩
  obtain ⟨intact, -, heads⟩ := run.no_rule_broken
  refine ⟨r.1, r.2, run, intact, ?_⟩
  rcases heads .connection with ⟨-, headless⟩ | ⟨none, -⟩
  · exact headless
  · obtain ⟨p, hp, hout⟩ := out
    rw [none p hp] at hout
    cases hout

end Proactor.Channel
