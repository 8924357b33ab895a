import Proactor.Proofs.Release
/-! # What a stop hands out, and what comes after it

A stop hands out what waits in a queue.  Until all of that has been scheduled the queue drains, and
whoever submits then is parked, so as not to overtake anybody.

* **Handed out** (`Event.drained`).  A close and a dispatch stop queues; the one that did holds what
  waited there (`Draining`).
* **Late** (`Waits`).  An operation that is before the gate, or parked.
* **Settling** (`Event.SettlesOver`).  A close that has nothing left to complete ends the draining.
  It does not look whether another close still holds something.  As long as that does not happen,
  what was handed out is scheduled before what came late. -/

namespace Proactor

/-- A queue goes on draining and keeps what is parked. -/
structure Queue.DrainsOn (q q' : Queue) : Prop where
  draining : q.draining = true → q'.draining = true
  parked : ∀ op ∈ q.parked, op ∈ q'.parked

theorem Queue.DrainsOn.of_eq {q q' : Queue} (h : q' = q) : q.DrainsOn q' := by
  subst h
  exact ⟨id, fun _ => id⟩

theorem Queue.DrainsOn.halted (q : Queue) : q.DrainsOn q.halted :=
  ⟨fun h => by simp [Queue.halted, h], fun _ => id⟩

namespace Channel

/-- The operations that a stop hands out in an event. -/
def Event.drained : Event → List Operation
  | acted _ (.closing ⟨_, .stop⟩) _ (.closing ⟨_, .release ops⟩) => ops
  | acted _ (.dispatch (.hangUp _)) _ (.dispatch (.force ops _ _)) => ops
  | acted _ (.dispatch (.endInput _ _)) _ (.dispatch (.force ops _ _)) => ops
  | _ => []

/-- The party takes what is parked next, or ends the draining. -/
def Party.settles : Party → Bool
  | dispatch (.flush .settle _ _) | closing ⟨_, .flush .settle _⟩ => true
  | _ => false

/-- A close settles the queues while another close holds the operation with ticket `a`, which a stop
handed out. -/
def Event.SettlesOver (d : Direction) (a : Nat) : Event → Prop
  | acted s (.closing ⟨_, .flush .settle _⟩) _ _ =>
    ∃ k, .closing k ∈ s.parties ∧ a ∈ tickets d k.phase.held
  | _ => False

/-- Somebody holds the operation with ticket `a`, which a stop handed out, and its queue drains. -/
structure Draining (d : Direction) (a : Nat) (s : System) : Prop where
  held : ∃ q ∈ s.parties, a ∈ tickets d q.held
  stopped : (s.channel.queue d).isStopped = true
  drains : (s.channel.queue d).draining = true

/-- The operation with ticket `n` is before the gate, or parked. -/
inductive Waits (d : Direction) (n : Nat) (s : System) : Prop
  | atGate {op : Operation} {sub : Submission} (hm : .submission op sub ∈ s.parties)
      (hn : op.ticketIn d = some n) (gate : sub.phase.atGate = true)
  | parked (hn : n ∈ tickets d (s.channel.queue d).parked)

variable {use : Party → Prop} {c c' : Channel} {l₁ l₂ : List Party} {p p' : Party}
  {x : Option (Exchange Call)} {t newer between older : List Event} {s s' : System}
  {e stop : Event} {d : Direction} {a n : Nat}

/-! ### Queues that drain -/

theorem drainsOn_withQueue {e : Direction} {q : Queue} (h : (c.queue e).DrainsOn q)
    (d : Direction) : (c.queue d).DrainsOn ((c.withQueue e q).queue d) := by
  by_cases hd : d = e
  · subst hd
    rw [queue_withQueue]
    exact h
  · rw [queue_withQueue_ne c q hd]
    exact .of_eq rfl

theorem Submission.Step.drainsOn {s s' : Submission} (h : Submission.Step c s x c' s')
    (d : Direction) : (c.queue d).DrainsOn (c'.queue d) := by
  cases h with
  | enterJoined _ | enterClosed _ _ | enterEarly _ _ _ | enterFirst _ _ _ | attachDone _ =>
      exact .of_eq (queue_update rfl rfl rfl d)
  | attachJoined _ | attachFailed _ | offerStopped _ _ | attempted _ | enlistStopped _ _ =>
      exact .of_eq rfl
  | completed => exact .of_eq (queue_abandon _ _ d)
  | offerIdle _ _ | enlistHinted _ _ => exact drainsOn_withQueue (by exact ⟨id, fun _ => id⟩) d
  | offerBusy _ _ | enlistWaiting _ _ =>
      rw [queue_abandon]
      exact drainsOn_withQueue (by exact ⟨id, fun _ => id⟩) d
  | offerDraining _ _ | enlistDraining _ _ =>
      rw [queue_abandon]
      exact drainsOn_withQueue (by exact ⟨id, fun _ => List.mem_append_left _⟩) d

theorem Flush.Step.drainsOn {f f' : Flush} (h : Flush.Step c f x c' f') (hf : f ≠ .settle) :
    c' = c := by
  cases h with
  | emptied | completed => rfl
  | settled _ | parked _ => exact absurd rfl hf

theorem Dispatch.Step.drainsOn {k k' : Dispatch} (h : Dispatch.Step c k x c' k')
    (hk : ∀ v, k' ≠ broken v) (hn : (Party.dispatch k).settles = false) (d : Direction) :
    (c.queue d).DrainsOn (c'.queue d) := by
  cases h with
  | hungUp _ hl =>
      rw [hl.queue, queue_halted]
      exact .halted _
  | inputEnded _ => exact drainsOn_withQueue (.halted _) d
  | hangUpBroken _ | endInputBroken _ | checkOutBroken _ | restoreBroken _ | retireBroken _ =>
      exact absurd rfl (hk _)
  | flushing hf =>
      rw [hf.drainsOn (by rintro rfl; cases hn)]
      exact .of_eq rfl
  | sweepBegun _ | checkOutReady _ _ _ | restored _ | retired _ =>
      exact drainsOn_withQueue (by exact ⟨id, fun _ => id⟩) d
  | _ => exact .of_eq (queue_update rfl rfl rfl d)

theorem Closing.Step.drainsOn {k k' : Closing} (h : Closing.Step c k x c' k')
    (hk : ∀ v, k'.phase ≠ .broken v) (hn : (Party.closing k).settles = false) (d : Direction) :
    (c.queue d).DrainsOn (c'.queue d) := by
  cases h with
  | unattached _ _ => exact .of_eq (queue_shut _ _ d)
  | stopped _ _ _ hl =>
      rw [hl.queue, queue_halted, queue_shut]
      exact .halted _
  | stopBroken _ _ => exact absurd rfl (hk _)
  | flushing hf =>
      rw [hf.drainsOn (by rintro rfl; cases hn)]
      exact .of_eq rfl
  | _ => exact .of_eq rfl

/-- Nothing but settling ends the draining, or takes what is parked. -/
theorem Party.Step.drainsOn (h : Party.Step c p x c' p') (hp' : p'.Intact)
    (hn : p.settles = false) (d : Direction) : (c.queue d).DrainsOn (c'.queue d) := by
  cases h with
  | submission h => exact h.drainsOn d
  | attachment h => exact .of_eq (h.queue d)
  | dispatch h => exact h.drainsOn hp'.1 hn d
  | closing h => exact h.drainsOn hp' hn d

/-! ### What was handed out -/

/-- Whoever stops a queue holds what waited there, and the queue drains. -/
theorem Party.Step.drained {s : System} (h : Party.Step c p x c' p')
    (valid : ∀ e, (c.queue e).Valid e) (ha : a ∈ tickets d (Event.acted s p x p').drained) :
    (c.queue d).entries ≠ [] ∧ a ∈ tickets d p'.held ∧ (c'.queue d).isStopped = true ∧
      (c'.queue d).draining = true := by
  have all : a ∈ tickets d c.waiting → a ∈ tickets d (c.queue d).waiting := by
    rw [Channel.waiting, tickets_three (f := Queue.waiting) (fun e => (valid e).waiting) d]
    exact id
  have halted : ∀ (c' : Channel), a ∈ tickets d (c.queue d).waiting →
      c'.queue d = (c.queue d).halted → (c.queue d).entries ≠ [] ∧
        (c'.queue d).isStopped = true ∧ (c'.queue d).draining = true := by
    intro c' hw hq
    refine ⟨fun he => ?_, by rw [hq]; rfl, ?_⟩
    · rw [Queue.waiting, he] at hw
      cases hw
    · rw [hq]
      exact draining_halted (List.ne_nil_of_mem hw)
  cases h with
  | submission h => cases ha
  | attachment h => cases ha
  | dispatch h =>
      cases h with
      | hungUp _ hl =>
          obtain ⟨hn, hs, hd⟩ := halted _ (all ha) (by rw [hl.queue, queue_halted])
          exact ⟨hn, ha, hs, hd⟩
      | @inputEnded rest pending _ =>
          have hr : d = .receive := Decidable.byContradiction fun hr => by
            have none := tickets_eq_nil d (valid .receive).waiting hr
            have ha : a ∈ tickets d c.receive.waiting := ha
            rw [queue] at none
            rw [none] at ha
            cases ha
          subst hr
          obtain ⟨hn, hs, hd⟩ := halted (c.withQueue .receive c.receive.halted) ha rfl
          exact ⟨hn, ha, hs, hd⟩
      | _ => cases ha
  | closing h =>
      cases h with
      | stopped _ _ _ hl =>
          obtain ⟨hn, hs, hd⟩ := halted _ (all ha)
            (by rw [hl.queue, queue_halted, Closing.queue_shut])
          exact ⟨hn, ha, hs, hd⟩
      | _ => cases ha

theorem Flush.Step.holds {f f' : Flush} (h : Flush.Step c f x c' f')
    (ha : a ∈ tickets d f.held) :
    a ∈ tickets d (handedOver x).toList ∨ a ∈ tickets d f'.held := by
  cases h with
  | emptied | settled _ | parked _ => cases ha
  | @completed op rest =>
      rw [held, tickets_cons, List.mem_append] at ha
      have key := tickets_of_key d (Operation.key_withStatus op .shutdown)
      exact ha.imp (fun h => key ▸ h) id

/-- Whoever holds an operation that was handed out schedules it or keeps it. -/
theorem Party.Step.holds (h : Party.Step c p x c' p') (hp : p.Intact) (attached : c.attached = true)
    (out : p.out d = false) (ha : a ∈ tickets d p.held) :
    a ∈ tickets d (Channel.handedOver x).toList ∨ a ∈ tickets d p'.held := by
  -- the head that a sweep has checked out is of another direction
  have swept : ∀ {op : Operation} {sw : Sweep}, op.direction = sw.stage.direction →
      (sw.stage.direction == d) = false → a ∉ tickets d [op] := by
    intro op sw hd hs hm
    rw [tickets_eq_nil (e := op.direction) d (by simp) fun h => ?_] at hm
    · cases hm
    · rw [h, hd, beq_self_eq_true] at hs
      cases hs
  cases h with
  | submission h => cases ha
  | attachment h => cases ha
  | dispatch h =>
      cases h with
      | forceNone | flushedAll | flushedInput => cases ha
      | @forceNext op ops rest pending =>
          refine .inr ?_
          rw [Party.held, tickets_ofForced, tickets_of_key d (Attempt.key_start op), ← tickets_cons]
          exact ha
      | @forcing a ops rest pending reply =>
          refine .inr ?_
          rw [Party.held, tickets_ofForced, tickets_of_key d (Attempt.key_resume _ _ reply),
            ← tickets_cons]
          exact ha
      | forced =>
          rw [Party.held, Dispatch.held, tickets_cons, List.mem_append] at ha
          exact ha
      | flushing hf => exact hf.holds ha
      | attempted _ | restored _ | completed | restoreBroken _ =>
          exact absurd ha (swept hp.2 out)
      | _ => cases ha
  | closing h =>
      cases h with
      | released _ => exact .inr ha
      | releasedUnattached hn =>
          rw [attached] at hn
          cases hn
      | flushing hf => exact hf.holds ha
      | _ => cases ha

/-! ### Settling -/

/-- A queue is stopped only once the channel has joined the reactor. -/
theorem Run.attached_of_stopped (run : Run use t s) (h : (s.channel.queue d).isStopped = true) :
    s.channel.attached = true := by
  cases ha : s.channel.attached with
  | true => rfl
  | false =>
      rw [(run.controlled.idle ha).2.1 d] at h
      cases h

/-- The head of a stopped queue is not checked out. -/
theorem Run.not_out_of_stopped (run : Run use t s) (h : (s.channel.queue d).isStopped = true)
    (hp : p ∈ s.parties) : p.out d = false := by
  cases ho : p.out d with
  | false => rfl
  | true =>
      have heads := run.orderly.heads d
      rw [List.any_eq_true.mpr ⟨p, hp, ho⟩] at heads
      obtain ⟨n, rest, he, -⟩ := heads
      rw [(run.orderly.valid d).emptied h] at he
      cases he

theorem Party.carries_of_settles (h : p.settles = true) : p.carries = true := by
  unfold settles at h
  split at h
  · rfl
  · rfl
  · cases h

theorem Party.held_of_settles (h : p.settles = true) : p.held = [] := by
  unfold settles at h
  split at h
  · rfl
  · rfl
  · cases h

theorem Party.Step.silent_of_settles (h : Party.Step c p x c' p') (hn : p.settles = true) :
    x = none := by
  cases h with
  | submission _ => cases hn
  | attachment _ => cases hn
  | dispatch h =>
      cases h with
      | flushing hf => cases hf <;> first | rfl | cases hn
      | _ => cases hn
  | closing h =>
      cases h with
      | flushing hf => cases hf <;> first | rfl | cases hn
      | _ => cases hn

theorem System.mem_inLine (hp : p ∈ s.parties) (ha : a ∈ tickets d p.held) : a ∈ s.inLine d := by
  obtain ⟨op, ho, ht⟩ := List.mem_filterMap.mp ha
  refine List.mem_filterMap.mpr ⟨op, List.mem_append_left _ ?_, ht⟩
  exact List.mem_flatMap.mpr ⟨p, hp, ho⟩

/-- While one close is past its stop, no dispatch is inside. -/
theorem Run.outside_of_hasShut (run : Run use t s) (attached : s.channel.attached = true)
    (shut : s.HasShut) (hp : p ∈ s.parties) : p.inside = false := by
  have lock := run.orderly.lock
  rw [(run.controlled.shut attached (.inr shut)).dispatching] at lock
  simpa using List.countP_eq_zero.mp lock p hp

/-- Who settles while somebody else holds what a stop handed out is a close, and so is the other. -/
theorem Draining.settlesOver (run : Run use t ⟨c, l₁ ++ p :: l₂⟩)
    (h : Draining d a ⟨c, l₁ ++ p :: l₂⟩) (hn : p.settles = true) :
    Event.SettlesOver d a (.acted ⟨c, l₁ ++ p :: l₂⟩ p x p') := by
  obtain ⟨q, hq, ha⟩ := h.held
  have attached := run.attached_of_stopped h.stopped
  have other : q ∈ l₁ ++ l₂ := by
    refine (mem_middle.mp hq).resolve_left ?_
    rintro rfl
    rw [Party.held_of_settles hn] at ha
    cases ha
  have carries_p : p.inside = true ∨ p.closes = true :=
    Bool.or_eq_true_iff.mp (Party.carries_of_settles hn)
  have carries_q : q.inside = true ∨ q.closes = true := by
    rw [← Bool.or_eq_true_iff]
    refine (Bool.not_eq_false _).mp fun hc => ?_
    rw [Party.held_of_not_carries hc] at ha
    cases ha
  have apart : ∀ {r : Party}, r ∈ l₁ ++ p :: l₂ → r.closes = true →
      ∀ {o : Party}, o ∈ l₁ ++ p :: l₂ → o.inside = true → False := by
    intro r hr hc o ho hi
    rw [run.outside_of_hasShut attached ⟨r, hr, Party.hasShut_of_closes hc⟩ ho] at hi
    cases hi
  have mem : p ∈ l₁ ++ p :: l₂ := by simp
  -- two dispatches are never inside together, and a close past its stop keeps them outside
  have closes : p.closes = true ∧ q.closes = true := by
    rcases carries_p with hp | hp <;> rcases carries_q with hi | hi
    · rw [Orderly.others_outside run.orderly.lock (.inl hp) q other] at hi
      cases hi
    · exact (apart hq hi mem hp).elim
    · exact (apart mem hp hq hi).elim
    · exact ⟨hp, hi⟩
  cases q with
  | closing k' =>
      unfold Party.settles at hn
      split at hn
      · cases closes.1
      · exact ⟨k', hq, ha⟩
      · cases hn
  | _ => cases closes.2

/-- What was handed out is scheduled or held on to, as long as nobody settles. -/
theorem Draining.step (run : Run use t ⟨c, l₁ ++ p :: l₂⟩)
    (h : Draining d a ⟨c, l₁ ++ p :: l₂⟩) (hs : p.Step c x c' p') (hn : p.settles = false) :
    a ∈ tickets d (handedOver x).toList ∨ Draining d a ⟨c', l₁ ++ p' :: l₂⟩ := by
  have order := run.orderly
  have hp : p.Intact := order.intact p (by simp)
  have hp' : p'.Intact := (order.step hs).intact p' (by simp)
  have stopped := (hs.change hp hp' d).stopped (order.valid d) h.stopped
  have drains := (hs.drainsOn hp' hn d).draining h.drains
  obtain ⟨q, hq, ha⟩ := h.held
  rcases mem_middle.mp hq with rfl | hq
  · have attached := run.attached_of_stopped h.stopped
    have out := run.not_out_of_stopped h.stopped hq
    exact (hs.holds hp attached out ha).imp id fun ha => ⟨⟨p', by simp, ha⟩, stopped, drains⟩
  · exact .inr ⟨⟨q, mem_middle.mpr (.inr hq), ha⟩, stopped, drains⟩

/-- A submission before the gate of a queue that drains stays there, or its operation is parked. -/
theorem Submission.Step.waits {s s' : Submission} (h : Submission.Step c s x c' s')
    (gate : s.phase.atGate = true) {op : Operation} (ho : s.phase.op? = some op)
    (attached : c.attached = true) (stopped : (c.queue op.direction).isStopped = true)
    (drains : (c.queue op.direction).draining = true) :
    s'.phase.atGate = true ∨ op ∈ (c'.queue op.direction).parked := by
  cases h with
  | enterJoined _ => exact .inl rfl
  | enterClosed ha _ | enterEarly ha _ _ | enterFirst ha _ _ | attachDone ha | attachFailed ha =>
      rw [attached] at ha
      cases ha
  | @attachJoined _ _ tried _ =>
      cases tried with
      | false => exact .inl rfl
      | true => cases gate
  | offerIdle hs _ | offerBusy hs _ =>
      cases ho
      rw [stopped] at hs
      cases hs
  | offerStopped _ hd =>
      cases ho
      rw [drains] at hd
      cases hd
  | offerDraining _ _ =>
      cases ho
      refine .inr ?_
      rw [queue_abandon, queue_withQueue]
      exact List.mem_append_right _ (.head _)
  | _ => cases gate

/-- Whoever came late stays before the gate or is parked, as long as nobody settles. -/
theorem Waits.step (run : Run use t ⟨c, l₁ ++ p :: l₂⟩) (h : Draining d a ⟨c, l₁ ++ p :: l₂⟩)
    (hs : p.Step c x c' p') (hn : p.settles = false) (hw : Waits d n ⟨c, l₁ ++ p :: l₂⟩) :
    Waits d n ⟨c', l₁ ++ p' :: l₂⟩ := by
  have hp' : p'.Intact := (run.orderly.step hs).intact p' (by simp)
  cases hw with
  | parked hn' =>
      obtain ⟨op, ho, ht⟩ := List.mem_filterMap.mp hn'
      exact .parked (List.mem_filterMap.mpr ⟨op, (hs.drainsOn hp' hn d).parked op ho, ht⟩)
  | @atGate op sub hm ht gate =>
      rcases mem_middle.mp hm with rfl | hm
      · obtain ⟨o, ho⟩ := Submission.Phase.op?_of_atGate gate
        have key : o.key = op.key := (run.orderly.intact _ hm).2 o ho
        have ticket : o.ticketIn d = some n := by rw [Operation.ticketIn_of_key key, ht]
        have direction : o.direction = d := by
          refine Decidable.byContradiction fun hd => ?_
          rw [Operation.ticketIn_eq_none hd] at ticket
          cases ticket
        subst direction
        cases hs with
        | @submission _ _ sub' _ _ hs =>
            rcases hs.waits gate ho (run.attached_of_stopped h.stopped) h.stopped h.drains with
              gate' | parked
            · exact .atGate (mem_middle.mpr (.inl rfl)) ht gate'
            · exact .parked (List.mem_filterMap.mpr ⟨o, parked, ticket⟩)
      · exact .atGate (mem_middle.mpr (.inr hm)) ht gate

/-- Who waits has not been scheduled. -/
theorem Waits.not_scheduled (run : Run use t s) (h : Waits d n s) :
    t.countP (·.schedules n) = 0 := by
  refine run.not_scheduled (d := d) ?_
  cases h with
  | atGate hm hn gate =>
      obtain ⟨o, ho⟩ := Submission.Phase.op?_of_atGate gate
      have := List.count_pos_iff.mpr (run.brought_of_op? hm ho hn)
      omega
  | parked hn =>
      have inLine : n ∈ s.inLine d := by
        rw [System.inLine, line, tickets_append, tickets_append]
        exact List.mem_append_right _ (List.mem_append_right _ hn)
      have := List.count_pos_iff.mpr inLine
      omega

/-! ### Until it is scheduled -/

/-- The operation with ticket `a` has been scheduled, or a close has settled over it. -/
def Cleared (d : Direction) (a : Nat) (t : List Event) : Prop :=
  ∃ e ∈ t, e.schedules a = true ∨ e.SettlesOver d a

/-- What was handed out is still held, and `Q` holds with it, unless it has been cleared. -/
def Shielded (d : Direction) (a : Nat) (Q : System → Prop) (t : List Event) (s : System) : Prop :=
  Cleared d a t ∨ (Draining d a s ∧ Q s)

theorem Cleared.cons (h : Cleared d a t) : Cleared d a (e :: t) := by
  obtain ⟨e', he, hc⟩ := h
  exact ⟨e', List.mem_cons_of_mem e he, hc⟩

section shielded
variable {Q : System → Prop}

theorem Draining.join (h : Draining d a s) : Draining d a ⟨s.channel, s.parties ++ [p]⟩ := by
  obtain ⟨q, hq, ha⟩ := h.held
  exact ⟨⟨q, List.mem_append_left _ hq, ha⟩, h.stopped, h.drains⟩

theorem Shielded.join (h : Shielded d a Q t s) (keeps : Q s → Q ⟨s.channel, s.parties ++ [p]⟩) :
    Shielded d a Q (.joined s p :: t) ⟨s.channel, s.parties ++ [p]⟩ :=
  h.imp Cleared.cons fun ⟨draining, hq⟩ => ⟨draining.join, keeps hq⟩

theorem Shielded.act (run : Run use t ⟨c, l₁ ++ p :: l₂⟩) (hs : p.Step c x c' p')
    (h : Shielded d a Q t ⟨c, l₁ ++ p :: l₂⟩)
    (keeps : Draining d a ⟨c, l₁ ++ p :: l₂⟩ → p.settles = false → Q ⟨c, l₁ ++ p :: l₂⟩ →
      Q ⟨c', l₁ ++ p' :: l₂⟩) :
    Shielded d a Q (.acted ⟨c, l₁ ++ p :: l₂⟩ p x p' :: t) ⟨c', l₁ ++ p' :: l₂⟩ := by
  rcases h with cleared | ⟨draining, hq⟩
  · exact .inl cleared.cons
  · cases hn : p.settles with
    | true => exact .inl ⟨_, .head _, .inr (draining.settlesOver run hn)⟩
    | false =>
        rcases draining.step run hs hn with scheduled | draining'
        · refine .inl ⟨_, .head _, .inl ?_⟩
          obtain ⟨op, ho, ht⟩ := List.mem_filterMap.mp scheduled
          have hx : handedOver x = some op := Option.mem_toList.mp ho
          simp [Event.schedules, Event.scheduled?, hx, Operation.ticket_of_ticketIn ht]
        · exact .inr ⟨draining', keeps draining hn hq⟩

end shielded

/-- What a stop handed out is held while its queue drains, until it is cleared. -/
theorem Run.shielded (run : Run use (between ++ stop :: older) s)
    (ha : a ∈ tickets d stop.drained) :
    Shielded d a (fun _ => True) (between ++ stop :: older) s := by
  refine run.lasts_after (P := Shielded d a fun _ => True) ?_ ?_ ?_
  · exact fun _ _ h => h.join id
  · exact fun run yields h => h.act run (Party.step_of_yields yields) fun _ _ => id
  · intro s' run'
    cases run' with
    | join _ _ _ _ => cases ha
    | @act t c l₁ l₂ p run x turn yields =>
        obtain ⟨-, held, stopped, drains⟩ :=
          (Party.step_of_yields yields).drained run.orderly.valid ha
        exact .inr ⟨⟨⟨turn.phase, by simp, held⟩, stopped, drains⟩, trivial⟩

/-- A queue that was stopped before a stop hands out nothing then. -/
theorem Run.not_stopped_of_drained (run : Run use (stop :: older) s)
    (ha : a ∈ tickets d stop.drained) : (stop.system.channel.queue d).isStopped = false := by
  cases run with
  | join _ _ _ _ => cases ha
  | @act t c l₁ l₂ p run x turn yields =>
      obtain ⟨some, -⟩ := (Party.step_of_yields yields).drained run.orderly.valid ha
      cases hs : (c.queue d).isStopped with
      | false => exact hs
      | true => exact absurd ((run.orderly.valid d).emptied hs) some

theorem Run.stopped_since (run : Run use (newer ++ e :: older) s)
    (h : (e.system.channel.queue d).isStopped = true) :
    (s.channel.queue d).isStopped = true := by
  refine run.lasts (P := fun _ s => (s.channel.queue d).isStopped = true) (fun _ _ h => h) ?_ h
  intro t c l₁ l₂ p x turn run yields h
  exact run.orderly.stays_stopped (Party.step_of_yields yields) h

theorem Waits.join (h : Waits d n s) : Waits d n ⟨s.channel, s.parties ++ [p]⟩ := by
  cases h with
  | atGate hm hn gate => exact .atGate (List.mem_append_left _ hm) hn gate
  | parked hn => exact .parked hn

/-- Whoever is parked has been so since a stop, which handed out everything that waited. -/
theorem Run.stopped_of_parked (run : Run use t s)
    (hn : n ∈ tickets d (s.channel.queue d).parked) : (s.channel.queue d).isStopped = true := by
  have valid := run.orderly.valid d
  refine valid.drains (valid.parks ?_)
  rintro none
  rw [none] at hn
  cases hn

/-- An operation that was submitted after a stop, or that was parked, waits until all that the stop
handed out has been cleared. -/
theorem Run.waits (run : Run use (between ++ stop :: older) s) (ha : a ∈ tickets d stop.drained)
    (late : (∃ s₁ op sub, .joined s₁ (.submission op sub) ∈ between ∧ op.ticketIn d = some n) ∨
      ∃ e₁ ∈ between ++ stop :: older, n ∈ tickets d (e₁.system.channel.queue d).parked) :
    Shielded d a (Waits d n) (between ++ stop :: older) s := by
  rcases late with ⟨s₁, op, sub, hj, hn⟩ | ⟨e₁, he, hn⟩
  · obtain ⟨m₁, m₂, rfl⟩ := List.append_of_mem hj
    rw [List.append_assoc, List.cons_append] at run ⊢
    refine run.lasts_after (P := Shielded d a (Waits d n)) ?_ ?_ ?_
    · exact fun _ _ h => h.join Waits.join
    · exact fun run yields h => h.act run (Party.step_of_yields yields) fun draining hn =>
        .step run draining (Party.step_of_yields yields) hn
    · intro s' run'
      cases run' with
      | join run begins _ _ =>
          have gate : sub.phase.atGate = true := by cases begins <;> rfl
          refine (run.shielded ha).imp Cleared.cons fun ⟨draining, _⟩ => ⟨draining.join, ?_⟩
          exact .atGate (by simp) hn gate
  · rcases List.mem_append.mp he with he | he
    · obtain ⟨m₁, m₂, rfl⟩ := List.append_of_mem he
      rw [List.append_assoc, List.cons_append] at run ⊢
      refine run.lasts (P := Shielded d a (Waits d n)) ?_ ?_ ?_
      · exact fun _ _ h => h.join Waits.join
      · exact fun run yields h => h.act run (Party.step_of_yields yields) fun draining hn =>
          .step run draining (Party.step_of_yields yields) hn
      · exact (run.before.shielded ha).imp id fun ⟨draining, _⟩ => ⟨draining, .parked hn⟩
    · -- the queue was stopped already, so that nothing was handed out
      exfalso
      obtain ⟨s', run'⟩ := run.earlier
      have stopped : (stop.system.channel.queue d).isStopped = true := by
        rcases List.mem_cons.mp he with rfl | he
        · exact run.before.stopped_of_parked hn
        · obtain ⟨m₁, m₂, rfl⟩ := List.append_of_mem he
          have before := run.before
          exact before.stopped_since (before.before.stopped_of_parked hn)
      rw [run'.not_stopped_of_drained ha] at stopped
      cases stopped

/-- A submission to a queue that is stopped and does not drain is completed at once. -/
theorem Run.overtakes (run : Run use t s) {op : Operation}
    (stopped : (s.channel.queue op.direction).isStopped = true)
    (settled : (s.channel.queue op.direction).draining = false) (unused : s.Unused op.ticket)
    (allowed : use (.submission op (.direct op))) :
    ∃ newer s', Run use (newer ++ t) s' ∧ scheduled newer = [op.withStatus .shutdown] := by
  obtain ⟨c, parties⟩ := s
  have joined := run.join (p := .submission op (.direct op))
    (.submission op (run.attached_of_stopped stopped)) allowed fun o ho => by
      cases ho
      exact unused
  have offer : (Party.submission op (.direct op)).next c =
      .step ⟨c, .submission op ⟨false, .complete (op.withStatus .shutdown)⟩, []⟩ := by
    simp only [Party.next, Submission.next, Submission.direct,
      Queue.offer_stopped op stopped settled, Submission.afterOffer, withQueue_queue]
    rfl
  have offered := @Next.Yields.step Call _ Channel Party c
    ⟨c, .submission op ⟨false, .complete (op.withStatus .shutdown)⟩, []⟩
  rw [← offer] at offered
  have completed := (joined.act offered).act (Next.Yields.ask _ _ ())
  exact ⟨[_, _, _], _, completed, rfl⟩

/-- An accept that waits, a close that has handed it out and releases the descriptor, and another
close meanwhile, which settles the queues. -/
def closeWithinClose : List Choice :=
  [.join (.submission false (.accept 7 default)), .act 0 notReady, .act 0 notReady,
    .act 0 notReady, .join (.closing false), .act 1 notReady, .join (.closing false),
    .act 2 notReady, .act 2 notReady, .act 2 notReady, .act 2 notReady]

/-- An accept that is submitted after that. -/
def acceptAfterwards : List Choice :=
  [.join (.submission false (.accept 8 default)), .act 3 notReady, .act 3 notReady]

end Channel
end Proactor
