import Proactor.Proofs.Fates
import Proactor.Proofs.Glances
/-! # How often a submission tries

A submission that was not ready tries again while its queue keeps a hint.  Nothing counts how often
it does, but a hint is used up by whoever tries, and only a snapshot leaves a new one.

* **Events.**  The call that submits an operation is under way (`Event.during`), it begins an
  attempt (`Event.triesInline`), a snapshot of the operation's queue is taken meanwhile
  (`Event.snapshotsDuring`).
* **Hints** (`Queue.hint`).  A hint is worth one attempt.  A step leaves a hint where there was
  none only if it takes a snapshot (`Party.Step.hint_le`).
* **Frugality** (`Frugal`).  Attempts and the hint together are at most one more than the
  snapshots.  Every step keeps this, and it bounds the attempts (`Run.never_spins`). -/

namespace Proactor

/-- What the queue's hint is worth: one attempt. -/
def Queue.hint (q : Queue) : Nat := if q.state = .set then 1 else 0

theorem Queue.hint_le_one (q : Queue) : q.hint ≤ 1 := by
  unfold hint
  split <;> decide

theorem Queue.hint_of_set {q : Queue} (h : q.state = .set) : q.hint = 1 := if_pos h

namespace Channel

/-- The submission has not begun an attempt. -/
def Submission.Phase.untried : Submission.Phase → Bool
  | enter _ | attach _ false | offer _ => true
  | _ => false

/-- The call that submits the operation with this ticket is under way. -/
def Party.submitting (n : Nat) : Party → Bool
  | submission op s => op.ticket == n && !s.phase.isFinal
  | _ => false

namespace Event

/-- It happened during the call that submits the operation with this ticket. -/
def during (n : Nat) (e : Event) : Bool := e.system.parties.any (·.submitting n)

/-- The call that submits the operation with this ticket begins an attempt. -/
def triesInline (n : Nat) : Event → Bool
  | acted s p _ _ => p.operation?.isSome && (p.begins? s.channel).any (·.ticket == n)
  | joined _ _ => false

/-- A snapshot of the direction is taken during the call that submits the operation with this
ticket. -/
def snapshotsDuring (n : Nat) (d : Direction) (e : Event) : Bool := e.snapshots d && e.during n

/-- A dispatch takes a step. -/
def dispatches : Event → Bool
  | acted _ (.dispatch _) _ _ => true
  | _ => false

/-- An attempt that a submission begins is one that begins. -/
theorem begins_of_triesInline {n : Nat} {e : Event} (h : e.triesInline n = true) :
    e.begins n = true := by
  cases e with
  | joined _ _ => cases h
  | acted _ _ _ _ => exact (Bool.and_eq_true_iff.mp h).2

/-- Snapshots are taken by dispatches. -/
theorem dispatches_of_snapshots {d : Direction} {e : Event} (h : e.snapshots d = true) :
    e.dispatches = true := by
  unfold snapshots at h
  split at h
  · rfl
  · cases h

end Event

/-- Attempts and the hint of the queue together are at most one more than the snapshots, as long as
the call is under way. -/
structure Frugal (n : Nat) (d : Direction) (t : List Event) (q : Queue)
    (phase : Submission.Phase) : Prop where
  untried : phase.untried = true → t.countP (·.triesInline n) = 0
  saved : phase.isFinal = false →
    t.countP (·.triesInline n) + q.hint ≤ t.countP (·.snapshotsDuring n d) + 1
  atMost : t.countP (·.triesInline n) ≤ t.countP (·.snapshotsDuring n d) + 1

variable {use : Party → Prop} {c c' : Channel} {l₁ l₂ : List Party} {p p' : Party}
  {x : Option (Exchange Call)} {t : List Event} {s : System} {d : Direction} {op : Operation}

/-! ### Hints -/

theorem hint_le_of_eq (h : c'.queue d = c.queue d) : (c'.queue d).hint ≤ (c.queue d).hint :=
  Nat.le_of_eq (congrArg Queue.hint h)

theorem hint_withQueue {e : Direction} {q : Queue} (h : q.hint ≤ (c.queue e).hint) :
    ((c.withQueue e q).queue d).hint ≤ (c.queue d).hint := by
  by_cases hd : d = e
  · subst hd
    rwa [queue_withQueue]
  · exact hint_le_of_eq (queue_withQueue_ne c q hd)

theorem Submission.Step.hint_le {s s' : Submission} (h : Submission.Step c s x c' s') :
    (c'.queue d).hint ≤ (c.queue d).hint := by
  cases h with
  | enterJoined _ | enterClosed _ _ | enterEarly _ _ _ | enterFirst _ _ _ | attachDone _ =>
      exact hint_le_of_eq (queue_update rfl rfl rfl d)
  | attachJoined _ | attachFailed _ | offerStopped _ _ | attempted _ | enlistStopped _ _ =>
      exact Nat.le_refl _
  | completed => exact hint_le_of_eq (queue_abandon _ _ d)
  | offerIdle _ _ | enlistHinted _ _ => exact hint_withQueue (Nat.zero_le _)
  | offerBusy _ _ | enlistWaiting _ _ | offerDraining _ _ | enlistDraining _ _ =>
      rw [queue_abandon]
      exact hint_withQueue (Nat.le_refl _)

theorem Flush.Step.hint_le {f f' : Flush} (h : Flush.Step c f x c' f') :
    (c'.queue d).hint ≤ (c.queue d).hint := by
  cases h with
  | emptied | completed => exact Nat.le_refl _
  | settled _ | parked _ =>
      rw [queue_settle]
      exact Nat.le_refl _

theorem Closing.Step.hint_le {k k' : Closing} (h : Closing.Step c k x c' k')
    (hk : ∀ v, k'.phase ≠ .broken v) : (c'.queue d).hint ≤ (c.queue d).hint := by
  cases h with
  | again _ | released _ | releasedUnattached _ | flushed => exact Nat.le_refl _
  | unattached _ _ => exact hint_le_of_eq (queue_shut _ _ d)
  | stopped _ _ _ hl =>
      rw [hl.queue, queue_halted]
      exact Nat.zero_le _
  | stopBroken _ _ => exact absurd rfl (hk _)
  | flushing hf => exact hf.hint_le

theorem Dispatch.Step.hint_le {k k' : Dispatch} (h : Dispatch.Step c k x c' k')
    (hk : ∀ v, k' ≠ broken v) (l : List Party) : (c'.queue d).hint ≤ (c.queue d).hint +
      (Event.snapshots d (.acted ⟨c, l⟩ (.dispatch k) x (.dispatch k'))).toNat := by
  cases h with
  | @sweepBegun stage rest again pending hs =>
      by_cases hd : d = stage.direction
      · have snapshot : Event.snapshots d (.acted ⟨c, l⟩
            (.dispatch (sweep (stage :: rest) again pending)) none
            (.dispatch (checkOut ⟨stage, (c.queue stage.direction).next, rest, again, pending⟩))) =
              true := by
          simp [Event.snapshots, hd]
        rw [snapshot]
        exact Nat.le_add_left_of_le (Queue.hint_le_one _)
      · rw [queue_withQueue_ne c _ hd]
        exact Nat.le_add_right _ _
  | hangUpBroken _ | endInputBroken _ | checkOutBroken _ | restoreBroken _ | retireBroken _ =>
      exact absurd rfl (hk _)
  | hungUp _ hl =>
      rw [hl.queue, queue_halted]
      exact Nat.zero_le _
  | inputEnded _ | restored _ => exact Nat.le_add_right_of_le (hint_withQueue (Nat.zero_le _))
  | checkOutReady _ _ _ | retired _ =>
      exact Nat.le_add_right_of_le (hint_withQueue (Nat.le_refl _))
  | flushing hf => exact Nat.le_add_right_of_le hf.hint_le
  | _ =>
      rw [queue_update rfl rfl rfl d]
      exact Nat.le_add_right _ _

/-- Where there was no hint, only a snapshot leaves one. -/
theorem Party.Step.hint_le (h : Step c p x c' p') (hp' : p'.Intact) (l : List Party) :
    (c'.queue d).hint ≤ (c.queue d).hint + (Event.snapshots d (.acted ⟨c, l⟩ p x p')).toNat := by
  cases h with
  | submission h => exact Nat.le_add_right_of_le h.hint_le
  | attachment h =>
      rw [h.queue]
      exact Nat.le_add_right _ _
  | dispatch h => exact h.hint_le hp'.1 l
  | closing h => exact Nat.le_add_right_of_le (h.hint_le hp')

/-! ### Attempts -/

/-- What a submission begins to attempt is what it has. -/
theorem Submission.op?_of_begins {o : Operation} {s : Submission}
    (h : (Party.submission op s).begins? c = some o) : s.phase.op? = some o := by
  obtain ⟨g, phase⟩ := s
  cases phase with
  | enter op =>
      simp only [Party.begins?] at h
      split at h
      · exact h
      · cases h
  | offer op =>
      simp only [Party.begins?] at h
      split at h
      · next hq =>
        rw [(Queue.in_use_of_attempt hq).1] at h
        exact h
      · cases h
  | enlist op =>
      simp only [Party.begins?] at h
      split at h
      · next hq =>
        rw [(Queue.in_use_of_retry hq).1] at h
        exact h
      · cases h
  | _ => cases h

/-- Only the call that submits an operation tries it inline. -/
theorem Party.submits_of_triesInline {n : Nat} (intact : p.Intact)
    (h : Event.triesInline n (.acted s p x p') = true) : p.Submits n := by
  obtain ⟨submits, begins⟩ := Bool.and_eq_true_iff.mp h
  cases p with
  | submission op sub =>
      obtain ⟨o, ho, hn⟩ := (Option.any_eq_true _ _).mp begins
      have key := intact.2 o (Submission.op?_of_begins ho)
      exact ⟨op, sub, rfl, (Operation.ticket_eq_of_key key).symm.trans (eq_of_beq hn)⟩
  | _ => cases submits

theorem Submission.Step.not_final {s s' : Submission} (h : Submission.Step c s x c' s') :
    s.phase.isFinal = false := by
  cases h <;> rfl

theorem Submission.untried_ofProgress (early : Bool) (r : Progress) :
    (Submission.Phase.ofProgress early r).untried = false := by
  cases r with
  | calling a | ready op => rfl
  | notReady op => cases early <;> rfl

theorem Submission.untried_joined {tried : Bool}
    (h : (Submission.Phase.joined op tried).untried = true) :
    (Submission.Phase.attach op tried).untried = true := by
  cases tried with
  | false => rfl
  | true => cases h

/-- A step of a submission begins no attempt; or it begins the first one, or one for which it uses
up the hint, and leaves no hint. -/
theorem Submission.Step.tries {s s' : Submission} (h : Submission.Step c s x c' s')
    (op : Operation) (idle : c.attached = false → ∀ d, c.queue d = {}) :
    ((Party.submission op s).begins? c = none ∧
        (s'.phase.untried = true → s.phase.untried = true)) ∨
      ∃ o, (Party.submission op s).begins? c = some o ∧ s'.phase.untried = false ∧
        (c'.queue o.direction).hint = 0 ∧
        (s.phase.untried = true ∨ (c.queue o.direction).hint = 1) := by
  have never : ∀ {P : Prop}, false = true → P := fun h => absurd h Bool.false_ne_true
  cases h with
  | @enterEarly g o ha ho hc =>
      refine .inr ⟨o, by simp [Party.begins?, ha, ho, hc], rfl, ?_, .inl rfl⟩
      exact congrArg Queue.hint ((queue_update rfl rfl rfl _).trans (idle ha _))
  | @offerIdle g o hs he =>
      refine .inr ⟨o, by simp [Party.begins?, Queue.offer_idle _ hs he],
        untried_ofProgress _ _, ?_, .inl rfl⟩
      rw [queue_withQueue]
      rfl
  | @enlistHinted g o hs he =>
      refine .inr ⟨o, by simp [Party.begins?, Queue.enlist_hinted _ hs he],
        untried_ofProgress _ _, ?_, .inr (Queue.hint_of_set hs)⟩
      rw [queue_withQueue]
      rfl
  | enterJoined hj => exact .inl ⟨by simp [Party.begins?, hj], fun _ => rfl⟩
  | enterClosed _ ho => exact .inl ⟨by simp [Party.begins?, ho], never⟩
  | enterFirst _ _ hc => exact .inl ⟨by simp [Party.begins?, hc], fun _ => rfl⟩
  | attachJoined _ | attachDone _ => exact .inl ⟨rfl, untried_joined⟩
  | attempted _ => exact .inl ⟨rfl, fun h => never ((untried_ofProgress _ _).symm.trans h)⟩
  | attachFailed _ | completed => exact .inl ⟨rfl, never⟩
  | offerBusy hs he => exact .inl ⟨by simp [Party.begins?, Queue.offer_busy _ hs he], never⟩
  | offerStopped hs hd => exact .inl ⟨by simp [Party.begins?, Queue.offer_stopped _ hs hd], never⟩
  | offerDraining hs hd =>
      exact .inl ⟨by simp [Party.begins?, Queue.offer_draining _ hs hd], never⟩
  | enlistWaiting hs hn =>
      exact .inl ⟨by simp [Party.begins?, Queue.enlist_waiting _ hs hn], never⟩
  | enlistStopped hs hd =>
      exact .inl ⟨by simp [Party.begins?, Queue.enlist_stopped _ hs hd], never⟩
  | enlistDraining hs hd =>
      exact .inl ⟨by simp [Party.begins?, Queue.enlist_draining _ hs hd], never⟩

/-! ### Frugality -/

namespace Frugal

variable {n : Nat} {e : Event} {q q' : Queue} {phase phase' : Submission.Phase}

/-- Nothing is attempted before it is submitted. -/
theorem fresh (h : t.countP (·.triesInline n) = 0) : Frugal n d t q phase := by
  refine ⟨fun _ => h, fun _ => ?_, ?_⟩
  · have := q.hint_le_one
    omega
  · omega

/-- While no attempt begins, only snapshots leave hints. -/
theorem goes_on (h : Frugal n d t q phase) (none : e.triesInline n = false)
    (untried : phase'.untried = true → phase.untried = true)
    (hint : phase'.isFinal = false →
      phase.isFinal = false ∧ q'.hint ≤ q.hint + (e.snapshotsDuring n d).toNat) :
    Frugal n d (e :: t) q' phase' := by
  have same : (e :: t).countP (·.triesInline n) = t.countP (·.triesInline n) :=
    List.countP_cons_of_neg (by simp [none])
  have more : (e :: t).countP (·.snapshotsDuring n d) =
      t.countP (·.snapshotsDuring n d) + (e.snapshotsDuring n d).toNat := by
    rw [List.countP_cons]
    cases e.snapshotsDuring n d <;> rfl
  refine ⟨fun hu => same.trans (h.untried (untried hu)), fun hf => ?_, ?_⟩
  · obtain ⟨before, left⟩ := hint hf
    have := h.saved before
    omega
  · have := h.atMost
    omega

/-- An attempt that begins uses up the hint, or it is the first one. -/
theorem tries (h : Frugal n d t q phase) (going : phase.isFinal = false)
    (first : phase.untried = true ∨ q.hint = 1) (none : q'.hint = 0)
    (tried : phase'.untried = false) : Frugal n d (e :: t) q' phase' := by
  have one : (e :: t).countP (·.triesInline n) ≤ t.countP (·.triesInline n) + 1 := by
    rw [List.countP_cons]
    split <;> omega
  have more : t.countP (·.snapshotsDuring n d) ≤ (e :: t).countP (·.snapshotsDuring n d) :=
    (List.sublist_cons_self e t).countP_le
  -- the hint pays for the attempt; the first one is free
  have room : t.countP (·.triesInline n) ≤ t.countP (·.snapshotsDuring n d) := by
    rcases first with untried | hint
    · have := h.untried untried
      omega
    · have := h.saved going
      omega
  refine ⟨fun hu => ?_, fun _ => ?_, ?_⟩
  · rw [tried] at hu
    cases hu
  · omega
  · omega

end Frugal

/-- A submission stays frugal when it takes a step. -/
theorem Submission.Step.frugal {s s' : Submission} {l : List Party}
    (h : Submission.Step c s x c' s') (intact : (Party.submission op s).Intact)
    (idle : c.attached = false → ∀ d, c.queue d = {})
    (frugal : Frugal op.ticket op.direction t (c.queue op.direction) s.phase) :
    Frugal op.ticket op.direction (.acted ⟨c, l⟩ (.submission op s) x (.submission op s') :: t)
      (c'.queue op.direction) s'.phase := by
  rcases h.tries op idle with ⟨none, untried⟩ | ⟨o, begins, tried, hint, first⟩
  · refine frugal.goes_on ?_ untried fun _ => ⟨h.not_final, Nat.le_add_right_of_le h.hint_le⟩
    simp [Event.triesInline, none]
  · have key := intact.2 o (Submission.op?_of_begins begins)
    rw [Operation.direction_eq_of_key key] at hint first
    exact frugal.tries h.not_final first hint tried

/-- What was submitted is tried frugally. -/
theorem Run.frugal (run : Run use t s) {sub : Submission}
    (submitted : .submission op sub ∈ s.parties) :
    Frugal op.ticket op.direction t (s.channel.queue op.direction) sub.phase := by
  induction run generalizing sub with
  | start first => simp [first.parties] at submitted
  | @join t s run p begins allowed unused ih =>
      rcases List.mem_append.mp submitted with old | new
      · exact (ih old).goes_on rfl id fun going => ⟨going, Nat.le_add_right _ _⟩
      · cases List.mem_singleton.mp new
        refine .fresh (List.countP_eq_zero.mpr fun e he tries => ?_)
        rcases List.mem_cons.mp he with rfl | he
        · cases tries
        · obtain ⟨o, ho, hn⟩ := Event.tried_of_begins (Event.begins_of_triesInline tries)
          exact run.untried (unused op rfl) he ho hn
  | @act t c l₁ l₂ p run x turn yields ih =>
      have step := Party.step_of_yields yields
      have intact := run.orderly.intact p (by simp)
      have intact' := run.orderly.next step
      have idle : c.attached = false → ∀ d, c.queue d = {} :=
        fun ha => (run.controlled.idle ha).2.1
      rcases mem_middle.mp submitted with hp | other
      · rw [← hp] at step ⊢
        cases step with
        | submission h => exact h.frugal intact idle (ih (mem_middle.mpr (.inl rfl)))
      · -- somebody else tries another operation, and leaves a hint only with a snapshot
        have before : .submission op sub ∈ l₁ ++ p :: l₂ := mem_middle.mpr (.inr other)
        refine (ih before).goes_on ?_ id fun going => ⟨going, ?_⟩
        · refine Bool.eq_false_iff.mpr fun tries => ?_
          have submits := Party.submits_of_triesInline intact tries
          exact run.others_differ submits _ other ⟨op, sub, rfl, rfl⟩
        · have during : Event.during op.ticket (.acted ⟨c, l₁ ++ p :: l₂⟩ p x turn.phase) = true :=
            List.any_eq_true.mpr ⟨_, before, by simp [Party.submitting, going]⟩
          rw [Event.snapshotsDuring, during, Bool.and_true]
          exact step.hint_le intact' _

/-- During a call that submits an operation, it is attempted at most once more than snapshots of
its queue are taken; and once at most while no dispatch takes a step. -/
theorem Run.never_spins (run : Run use t s) {sub : Submission}
    (submitted : .submission op sub ∈ s.parties) :
    t.countP (·.triesInline op.ticket) ≤
        t.countP (·.snapshotsDuring op.ticket op.direction) + 1 ∧
      ((∀ e ∈ t, e.during op.ticket = true → e.dispatches = false) →
        t.countP (·.triesInline op.ticket) ≤ 1) := by
  have atMost := (run.frugal submitted).atMost
  refine ⟨atMost, fun alone => ?_⟩
  have none : t.countP (·.snapshotsDuring op.ticket op.direction) = 0 := by
    refine List.countP_eq_zero.mpr fun e he snapshot => ?_
    obtain ⟨snapshot, during⟩ := Bool.and_eq_true_iff.mp snapshot
    have := alone e he during
    rw [Event.dispatches_of_snapshots snapshot] at this
    cases this
  omega

/-- The connection is still being made, as far as the descriptor knows. -/
def stillConnecting : (request : Call) → Protocol.Answer request
  | .system (.connect ..) => Except.error 115
  | request => notReady request

/-- A connect through the socket is attempted before the descriptor is attached.  Then the reactor
reports that it is writable, a snapshot is taken, and the connect finds the hint of it. -/
def hintedConnect : List Choice :=
  [.join (.submission true (.connect 7 default)), .act 0 stillConnecting, .act 0 stillConnecting,
    .join .attachment, .act 1 notReady, .act 1 notReady, .join (.dispatch .writable),
    .act 2 notReady, .act 2 notReady] ++
  List.replicate 4 (.act 0 stillConnecting)

/-- The reactor reports that the descriptor is readable, and a snapshot leaves a hint for the accept
that is submitted afterwards. -/
def hintedAccept : List Choice :=
  .join (.dispatch .readable) :: List.replicate 6 (.act 0 notReady) ++
  .join (.submission false (.accept 8 default)) :: List.replicate 3 (.act 1 notReady)

/-- The connect is attempted twice, with one snapshot meanwhile.  The accept is attempted once: it
uses up the hint that it finds. -/
theorem never_spins_hinted :
    (∃ t s op sub, Run (fun _ => True) t s ∧ .submission op sub ∈ s.parties ∧
      t.countP (·.triesInline op.ticket) = 2 ∧
      t.countP (·.triesInline op.ticket) ≤
        t.countP (·.snapshotsDuring op.ticket op.direction) + 1) ∧
    ∃ t s op sub, Run (fun _ => True) t s ∧ .submission op sub ∈ s.parties ∧
      t.countP (·.triesInline op.ticket) ≤ 1 := by
  constructor
  · have runs : (replay (fun _ => True) (ofSocket 10) hintedConnect).isSome = true := by rfl
    have run := run_of_isSome (.socket 10) runs
    generalize hr : (replay (fun _ => True) (ofSocket 10) hintedConnect).get runs = r at run
    have submitted :
        .submission (.connect 7 default) ⟨true, .answered .pending⟩ ∈ r.2.parties := by
      rw [← hr]
      exact List.mem_cons_self
    refine ⟨r.1, r.2, _, _, run, submitted, ?_, (run.never_spins submitted).1⟩
    rw [← hr]
    rfl
  · have runs : (replay (fun _ => True) (ofChannel 10) hintedAccept).isSome = true := by rfl
    have run := run_of_isSome (.channel 10) runs
    generalize hr : (replay (fun _ => True) (ofChannel 10) hintedAccept).get runs = r at run
    have submitted :
        .submission (.accept 8 default) ⟨false, .answered .pending⟩ ∈ r.2.parties := by
      rw [← hr]
      exact List.mem_cons_of_mem _ List.mem_cons_self
    have alone : ∀ e ∈ r.1, e.during 8 = true → e.dispatches = false := by
      have all : r.1.all (fun e => !e.during 8 || !e.dispatches) = true := by
        rw [← hr]
        rfl
      intro e he during
      have := List.all_eq_true.mp all e he
      simpa [during] using this
    exact ⟨r.1, r.2, _, _, run, submitted, (run.never_spins submitted).2 alone⟩

end Channel
end Proactor
