import Proactor.Proofs.Locks
/-! # Joining, closing and flushing

What the channel knows of its parties, and what they may rely on.

* **Guards** (`Party.keepsOpen`).  `guards` counts the parties that keep the socket open.  Only
  such a party has the channel join the reactor.
* **Not attached** (`Party.Detached`).  Until the channel has joined, its queues are not in use, and
  nobody holds anything that could have come from them.
* **Closed** (`Party.hasShut`).  Once a close has stopped the queues, or the socket is no longer
  open, the queues stay stopped, no dispatch gets in, and the channel never joins the reactor.
* **Flushing** (`Party.flushing`).  While a queue drains, somebody is there to complete what it
  handed out and what is parked.

`Controlled` says all this of a system, and every run keeps it (`Run.controlled`). -/

namespace Proactor.Channel

/-- The submission has been counted as one that keeps the socket open, if it is guarded. -/
def Submission.Phase.keeps : Submission.Phase → Bool
  | enter _ | answered _ | broken _ => false
  | _ => true

/-- The submission may have the channel join the reactor. -/
def Submission.Phase.joining : Submission.Phase → Bool
  | attach _ _ | attempt _ true => true
  | _ => false

/-- The submission uses no queue. -/
def Submission.Phase.detached : Submission.Phase → Bool
  | offer _ | attempt _ false | enlist _ => false
  | _ => true

/-- There may be something left to complete. -/
def Flush.busy : Flush → Bool
  | ended => false
  | _ => true

namespace Party

/-- The party keeps the socket open. -/
def keepsOpen : Party → Bool
  | submission _ s => s.guarded && s.phase.keeps
  | attachment .attach => true
  | _ => false

/-- The party may have the channel join the reactor. -/
def joining : Party → Bool
  | submission _ s => s.phase.joining
  | attachment .attach => true
  | _ => false

/-- A submission that may have the channel join came through the socket. -/
def Proper : Party → Prop
  | submission _ s => (∃ op, s.phase = .enter op) ∨ s.phase.joining = true → s.guarded = true
  | _ => True

/-- The party uses no queue and holds nothing from one. -/
def Detached : Party → Prop
  | submission _ s => s.phase.detached = true
  | attachment _ => True
  | dispatch d => d.inside = false
  | closing k =>
      k.ofSocket = true ∧ (k.phase = .stop ∨ k.phase = .release [] ∨ ∃ r, k.phase = .ended r)

/-- A close that went past its stop. -/
def hasShut : Party → Bool
  | closing ⟨_, .stop⟩ => false
  | closing _ => true
  | _ => false

/-- The party completes what was handed out, and after that what is parked. -/
def flushing : Party → Bool
  | dispatch (.force ..) | dispatch (.forcing ..) | dispatch (.forced ..) => true
  | dispatch (.flush f _ _) => f.busy
  | closing ⟨_, .release _⟩ => true
  | closing ⟨_, .flush f _⟩ => f.busy
  | _ => false

end Party

/-! ### Guards -/

theorem Submission.guards_abandon (s : Submission) (c : Channel) :
    (s.abandon c).guards = c.guards - s.guarded.toNat := by
  unfold abandon
  cases s.guarded <;> rfl

theorem Submission.keeps_ofProgress (early : Bool) (r : Progress) :
    (Submission.Phase.ofProgress early r).keeps = true := by
  cases r with
  | calling a => rfl
  | ready op => rfl
  | notReady op => cases early <;> rfl

theorem Submission.keeps_joined (op : Operation) (tried : Bool) :
    (Submission.Phase.joined op tried).keeps = true := by
  cases tried <;> rfl

theorem Left.guards {c c' : Channel} {x : Option (Exchange Call)} (h : Left c x c') :
    c'.guards = c.guards := by
  cases h <;> rfl

theorem Submission.Step.guards {c c' : Channel} {op : Operation} {s s' : Submission}
    {x : Option (Exchange Call)} (h : Submission.Step c s x c' s')
    (proper : (Party.submission op s).Proper)
    (counted : (s.guarded && s.phase.keeps) = true → 0 < c.guards) :
    c'.guards + (s.guarded && s.phase.keeps).toNat =
      c.guards + (s'.guarded && s'.phase.keeps).toNat := by
  have enters : ∀ {g : Bool} {phase : Phase}, g = true → phase.keeps = true →
      c.guards + 1 + (g && false).toNat = c.guards + (g && phase.keeps).toNat := by
    intro g phase hg hp
    simp [hg, hp]
  have leaves : ∀ {g : Bool}, ((g && true) = true → 0 < c.guards) →
      c.guards - g.toNat + (g && true).toNat = c.guards + (g && false).toNat := by
    intro g hg
    cases g with
    | false => rfl
    | true =>
        have := hg rfl
        simp only [Bool.and_true, Bool.and_false, Bool.toNat_true, Bool.toNat_false]
        omega
  cases h with
  | enterJoined _ | enterEarly _ _ _ | enterFirst _ _ _ | enterClosed _ _ =>
      exact enters (proper (.inl ⟨_, rfl⟩)) rfl
  | attachJoined _ | attachDone _ =>
      rw [keeps_joined]
      rfl
  | attachFailed _ | offerStopped _ _ | enlistStopped _ _ => rfl
  | offerIdle _ _ | enlistHinted _ _ =>
      rw [keeps_ofProgress, guards_withQueue]
      rfl
  | attempted reply =>
      rw [keeps_ofProgress]
      rfl
  | offerBusy _ _ | offerDraining _ _ | enlistWaiting _ _ | enlistDraining _ _ =>
      rw [guards_abandon, guards_withQueue]
      exact leaves counted
  | completed =>
      rw [guards_abandon]
      exact leaves counted

theorem Flush.Step.guards {c c' : Channel} {f f' : Flush} {x : Option (Exchange Call)}
    (h : Flush.Step c f x c' f') : c'.guards = c.guards := by
  cases h <;> rfl

theorem Closing.Step.guards {c c' : Channel} {k k' : Closing} {x : Option (Exchange Call)}
    (h : Closing.Step c k x c' k') (hk : ∀ v, k'.phase ≠ .broken v) : c'.guards = c.guards := by
  cases h with
  | @unattached b _ _ => cases b <;> rfl
  | @stopped b _ _ _ _ _ hl =>
      rw [hl.guards]
      cases b <;> rfl
  | stopBroken _ _ => exact absurd rfl (hk _)
  | flushing hf => exact hf.guards
  | _ => rfl

theorem Dispatch.Step.guards {c c' : Channel} {d d' : Dispatch} {x : Option (Exchange Call)}
    (h : Dispatch.Step c d x c' d') (hd : ∀ v, d' ≠ broken v) : c'.guards = c.guards := by
  cases h with
  | hungUp _ hl =>
      rw [hl.guards]
      rfl
  | hangUpBroken _ | endInputBroken _ | checkOutBroken _ | restoreBroken _ | retireBroken _ =>
      exact absurd rfl (hd _)
  | inputEnded _ | sweepBegun _ | checkOutReady _ _ _ | restored _ | retired _ =>
      rw [guards_withQueue]
  | flushing hf => exact hf.guards
  | _ => rfl

/-- The channel counts who keeps the socket open. -/
theorem Party.Step.guards {c c' : Channel} {p p' : Party} {x : Option (Exchange Call)}
    (h : Step c p x c' p') (hp' : p'.Intact) (proper : p.Proper)
    (counted : p.keepsOpen = true → 0 < c.guards) :
    c'.guards + p.keepsOpen.toNat = c.guards + p'.keepsOpen.toNat := by
  cases h with
  | submission h => exact h.guards proper counted
  | attachment h =>
      cases h with
      | entered _ => rfl
      | refused _ => rfl
      | joined _ | done _ | failed _ =>
          have := counted rfl
          simp only [Attachment.leave, keepsOpen, Bool.toNat_true, Bool.toNat_false]
          omega
  | dispatch h => rw [h.guards hp'.1]; rfl
  | closing h => rw [h.guards hp']; rfl

/-! ### Openness and the reactor -/

/-- The queues are stopped, the reactor does not know the channel, and no dispatch is inside. -/
structure Shut (c : Channel) : Prop where
  stopped : ∀ d, (c.queue d).isStopped = true
  registered : c.registered.isEmpty = true
  dispatching : c.dispatching = false

section frame
variable (s : Submission) (c : Channel)

@[simp] theorem Submission.isOpen_abandon : (s.abandon c).isOpen = c.isOpen := by
  unfold abandon
  split <;> rfl

@[simp] theorem Submission.attached_abandon : (s.abandon c).attached = c.attached := by
  unfold abandon
  split <;> rfl

@[simp] theorem Submission.registered_abandon : (s.abandon c).registered = c.registered := by
  unfold abandon
  split <;> rfl

@[simp] theorem Closing.attached_shut (b : Bool) : (shut b c).attached = c.attached := by
  cases b <;> rfl

end frame

theorem Left.isOpen {c c' : Channel} {x : Option (Exchange Call)} (h : Left c x c') :
    c'.isOpen = c.isOpen ∧ c'.attached = c.attached := by
  cases h <;> exact ⟨rfl, rfl⟩

theorem Left.registered {c c' : Channel} {x : Option (Exchange Call)} (h : Left c x c') :
    c'.registered.isEmpty = true := by
  cases h with
  | before h => exact h
  | now _ _ => rfl

/-- A step of a submission leaves the openness alone, and it attaches the channel only if it was
about to. -/
theorem Submission.Step.attached {c c' : Channel} {s s' : Submission}
    {x : Option (Exchange Call)} (h : Submission.Step c s x c' s') :
    c'.isOpen = c.isOpen ∧
      (c'.attached = c.attached ∧ c'.registered = c.registered ∨
        s.phase.joining = true ∧ c.attached = false ∧ c'.attached = true) := by
  cases h with
  | attachDone ha => exact ⟨rfl, .inr ⟨rfl, ha, rfl⟩⟩
  | _ => simp

theorem Attachment.Step.attached {c c' : Channel} {a a' : Attachment}
    {x : Option (Exchange Call)} (h : Attachment.Step c a x c' a') :
    c'.isOpen = c.isOpen ∧
      (c'.attached = c.attached ∧ c'.registered = c.registered ∨
        (Party.attachment a).joining = true ∧ c.attached = false ∧ c'.attached = true) := by
  cases h with
  | done ha => exact ⟨rfl, .inr ⟨rfl, ha, rfl⟩⟩
  | _ => exact ⟨rfl, .inl ⟨rfl, rfl⟩⟩

theorem Flush.Step.attached {c c' : Channel} {f f' : Flush} {x : Option (Exchange Call)}
    (h : Flush.Step c f x c' f') :
    c'.isOpen = c.isOpen ∧ c'.attached = c.attached ∧ c'.registered = c.registered := by
  cases h <;> exact ⟨rfl, rfl, rfl⟩

theorem Dispatch.Step.attached {c c' : Channel} {d d' : Dispatch} {x : Option (Exchange Call)}
    (h : Dispatch.Step c d x c' d') (hd : ∀ v, d' ≠ broken v) :
    c'.isOpen = c.isOpen ∧ c'.attached = c.attached ∧
      (c.registered.isEmpty = true → c'.registered.isEmpty = true) := by
  cases h with
  | hungUp _ hl => exact ⟨hl.isOpen.1, hl.isOpen.2, fun _ => hl.registered⟩
  | hangUpBroken _ | endInputBroken _ | checkOutBroken _ | restoreBroken _ | retireBroken _ =>
      exact absurd rfl (hd _)
  | flushing hf => exact ⟨hf.attached.1, hf.attached.2.1, fun h => hf.attached.2.2 ▸ h⟩
  | narrowed hr _ => exact ⟨rfl, rfl, fun h => absurd (.inl h) hr⟩
  | inputEnded _ | sweepBegun _ | checkOutReady _ _ _ | restored _ | retired _ => simp
  | _ => exact ⟨rfl, rfl, id⟩

/-- A close that has its locks shuts the channel, unless it is not attached; the first close of the
socket makes it closed while nobody keeps it open. -/
theorem Closing.Step.shuts {c c' : Channel} {b : Bool} {k' : Closing} {x : Option (Exchange Call)}
    (h : Closing.Step c ⟨b, .stop⟩ x c' k') (hk : ∀ v, k'.phase ≠ .broken v) :
    (c' = c ∧ c.isOpen = false ∧ k' = ⟨true, .ended (.ok ())⟩) ∨
      (Free b c ∧ c'.attached = c.attached ∧ c'.isOpen = (c.isOpen && !b) ∧
        (c.attached = true → c'.Shut) ∧
        (c.attached = false → c' = shut b c ∧ k' = ⟨b, .release []⟩)) := by
  cases h with
  | again ho => exact .inl ⟨rfl, ho, rfl⟩
  | unattached free ha =>
      refine .inr ⟨free, attached_shut c b, ?_, fun h => ?_, fun _ => ⟨rfl, rfl⟩⟩
      · cases b <;> simp [shut]
      · rw [ha] at h
        cases h
  | stopped free ha hw hl =>
      refine .inr ⟨free, ?_, ?_, fun _ => ⟨fun d => ?_, hl.registered, ?_⟩, fun h => ?_⟩
      · rw [hl.isOpen.2]
        exact attached_shut c b
      · rw [hl.isOpen.1]
        cases b <;> simp [halted, shut]
      · rw [hl.queue, queue_halted]
        rfl
      · rw [hl.dispatching]
        cases b <;> exact free.dispatching
      · rw [ha] at h
        cases h
  | stopBroken _ _ => exact absurd rfl (hk _)

theorem Closing.Step.ofSocket {c c' : Channel} {k k' : Closing} {x : Option (Exchange Call)}
    (h : Closing.Step c k x c' k') : k'.ofSocket = k.ofSocket := by
  cases h <;> rfl

/-- A close past its stop changes nothing but the queues. -/
theorem Closing.Step.attached {c c' : Channel} {k k' : Closing} {x : Option (Exchange Call)}
    (h : Closing.Step c k x c' k') (hs : (Party.closing k).hasShut = true) :
    c'.isOpen = c.isOpen ∧ c'.attached = c.attached ∧ c'.registered = c.registered := by
  cases h with
  | again _ | unattached _ _ | stopped _ _ _ _ | stopBroken _ _ => cases hs
  | flushing hf => exact hf.attached
  | _ => exact ⟨rfl, rfl, rfl⟩

/-! ### Steps of parties -/

section party
variable {c c' : Channel} {p p' : Party} {x : Option (Exchange Call)}

/-- A step attaches the channel only if the party was about to; otherwise it does not tell the
reactor of it again. -/
theorem Party.Step.attached (h : Step c p x c' p') (hp' : p'.Intact) :
    (c'.attached = c.attached ∧ (c.registered.isEmpty = true → c'.registered.isEmpty = true)) ∨
      (p.joining = true ∧ c.attached = false ∧ c'.attached = true ∧ c'.isOpen = c.isOpen) := by
  cases h with
  | submission h =>
      obtain ⟨ho, ⟨ha, hr⟩ | ⟨hj, ha, ha'⟩⟩ := h.attached
      · exact .inl ⟨ha, fun h => hr ▸ h⟩
      · exact .inr ⟨hj, ha, ha', ho⟩
  | attachment h =>
      obtain ⟨ho, ⟨ha, hr⟩ | ⟨hj, ha, ha'⟩⟩ := h.attached
      · exact .inl ⟨ha, fun h => hr ▸ h⟩
      · exact .inr ⟨hj, ha, ha', ho⟩
  | dispatch h => exact .inl (h.attached hp'.1).2
  | @closing k k' _ _ h =>
      obtain ⟨b, phase⟩ := k
      cases phase with
      | stop =>
          rcases h.shuts hp' with ⟨rfl, -, -⟩ | ⟨-, ha, -, hs, hn⟩
          · exact .inl ⟨rfl, id⟩
          · refine .inl ⟨ha, fun hr => ?_⟩
            cases hc : c.attached with
            | true => exact (hs hc).registered
            | false =>
                obtain ⟨rfl, -⟩ := hn hc
                cases b <;> exact hr
      | _ =>
          obtain ⟨-, ha, hr⟩ := h.attached rfl
          exact .inl ⟨ha, fun h => hr ▸ h⟩

/-- The socket is closed by a close only, and while nobody keeps it open. -/
theorem Party.Step.isOpen (h : Step c p x c' p') (hp' : p'.Intact) :
    c'.isOpen = c.isOpen ∨ (c.guards = 0 ∧ c'.isOpen = false ∧ p'.joining = false) := by
  cases h with
  | submission h => exact .inl h.attached.1
  | attachment h => exact .inl h.attached.1
  | dispatch h => exact .inl (h.attached hp'.1).1
  | @closing k k' _ _ h =>
      obtain ⟨b, phase⟩ := k
      cases phase with
      | stop =>
          rcases h.shuts hp' with ⟨rfl, -, -⟩ | ⟨free, -, ho, -, -⟩
          · exact .inl rfl
          · cases b with
            | false => exact .inl (by simpa using ho)
            | true => exact .inr ⟨free.guards rfl, by simpa using ho, rfl⟩
      | _ => exact .inl (h.attached rfl).1

/-- A dispatch gets in only while the reactor knows the channel. -/
theorem Party.Step.enters (h : Step c p x c' p') (hp : p.inside = false) (hp' : p'.inside = true) :
    c.registered.isEmpty = false := by
  cases h with
  | dispatch h =>
      cases h with
      | enterFailed _ hr _ | enterReady _ hr _ => exact hr
      | enterIgnored _ _ => cases hp'
      | _ => cases hp
  | _ => cases hp'

/-- A channel that is shut stays so. -/
theorem Party.Step.shut (h : Step c p x c' p') (hp : p.Intact) (hp' : p'.Intact)
    (valid : ∀ e, (c.queue e).Valid e) (outside : p.inside = false) (ha : c.attached = true)
    (hs : c.Shut) : c'.Shut := by
  refine ⟨fun d => (h.change hp hp' d).stopped (valid d) (hs.stopped d), ?_, ?_⟩
  · rcases h.attached hp' with ⟨-, hr⟩ | ⟨-, hn, -, -⟩
    · exact hr hs.registered
    · rw [ha] at hn
      cases hn
  · have hl := h.lock hp' (by simp [outside])
    have hi : p'.inside = false := by
      cases hi : p'.inside with
      | false => rfl
      | true =>
          have := h.enters outside hi
          rw [hs.registered] at this
          cases this
    rw [outside, hi, hs.dispatching] at hl
    simpa using hl

theorem Submission.joining_ofProgress {early : Bool} {r : Progress}
    (h : (Submission.Phase.ofProgress early r).joining = true) : early = true := by
  cases r <;> cases early <;> first | rfl | cases h

/-- Only through an open socket a party comes to have the channel join the reactor. -/
theorem Party.Step.joining (h : Step c p x c' p') (hj : p'.joining = true) :
    p.joining = true ∨ c.isOpen = true := by
  cases h with
  | submission h =>
      cases h with
      | enterEarly _ ho _ | enterFirst _ ho _ => exact .inr ho
      | attachJoined _ | attachDone _ => exact .inl rfl
      | offerIdle _ _ | enlistHinted _ _ => cases Submission.joining_ofProgress hj
      | attempted _ =>
          have := Submission.joining_ofProgress hj
          subst this
          exact .inl rfl
      | _ => cases hj
  | attachment h =>
      cases h with
      | entered ho => exact .inr ho
      | _ => cases hj
  | dispatch h => cases hj
  | closing h => cases hj

theorem Party.Step.proper (h : Step c p x c' p') (hp : p.Proper) : p'.Proper := by
  cases h with
  | submission h =>
      rintro (⟨op, ho⟩ | hj)
      · cases h with
        | attachJoined _ | attachDone _ =>
            rename_i tried _
            cases tried <;> cases ho
        | offerIdle _ _ | enlistHinted _ _ | attempted _ =>
            have := congrArg Submission.Phase.keeps ho
            rw [Submission.keeps_ofProgress] at this
            cases this
        | _ => cases ho
      · cases h with
        | enterEarly _ _ _ | enterFirst _ _ _ => exact hp (.inl ⟨_, rfl⟩)
        | attachJoined _ | attachDone _ => exact hp (.inr rfl)
        | offerIdle _ _ | enlistHinted _ _ => cases Submission.joining_ofProgress hj
        | attempted _ =>
            have := Submission.joining_ofProgress hj
            subst this
            exact hp (.inr rfl)
        | _ => cases hj
  | attachment h => trivial
  | dispatch h => trivial
  | closing h => trivial

/-! ### Flushing -/

theorem Flush.Step.busy {f f' : Flush} (h : Flush.Step c f x c' f') :
    (f'.busy = true ∨ ∀ d, (c'.queue d).draining = false) ∧
      ∀ d, (c'.queue d).draining = true → (c.queue d).draining = true := by
  have settled : ∀ d, (c.settle.1.queue d).draining = true → (c.queue d).draining = true := by
    intro d hd
    rw [queue_settle, Queue.settle, Bool.and_eq_true] at hd
    exact hd.1
  cases h with
  | emptied => exact ⟨.inl rfl, fun _ h => h⟩
  | completed => exact ⟨.inl rfl, fun _ h => h⟩
  | settled he =>
      refine ⟨.inr fun d => ?_, settled⟩
      have hp : (c.queue d).parked = [] := by
        simp only [Channel.settle, Queue.settle, List.append_eq_nil_iff] at he
        cases d with
        | receive => exact he.1.1
        | send => exact he.1.2
        | connection => exact he.2
      rw [queue_settle]
      simp [Queue.settle, hp]
  | parked _ => exact ⟨.inl rfl, settled⟩

theorem draining_withQueue {e : Direction} {q : Queue} (h : q.draining = (c.queue e).draining)
    (d : Direction) : ((c.withQueue e q).queue d).draining = (c.queue d).draining := by
  by_cases hd : d = e
  · subst hd
    rw [queue_withQueue]
    exact h
  · rw [queue_withQueue_ne c q hd]

theorem draining_update (h : ∀ e, c'.queue e = c.queue e) (d : Direction) :
    (c'.queue d).draining = (c.queue d).draining := congrArg (·.draining) (h d)

theorem Submission.Step.draining {s s' : Submission} (h : Submission.Step c s x c' s')
    (d : Direction) : (c'.queue d).draining = (c.queue d).draining := by
  cases h with
  | enterJoined _ | enterClosed _ _ | enterEarly _ _ _ | enterFirst _ _ _ | attachDone _ =>
      exact draining_update (queue_update rfl rfl rfl) d
  | completed => rw [Submission.queue_abandon]
  | offerIdle _ _ | enlistHinted _ _ => exact draining_withQueue (by rfl) d
  | offerBusy _ _ | enlistWaiting _ _ | offerDraining _ _ | enlistDraining _ _ =>
      rw [Submission.queue_abandon]
      exact draining_withQueue (by rfl) d
  | _ => rfl

theorem Dispatch.flushing_ofForced (ops : List Operation) (rest : Option (List Stage))
    (pending : Option Status) (r : Progress) :
    (Party.dispatch (ofForced ops rest pending r)).flushing = true := by
  rcases ofForced_cases ops rest pending r with ⟨a, h, -⟩ | ⟨op, pending', h, -⟩ <;> rw [h] <;> rfl

theorem Dispatch.Step.flushes {d d' : Dispatch} (h : Dispatch.Step c d x c' d')
    (hd' : ∀ v, d' ≠ broken v) :
    ((Party.dispatch d).flushing = true →
      (Party.dispatch d').flushing = true ∨ ∀ e, (c'.queue e).draining = false) ∧
      ∀ e, (c'.queue e).draining = true →
        (c.queue e).draining = true ∨ (Party.dispatch d').flushing = true := by
  have same : ∀ {c' : Channel} {e : Direction} {q : Prop},
      (c'.queue e).draining = (c.queue e).draining →
        (c'.queue e).draining = true → (c.queue e).draining = true ∨ q :=
    fun h hd => .inl (h ▸ hd)
  cases h with
  | hungUp _ _ | inputEnded _ => exact ⟨nofun, fun _ _ => .inr rfl⟩
  | hangUpBroken _ | endInputBroken _ | checkOutBroken _ | restoreBroken _ | retireBroken _ =>
      exact absurd rfl (hd' _)
  | forceNone | forced => exact ⟨fun _ => .inl rfl, fun _ => same rfl⟩
  | forceNext | forcing _ => exact ⟨fun _ => .inl (flushing_ofForced _ _ _ _), fun _ => same rfl⟩
  | flushing hf => exact ⟨fun _ => hf.busy.1, fun e h => .inl (hf.busy.2 e h)⟩
  | sweepBegun _ | checkOutReady _ _ _ | restored _ | retired _ =>
      exact ⟨nofun, fun e => same (draining_withQueue (by rfl) e)⟩
  | _ => exact ⟨nofun, fun e => same (draining_update (queue_update rfl rfl rfl) e)⟩

/-- Somebody who flushes goes on until no queue drains, and nothing else makes a queue drain. -/
theorem Party.Step.flushing (h : Step c p x c' p') (hp : p.Intact) (hp' : p'.Intact)
    (idle : c.attached = false → ∀ d, (c.queue d).draining = false) :
    (p.flushing = true → p'.flushing = true ∨ ∀ d, (c'.queue d).draining = false) ∧
      ∀ d, (c'.queue d).draining = true → (c.queue d).draining = true ∨ p'.flushing = true := by
  cases h with
  | submission h => exact ⟨nofun, fun d hd => .inl (h.draining d ▸ hd)⟩
  | attachment h => exact ⟨nofun, fun d hd => .inl (h.queue d ▸ hd)⟩
  | dispatch h => exact h.flushes hp'.1
  | closing h =>
      cases h with
      | again _ => exact ⟨nofun, fun _ h => .inl h⟩
      | @unattached b _ _ => exact ⟨nofun, fun d hd => .inl (by simpa using hd)⟩
      | stopped _ _ _ _ => exact ⟨nofun, fun _ _ => .inr rfl⟩
      | stopBroken _ _ => exact absurd rfl (hp' _)
      | released _ => exact ⟨fun _ => .inl rfl, fun _ h => .inl h⟩
      | releasedUnattached ha => exact ⟨fun _ => .inr (idle ha), fun _ h => .inl h⟩
      | flushing hf => exact ⟨fun _ => hf.busy.1, fun d hd => .inl (hf.busy.2 d hd)⟩
      | flushed => exact ⟨nofun, fun _ h => .inl h⟩

/-! ### A channel that has not joined -/

theorem Submission.detached_ofProgress (r : Progress) :
    (Submission.Phase.ofProgress true r).detached = true := by
  cases r <;> rfl

/-- As long as the channel has not joined the reactor, its queues stay as they were. -/
theorem Party.Step.detached (h : Step c p x c' p') (hp' : p'.Intact) (hp : p.Detached)
    (ha : c.attached = false) (ha' : c'.attached = false) (hr : c.registered.isEmpty = true) :
    p'.Detached ∧ ∀ d, c'.queue d = c.queue d := by
  cases h with
  | submission h =>
      cases h with
      | enterJoined h | attachJoined h =>
          rw [ha] at h
          cases h
      | attachDone _ => cases ha'
      | enterClosed _ _ | enterEarly _ _ _ | enterFirst _ _ _ =>
          exact ⟨rfl, queue_update rfl rfl rfl⟩
      | attachFailed _ => exact ⟨rfl, fun _ => rfl⟩
      | @attempted g a early reply =>
          cases early with
          | true => exact ⟨Submission.detached_ofProgress _, fun _ => rfl⟩
          | false => cases hp
      | completed => exact ⟨rfl, Submission.queue_abandon _ _⟩
      | _ => cases hp
  | attachment h => exact ⟨trivial, h.queue⟩
  | dispatch h =>
      cases h with
      | enterIgnored _ _ => exact ⟨rfl, fun _ => rfl⟩
      | enterFailed _ h _ | enterReady _ h _ =>
          rw [hr] at h
          cases h
      | _ => cases hp
  | closing h =>
      obtain ⟨hb, hp | hp | ⟨r, hp⟩⟩ := hp
      · cases h with
        | again _ => exact ⟨⟨rfl, .inr (.inr ⟨_, rfl⟩)⟩, fun _ => rfl⟩
        | @unattached b _ _ => exact ⟨⟨hb, .inr (.inl rfl)⟩, Closing.queue_shut b c⟩
        | stopped _ h _ _ =>
            rw [ha] at h
            cases h
        | stopBroken _ _ => exact absurd rfl (hp' _)
        | _ => cases hp
      · cases h with
        | released h =>
            rw [ha] at h
            cases h
        | releasedUnattached _ => exact ⟨⟨hb, .inr (.inr ⟨_, rfl⟩)⟩, fun _ => rfl⟩
        | _ => cases hp
      · cases h <;> cases hp

end party

/-! ### Control -/

/-- The channel and its parties agree about who may do what. -/
structure Controlled (s : System) : Prop where
  proper : ∀ p ∈ s.parties, p.Proper
  guards : s.parties.countP (·.keepsOpen) = s.channel.guards
  idle : s.channel.attached = false → s.channel.registered.isEmpty = true ∧
    (∀ d, s.channel.queue d = {}) ∧ ∀ p ∈ s.parties, p.Detached
  closed : s.channel.attached = false → s.channel.isOpen = false →
    ∀ p ∈ s.parties, p.joining = false
  socket : ∀ k, .closing k ∈ s.parties → k.ofSocket = true →
    (Party.closing k).hasShut = true → s.channel.isOpen = false
  shut : s.channel.attached = true →
    (s.channel.isOpen = false ∨ ∃ p ∈ s.parties, p.hasShut = true) → s.channel.Shut
  flushing : ∀ d, (s.channel.queue d).draining = true → ∃ p ∈ s.parties, p.flushing = true

namespace Controlled

theorem keepsOpen_of_joining {p : Party} (h : p.Proper) (hj : p.joining = true) :
    p.keepsOpen = true := by
  cases p with
  | submission op s =>
      have hg : s.guarded = true := h (.inr hj)
      have hk : s.phase.keeps = true := by
        obtain ⟨g, phase⟩ := s
        cases phase with
        | attach _ _ | attempt _ _ => rfl
        | _ => cases hj
      simp [Party.keepsOpen, hg, hk]
  | attachment a => cases a <;> first | rfl | cases hj
  | dispatch d => cases hj
  | closing k => cases hj

theorem initial {s : System} (h : Initial s) : Controlled s := by
  have hq := h.queue
  have hn := h.parties
  refine ⟨?_, ?_, ?_, ?_, ?_, ?_, ?_⟩
  · simp [hn]
  · rw [hn]
    cases h <;> rfl
  · intro ha
    refine ⟨?_, hq, by simp [hn]⟩
    cases h with
    | socket fd => rfl
    | channel fd => cases ha
  · simp [hn]
  · simp [hn]
  · rintro - (ho | ⟨p, hp, -⟩)
    · cases h <;> cases ho
    · simp [hn] at hp
  · intro d hd
    rw [hq] at hd
    cases hd

theorem begun {p : Party} {attached : Bool} (h : p.Begins attached) :
    p.Proper ∧ p.keepsOpen = false ∧ (attached = false → p.Detached) ∧ p.joining = false ∧
      p.hasShut = false := by
  cases h with
  | socketSubmission op => exact ⟨fun _ => rfl, rfl, fun _ => rfl, rfl, rfl⟩
  | submission op h =>
      refine ⟨?_, rfl, fun h' => ?_, rfl, rfl⟩
      · rintro (⟨op, ho⟩ | hj)
        · cases ho
        · cases hj
      · rw [h] at h'
        cases h'
  | attachment => exact ⟨trivial, rfl, fun _ => trivial, rfl, rfl⟩
  | dispatch events => exact ⟨trivial, rfl, fun _ => rfl, rfl, rfl⟩
  | socketClosing => exact ⟨trivial, rfl, fun _ => ⟨rfl, .inl rfl⟩, rfl, rfl⟩
  | closing h =>
      refine ⟨trivial, rfl, fun h' => ?_, rfl, rfl⟩
      rw [h] at h'
      cases h'

theorem join {s : System} (h : Controlled s) {p : Party} (hp : p.Begins s.channel.attached) :
    Controlled ⟨s.channel, s.parties ++ [p]⟩ := by
  obtain ⟨proper, keeps, detached, joining, hasShut⟩ := begun hp
  refine ⟨forall_joined h.proper proper, ?_, ?_, ?_, ?_, ?_, ?_⟩
  · rw [List.countP_append, h.guards]
    simp [keeps]
  · intro ha
    obtain ⟨hr, hq, hd⟩ := h.idle ha
    exact ⟨hr, hq, forall_joined hd (detached ha)⟩
  · exact fun ha ho => forall_joined (h.closed ha ho) joining
  · intro k hk
    rcases List.mem_append.mp hk with hk | hk
    · exact h.socket k hk
    · intro _ hs
      rw [List.mem_singleton.mp hk, hasShut] at hs
      cases hs
  · rintro ha (ho | ⟨o, ho, hs⟩)
    · exact h.shut ha (.inl ho)
    · rcases List.mem_append.mp ho with ho | ho
      · exact h.shut ha (.inr ⟨o, ho, hs⟩)
      · rw [List.mem_singleton.mp ho, hasShut] at hs
        cases hs
  · intro d hd
    obtain ⟨o, ho, hf⟩ := h.flushing d hd
    exact ⟨o, List.mem_append_left _ ho, hf⟩

variable {c c' : Channel} {l₁ l₂ : List Party} {p p' : Party} {x : Option (Exchange Call)}

/-- Nobody may have the channel join the reactor while nobody keeps the socket open. -/
theorem not_joining (h : Controlled ⟨c, l₁ ++ p :: l₂⟩) (hg : c.guards = 0) :
    ∀ o ∈ l₁ ++ p :: l₂, o.joining = false := by
  intro o ho
  cases hj : o.joining with
  | false => rfl
  | true =>
      have hk := keepsOpen_of_joining (h.proper o ho) hj
      have := List.countP_eq_zero.mp (h.guards.trans hg) o ho
      exact absurd hk this

/-- A close that is past its stop has shut the channel, or it was never attached. -/
theorem step_shut (h : Controlled ⟨c, l₁ ++ p :: l₂⟩) (order : Orderly ⟨c, l₁ ++ p :: l₂⟩)
    (hs : p.Step c x c' p') (hp' : p'.Intact) (ha' : c'.attached = true)
    (hc : c'.isOpen = false ∨ ∃ o ∈ l₁ ++ p' :: l₂, o.hasShut = true) : c'.Shut := by
  have hp : p.Intact := order.intact p (by simp)
  have mem : p ∈ l₁ ++ p :: l₂ := by simp
  by_cases old : c.isOpen = false ∨ ∃ o ∈ l₁ ++ p :: l₂, o.hasShut = true
  · cases ha : c.attached with
    | true =>
        have shut := h.shut ha old
        have outside : p.inside = false := by
          cases hi : p.inside with
          | false => rfl
          | true =>
              have := order.dispatching hi
              rw [shut.dispatching] at this
              cases this
        exact hs.shut hp hp' order.valid outside ha shut
    | false =>
        -- a close of a channel that has not joined is one of its socket, so nobody can join
        have ho : c.isOpen = false := by
          rcases old with ho | ⟨o, hm, hso⟩
          · exact ho
          · cases o with
            | closing k =>
                obtain ⟨hk, -⟩ := (h.idle ha).2.2 _ hm
                exact h.socket k hm hk hso
            | _ => cases hso
        rcases hs.attached hp' with ⟨he, -⟩ | ⟨hj, -, -, -⟩
        · rw [he, ha] at ha'
          cases ha'
        · rw [h.closed ha ho p mem] at hj
          cases hj
  · have ho : c.isOpen = true := by
      cases ho : c.isOpen with
      | true => rfl
      | false => exact absurd (.inl ho) old
    have hn : ∀ o ∈ l₁ ++ p :: l₂, o.hasShut = false := by
      intro o hm
      cases hso : o.hasShut with
      | false => rfl
      | true => exact absurd (.inr ⟨o, hm, hso⟩) old
    -- the step is that of a close that stops
    have closing : ∀ k k', p = .closing k → p' = .closing k' → Closing.Step c k x c' k' →
        c'.Shut := by
      rintro ⟨b, phase⟩ k' rfl rfl hk
      cases phase with
      | stop =>
          rcases hk.shuts hp' with ⟨rfl, ho', -⟩ | ⟨-, hat, -, shut, -⟩
          · rw [ho] at ho'
            cases ho'
          · exact shut (hat ▸ ha')
      | _ =>
          have := hn _ mem
          cases this
    have same : ∀ o, p'.hasShut = false → o ∈ l₁ ++ p' :: l₂ → o.hasShut = false := by
      intro o hp' hm
      exact forall_replaced (P := fun o => o.hasShut = false) hn hp' o hm
    have other : p'.hasShut = false → c'.isOpen = c.isOpen → c'.Shut := by
      intro hps hos
      rcases hc with hc | ⟨o, hm, hso⟩
      · rw [hos, ho] at hc
        cases hc
      · rw [same o hps hm] at hso
        cases hso
    cases hs with
    | submission hs => exact other rfl hs.attached.1
    | attachment hs => exact other rfl hs.attached.1
    | dispatch hs => exact other rfl (hs.attached hp'.1).1
    | closing hs => exact closing _ _ rfl rfl hs

theorem attached_before (hs : p.Step c x c' p') (hp' : p'.Intact) (ha' : c'.attached = false) :
    c.attached = false := by
  rcases hs.attached hp' with ⟨he, -⟩ | ⟨-, -, ha, -⟩
  · exact he ▸ ha'
  · rw [ha'] at ha
    cases ha

section step
variable (h : Controlled ⟨c, l₁ ++ p :: l₂⟩) (hs : p.Step c x c' p') (hp' : p'.Intact)
include h hs hp'

theorem step_guards : (l₁ ++ p' :: l₂).countP (·.keepsOpen) = c'.guards := by
  have mem : p ∈ l₁ ++ p :: l₂ := by simp
  have hg := h.guards
  have counted : p.keepsOpen = true → 0 < c.guards := by
    intro hk
    have := List.countP_pos_iff.mpr ⟨p, mem, hk⟩
    rw [hg] at this
    exact this
  have hk := hs.guards hp' (h.proper p mem) counted
  simp only [List.countP_append, List.countP_cons] at hg ⊢
  cases hi : p.keepsOpen <;> cases hi' : p'.keepsOpen <;> simp [hi, hi'] at hg hk ⊢ <;> omega

theorem step_idle (ha' : c'.attached = false) :
    c'.registered.isEmpty = true ∧ (∀ d, c'.queue d = {}) ∧ ∀ o ∈ l₁ ++ p' :: l₂, o.Detached := by
  have ha := attached_before hs hp' ha'
  obtain ⟨hr, hq, hd⟩ := h.idle ha
  obtain ⟨hd', hq'⟩ := hs.detached hp' (hd p (by simp)) ha ha' hr
  refine ⟨?_, fun d => (hq' d).trans (hq d), forall_replaced hd hd'⟩
  rcases hs.attached hp' with ⟨-, hr'⟩ | ⟨-, -, hat, -⟩
  · exact hr' hr
  · rw [ha'] at hat
    cases hat

theorem step_closed (ha' : c'.attached = false) (ho' : c'.isOpen = false) :
    ∀ o ∈ l₁ ++ p' :: l₂, o.joining = false := by
  have ha := attached_before hs hp' ha'
  rcases hs.isOpen hp' with ho | ⟨hg, -, hj'⟩
  · have hc := h.closed ha (ho ▸ ho')
    apply forall_replaced hc
    cases hj' : p'.joining with
    | false => rfl
    | true =>
        rcases hs.joining hj' with hj | ho''
        · rw [hc p (by simp)] at hj
          cases hj
        · rw [← ho, ho'] at ho''
          cases ho''
  · exact forall_replaced (h.not_joining hg) hj'

theorem step_socket : ∀ k, .closing k ∈ l₁ ++ p' :: l₂ → k.ofSocket = true →
    (Party.closing k).hasShut = true → c'.isOpen = false := by
  have mem : p ∈ l₁ ++ p :: l₂ := by simp
  have closed : c.isOpen = false → c'.isOpen = false := by
    intro ho
    rcases hs.isOpen hp' with he | ⟨-, he, -⟩
    · rw [he, ho]
    · exact he
  have replaced : ∀ o ∈ l₁ ++ p' :: l₂, ∀ k, o = .closing k → k.ofSocket = true →
      o.hasShut = true → c'.isOpen = false := by
    refine @forall_replaced _ _ _ p _ _ ?_ ?_
    · rintro o ho k rfl hb hk
      exact closed (h.socket k ho hb hk)
    rintro k rfl hb hk
    cases hs with
    | @closing k₀ _ _ _ hs =>
        obtain ⟨b, phase⟩ := k₀
        have hbk : b = true := hs.ofSocket.symm.trans hb
        subst hbk
        cases phase with
        | stop =>
            rcases hs.shuts hp' with ⟨rfl, ho, -⟩ | ⟨-, -, ho, -, -⟩
            · exact ho
            · simpa using ho
        | _ => exact closed (h.socket _ mem rfl rfl)
  exact fun k hk => replaced _ hk k rfl

theorem step_flushing (hp : p.Intact) (d : Direction) (hd : (c'.queue d).draining = true) :
    ∃ o ∈ l₁ ++ p' :: l₂, o.flushing = true := by
  obtain ⟨keep, start⟩ := hs.flushing hp hp' fun ha d => by rw [(h.idle ha).2.1 d]
  rcases start d hd with hd' | hf
  · obtain ⟨o, ho, hf⟩ := h.flushing d hd'
    rcases mem_middle.mp ho with rfl | ho
    · rcases keep hf with hf' | hn
      · exact ⟨p', by simp, hf'⟩
      · rw [hn d] at hd
        cases hd
    · exact ⟨o, mem_middle.mpr (.inr ho), hf⟩
  · exact ⟨p', by simp, hf⟩

end step

/-- A step keeps everybody agreed. -/
theorem step (h : Controlled ⟨c, l₁ ++ p :: l₂⟩) (order : Orderly ⟨c, l₁ ++ p :: l₂⟩)
    (hs : p.Step c x c' p') : Controlled ⟨c', l₁ ++ p' :: l₂⟩ := by
  have mem : p ∈ l₁ ++ p :: l₂ := by simp
  have hp' : p'.Intact := (order.step hs).intact p' (by simp)
  refine ⟨forall_replaced h.proper (hs.proper (h.proper p mem)), h.step_guards hs hp',
    h.step_idle hs hp', h.step_closed hs hp', h.step_socket hs hp', ?_, ?_⟩
  · exact fun ha' hc => h.step_shut order hs hp' ha' hc
  · exact h.step_flushing hs hp' (order.intact p mem)

end Controlled

/-- Every run keeps its parties agreed. -/
theorem Run.controlled {use : Party → Prop} {t : List Event} {s : System} (run : Run use t s) :
    Controlled s := by
  induction run with
  | start h => exact .initial h
  | join _ begins _ _ ih => exact ih.join begins
  | act run yields ih => exact ih.step run.orderly (Party.step_of_yields yields)

end Proactor.Channel
