import Proactor.Proofs.Draining
import Proactor.Proofs.Fates
/-! # What the reactor reports

The interest of a channel that has joined the reactor, and the requests that change it.

* **Tunings** (`Party.Retunes`).  Everything that a step can do to the interest, to the use of the
  queues and to the reactor: the channel joins it, a dispatch narrows the interest or asks for
  another report, a hang-up or a close leaves it.
* **Phases** (`Tuned`).  The reactor reports both directions, or output only once the receives are
  stopped, or nothing once every queue is.  A dispatch narrows the interest after it has stopped the
  receives, not together with that, so it is watched in between (`Dispatch.endsInput`).
* **Histories** (`interests`).  One phase follows the other and none comes back (`Fades`).
* **The last word** (`Event.forgets`).  Once the reactor was told to forget the descriptor, nobody
  makes a request to it. -/

namespace Proactor.Channel

/-- The request goes to the reactor. -/
def Call.tellsReactor : Call → Bool
  | register .. | unregister .. => true
  | _ => false

/-- A request was made to the reactor. -/
def Event.tellsReactor : Event → Bool
  | acted _ _ x _ => x.any (·.request.tellsReactor)
  | joined .. => false

/-- The reactor was told to forget the descriptor. -/
def Event.forgets : Event → Bool
  | acted _ _ (some ⟨.unregister _ remaining, _⟩) _ => remaining.isEmpty
  | _ => false

theorem Event.tellsReactor_of_forgets {e : Event} (h : e.forgets = true) :
    e.tellsReactor = true := by
  unfold forgets at h
  split at h
  · rfl
  · cases h

/-- The dispatch has stopped the receives, and the interest is still to be narrowed. -/
def Dispatch.endsInput : Dispatch → Bool
  | force _ (some _) _ | forcing _ _ (some _) _ | forced _ _ (some _) _ | flush _ (some _) _
  | narrow _ _ => true
  | _ => false

/-- The interest and the use of the queues stay as they are. -/
structure SameUse (c c' : Channel) : Prop where
  attached : c'.attached = c.attached
  registered : c'.registered = c.registered
  stopped : ∀ d, (c'.queue d).isStopped = (c.queue d).isStopped

/-- What a step asks of the reactor, and what it does to the interest and to the use of the
queues. -/
inductive Party.Retunes (c : Channel) (p : Party) : Option (Exchange Call) → Channel → Prop
  | silent {x : Option (Exchange Call)} {c' : Channel}
      (hx : x.any (·.request.tellsReactor) = false) (same : SameUse c c') : Retunes c p x c'
  | refused {e : Errno} {c' : Channel} (ha : c.attached = false) (same : SameUse c c') :
      Retunes c p (some ⟨.register c.fd .standard, .error e⟩) c'
  | joined {c' : Channel} (ha : c.attached = false) (ha' : c'.attached = true)
      (hr : c'.registered = .standard)
      (stopped : ∀ d, (c'.queue d).isStopped = (c.queue d).isStopped) :
      Retunes c p (some ⟨.register c.fd .standard, .ok ()⟩) c'
  | again {c' : Channel} (reply : Except Errno Unit) (hr : c.registered.isEmpty = false)
      (same : SameUse c c') : Retunes c p (some ⟨.register c.fd c.registered, reply⟩) c'
  | inputEnded {c' : Channel} (ha : c'.attached = c.attached) (hr : c'.registered = c.registered)
      (receive : (c'.queue .receive).isStopped = true)
      (others : ∀ d, d ≠ .receive → (c'.queue d).isStopped = (c.queue d).isStopped)
      (hp : ∃ rest pending, p = .dispatch (.endInput rest pending)) :
      Retunes c p none c'
  | narrowed {c' : Channel} (reply : Except Errno Unit) {k : Dispatch} (hp : p = .dispatch k)
      (hk : k.endsInput = true) (hr : c.registered.isEmpty = false)
      (hn : Dispatch.narrowed c.registered ≠ c.registered) (ha : c'.attached = c.attached)
      (hr' : c'.registered = Dispatch.narrowed c.registered)
      (stopped : ∀ d, (c'.queue d).isStopped = (c.queue d).isStopped) :
      Retunes c p (some ⟨.unregister c.fd (Dispatch.narrowed c.registered), reply⟩) c'
  | left {x : Option (Exchange Call)} {c' : Channel} (ha : c'.attached = c.attached)
      (hr : c'.registered = .none) (stopped : ∀ d, (c'.queue d).isStopped = true)
      (hx : x = none ∨
        c.registered.isEmpty = false ∧ ∃ reply, x = some ⟨.unregister c.fd .none, reply⟩)
      (hp : (∃ pending, p = .dispatch (.hangUp pending)) ∨ ∃ k, p = .closing k) :
      Retunes c p x c'

variable {use : Party → Prop} {c c' : Channel} {p p' : Party} {x : Option (Exchange Call)}
  {t newer older : List Event} {s : System} {e : Event} {d : Direction}

/-! ### Steps -/

theorem SameUse.of_queues (ha : c'.attached = c.attached) (hr : c'.registered = c.registered)
    (hq : ∀ d, c'.queue d = c.queue d) : SameUse c c' :=
  ⟨ha, hr, fun d => congrArg Queue.isStopped (hq d)⟩

theorem SameUse.withQueue {q : Queue} (h : q.isStopped = (c.queue d).isStopped) :
    SameUse c (c.withQueue d q) := by
  refine ⟨attached_withQueue c d q, registered_withQueue c d q, fun e => ?_⟩
  by_cases he : e = d
  · subst he
    rw [queue_withQueue]
    exact h
  · rw [queue_withQueue_ne c q he]

/-- A queue whose head is out is in use. -/
theorem SameUse.of_head {n : Nat} {o : Option Operation} {rest : List Queue.Entry} {q : Queue}
    (valid : ∀ e, (c.queue e).Valid e) (he : (c.queue d).entries = ⟨n, o⟩ :: rest)
    (hq : q.isStopped = false) : SameUse c (c.withQueue d q) :=
  .withQueue (hq.trans ((valid d).not_stopped he).symm)

theorem SameUse.abandon {s : Submission} (h : SameUse c c') : SameUse c (s.abandon c') :=
  ⟨(Submission.attached_abandon s c').trans h.attached,
    (Submission.registered_abandon s c').trans h.registered,
    fun d => (congrArg Queue.isStopped (Submission.queue_abandon s c' d)).trans (h.stopped d)⟩

theorem SameUse.settle (c : Channel) : SameUse c c.settle.1 :=
  ⟨rfl, rfl, fun d => by rw [queue_settle]; rfl⟩

theorem Submission.Step.retunes {op : Operation} {s s' : Submission}
    (h : Submission.Step c s x c' s') : (Party.submission op s).Retunes c x c' := by
  cases h with
  | enterJoined _ | enterClosed _ _ | enterEarly _ _ _ | enterFirst _ _ _ =>
      exact .silent rfl (.of_queues rfl rfl (queue_update rfl rfl rfl))
  | attachJoined _ | offerStopped _ _ | enlistStopped _ _ =>
      exact .silent rfl (.of_queues rfl rfl fun _ => rfl)
  | attempted _ => exact .silent rfl (.of_queues rfl rfl fun _ => rfl)
  | attachDone ha =>
      exact .joined ha rfl rfl fun d => congrArg Queue.isStopped (queue_update rfl rfl rfl d)
  | attachFailed ha => exact .refused ha (.of_queues rfl rfl fun _ => rfl)
  | offerIdle hs _ => exact .silent rfl (.withQueue hs.symm)
  | enlistHinted hs _ => exact .silent rfl (.withQueue (by unfold Queue.isStopped; rw [hs]; rfl))
  | offerBusy _ _ | enlistWaiting _ _ | offerDraining _ _ | enlistDraining _ _ =>
      exact .silent rfl (SameUse.withQueue (by rfl)).abandon
  | completed => exact .silent rfl (SameUse.of_queues rfl rfl fun _ => rfl).abandon

theorem Attachment.Step.retunes {a a' : Attachment} (h : Attachment.Step c a x c' a') :
    (Party.attachment a).Retunes c x c' := by
  cases h with
  | entered _ | joined _ => exact .silent rfl (.of_queues rfl rfl (queue_update rfl rfl rfl))
  | refused _ => exact .silent rfl (.of_queues rfl rfl fun _ => rfl)
  | done ha =>
      exact .joined ha rfl rfl fun d => congrArg Queue.isStopped (queue_update rfl rfl rfl d)
  | failed ha => exact .refused ha (.of_queues rfl rfl (queue_update rfl rfl rfl))

theorem Flush.Step.sameUse {f f' : Flush} (h : Flush.Step c f x c' f') :
    x.any (·.request.tellsReactor) = false ∧ SameUse c c' := by
  cases h with
  | emptied | completed => exact ⟨rfl, .of_queues rfl rfl fun _ => rfl⟩
  | settled _ | parked _ => exact ⟨rfl, .settle c⟩

/-- Leaving the reactor once every queue was stopped. -/
theorem Left.retunes {c₁ : Channel} (h : Left c₁ x c') (ha : c₁.attached = c.attached)
    (hr : c₁.registered = c.registered) (hf : c₁.fd = c.fd)
    (stopped : ∀ d, (c₁.queue d).isStopped = true)
    (hp : (∃ pending, p = .dispatch (.hangUp pending)) ∨ ∃ k, p = .closing k) :
    p.Retunes c x c' := by
  refine .left (h.isOpen.2.trans ha) (Readiness.eq_none_of_isEmpty h.registered) (fun d => ?_) ?_ hp
  · rw [h.queue]
    exact stopped d
  · cases h with
    | before _ => exact .inl rfl
    | now hn reply => exact .inr ⟨hr ▸ hn, reply, by rw [hf]⟩

theorem Closing.Step.retunes {k k' : Closing} (h : Closing.Step c k x c' k')
    (hk : ∀ v, k'.phase ≠ .broken v) : (Party.closing k).Retunes c x c' := by
  cases h with
  | again _ | flushed => exact .silent rfl (.of_queues rfl rfl fun _ => rfl)
  | released _ | releasedUnattached _ => exact .silent rfl (.of_queues rfl rfl fun _ => rfl)
  | @unattached b _ _ =>
      exact .silent rfl (.of_queues (attached_shut c b) (by cases b <;> rfl) (queue_shut b c))
  | @stopped b _ _ _ _ _ hl =>
      exact hl.retunes (attached_shut c b) (by cases b <;> rfl) (by cases b <;> rfl)
        (fun d => by rw [queue_halted]; rfl) (.inr ⟨_, rfl⟩)
  | stopBroken _ _ => exact absurd rfl (hk _)
  | flushing hf => exact .silent hf.sameUse.1 hf.sameUse.2

theorem Dispatch.Step.retunes {k k' : Dispatch} (h : Dispatch.Step c k x c' k')
    (hk : ∀ v, k' ≠ broken v) (valid : ∀ e, (c.queue e).Valid e) :
    (Party.dispatch k).Retunes c x c' := by
  cases h with
  | hungUp _ hl =>
      exact hl.retunes rfl rfl rfl (fun d => by rw [queue_halted]; rfl) (.inl ⟨_, rfl⟩)
  | hangUpBroken _ | endInputBroken _ | checkOutBroken _ | restoreBroken _ | retireBroken _ =>
      exact absurd rfl (hk _)
  | inputEnded _ =>
      exact .inputEnded (attached_withQueue ..) (registered_withQueue ..)
        (by rw [queue_withQueue]; rfl) (fun d hd => by rw [queue_withQueue_ne c _ hd]) ⟨_, _, rfl⟩
  | narrowed hr reply =>
      obtain ⟨hr, hn⟩ := not_or.mp hr
      exact .narrowed reply rfl rfl (by simpa using hr) hn rfl rfl
        fun d => congrArg Queue.isStopped (queue_update rfl rfl rfl d)
  | flushing hf => exact .silent hf.sameUse.1 hf.sameUse.2
  | sweepBegun hs => exact .silent rfl (.withQueue (hs.symm ▸ rfl))
  | checkOutReady he _ _ => exact .silent rfl (.withQueue (by rfl))
  | restored he => exact .silent rfl (.of_head valid he rfl)
  | retired he => exact .silent rfl (.withQueue (by rfl))
  | rearmed hr reply => exact .again reply hr (.of_queues rfl rfl (queue_update rfl rfl rfl))
  | enterFailed _ _ _ | enterReady _ _ _ | flushedAll | swept | rearmSkipped _ =>
      exact .silent rfl (.of_queues rfl rfl (queue_update rfl rfl rfl))
  | _ => exact .silent rfl (.of_queues rfl rfl fun _ => rfl)

theorem Party.Step.retunes (h : Party.Step c p x c' p') (hp' : p'.Intact)
    (valid : ∀ e, (c.queue e).Valid e) : p.Retunes c x c' := by
  cases h with
  | submission h => exact h.retunes
  | attachment h => exact h.retunes
  | dispatch h => exact h.retunes hp'.1 valid
  | closing h => exact h.retunes hp'

theorem Run.retunes {l₁ l₂ : List Party} (run : Run use t ⟨c, l₁ ++ p :: l₂⟩)
    (step : p.Step c x c' p') : p.Retunes c x c' :=
  step.retunes (run.orderly.next step) run.orderly.valid

/-! ### Phases -/

/-- What the reactor reports of a channel that has joined it, and the queues that are in use. -/
inductive Tuned (c : Channel) : Prop
  | both (hr : c.registered = .standard) (send : c.send.isStopped = false)
      (connection : c.connection.isStopped = false)
  | output (hr : c.registered = .writable ||| .edge) (receive : c.receive.isStopped = true)
      (send : c.send.isStopped = false) (connection : c.connection.isStopped = false)
  | nothing (hr : c.registered = .none) (receive : c.receive.isStopped = true)
      (send : c.send.isStopped = true) (connection : c.connection.isStopped = true)

theorem Tuned.of_same (h : Tuned c) (hr : c'.registered = c.registered)
    (receive : c.receive.isStopped = true → c'.receive.isStopped = true)
    (send : c'.send.isStopped = c.send.isStopped)
    (connection : c'.connection.isStopped = c.connection.isStopped) : Tuned c' := by
  cases h with
  | both hb hs hc => exact .both (hr.trans hb) (send.trans hs) (connection.trans hc)
  | output ho hv hs hc =>
      exact .output (hr.trans ho) (receive hv) (send.trans hs) (connection.trans hc)
  | nothing hn hv hs hc =>
      exact .nothing (hr.trans hn) (receive hv) (send.trans hs) (connection.trans hc)

theorem Tuned.sameUse (h : Tuned c) (same : SameUse c c') : Tuned c' :=
  h.of_same same.registered (fun hv => (same.stopped .receive).trans hv) (same.stopped .send)
    (same.stopped .connection)

/-- Narrowing the interest leaves output only. -/
theorem Tuned.narrowed (h : Tuned c) (hn : Dispatch.narrowed c.registered ≠ c.registered)
    (hr : c'.registered = Dispatch.narrowed c.registered)
    (receive : c.receive.isStopped = true)
    (stopped : ∀ d, (c'.queue d).isStopped = (c.queue d).isStopped) :
    c.registered = .standard ∧ c'.registered = .writable ||| .edge ∧ Tuned c' := by
  cases h with
  | both hb hs hc =>
      have ho : c'.registered = .writable ||| .edge := by
        rw [hr, hb]
        decide
      exact ⟨hb, ho, .output ho ((stopped .receive).trans receive) ((stopped .send).trans hs)
        ((stopped .connection).trans hc)⟩
  | output ho _ _ _ =>
      rw [ho] at hn
      exact absurd (by decide) hn
  | nothing hr' _ _ _ =>
      rw [hr'] at hn
      exact absurd (by decide) hn

/-- The interest agrees with the queues, also while a dispatch is about to narrow it. -/
structure Tuning (s : System) : Prop where
  tuned : s.channel.attached = true → Tuned s.channel
  ending : ∀ k, .dispatch k ∈ s.parties → k.endsInput = true →
    s.channel.receive.isStopped = true

theorem Dispatch.endsInput_route (events : Readiness) (pending : Option Status) :
    (route events pending).endsInput = false := by
  rcases route_cases events pending with h | ⟨todo, h⟩ | ⟨todo, h⟩ <;> rw [h] <;> rfl

theorem Dispatch.endsInput_ofForced (ops : List Operation) (rest : Option (List Stage))
    (pending : Option Status) (r : Progress) :
    (ofForced ops rest pending r).endsInput = rest.isSome := by
  rcases ofForced_cases ops rest pending r with ⟨a, h, -⟩ | ⟨op, pending', h, -⟩
  · rw [h]
    cases rest <;> rfl
  · rw [h]
    cases rest <;> rfl

/-- Whoever is to narrow the interest has been about to, or has just stopped the receives. -/
theorem Dispatch.Step.endsInput {k k' : Dispatch} (h : Dispatch.Step c k x c' k')
    (hk' : k'.endsInput = true) : k.endsInput = true ∨ (c'.queue .receive).isStopped = true := by
  cases h with
  | inputEnded _ => exact .inr (by rw [queue_withQueue]; rfl)
  | enterReady _ _ _ | queried _ =>
      rw [endsInput_route] at hk'
      cases hk'
  | @forceNext _ _ rest _ | @forcing _ _ rest _ _ =>
      rw [endsInput_ofForced] at hk'
      cases rest with
      | none => cases hk'
      | some rest => exact .inl rfl
  | checkOutReady _ _ _ | attempted _ =>
      rcases ofSwept_cases _ _ with ⟨a, h, -⟩ | ⟨op, pending, h, -⟩ | ⟨op, h, -⟩ <;>
        · rw [h] at hk'
          cases hk'
  | @forceNone rest _ | @forced _ _ rest _ | @flushing _ _ rest _ _ _ _ =>
      cases rest with
      | none => cases hk'
      | some rest => exact .inl rfl
  | flushedInput => exact .inl rfl
  | _ => cases hk'

/-- A step keeps the interest in agreement with the queues. -/
theorem Tuning.step {l₁ l₂ : List Party} (h : Tuning ⟨c, l₁ ++ p :: l₂⟩)
    (run : Run use t ⟨c, l₁ ++ p :: l₂⟩) (step : p.Step c x c' p') :
    Tuning ⟨c', l₁ ++ p' :: l₂⟩ := by
  have order := run.orderly
  have intact := order.next step
  have stays : c.receive.isStopped = true → c'.receive.isStopped = true := fun stopped =>
    order.stays_stopped step (d := .receive) stopped
  refine ⟨fun ha => ?_, fun k hk ends => ?_⟩
  · cases run.retunes step with
    | silent _ same | refused _ same | again _ _ same =>
        exact (h.tuned (same.attached ▸ ha)).sameUse same
    | joined hn _ hr stopped =>
        have fresh := (run.controlled.idle hn).2.1
        refine .both hr ((stopped .send).trans ?_) ((stopped .connection).trans ?_)
        · rw [fresh]
          rfl
        · rw [fresh]
          rfl
    | inputEnded same hr receive others _ =>
        exact (h.tuned (same ▸ ha)).of_same hr (fun _ => receive)
          (others .send (by decide)) (others .connection (by decide))
    | @narrowed _ _ k hp hk _ hn same hr stopped =>
        have receive := h.ending k (mem_middle.mpr (.inl hp.symm)) hk
        exact ((h.tuned (same ▸ ha)).narrowed hn hr receive stopped).2.2
    | left _ hr stopped _ _ =>
        exact .nothing hr (stopped .receive) (stopped .send) (stopped .connection)
  · rcases mem_middle.mp hk with hk | hk
    · subst hk
      cases step with
      | dispatch hs =>
          rcases hs.endsInput ends with before | now
          · exact stays (h.ending _ (mem_middle.mpr (.inl rfl)) before)
          · exact now
    · exact stays (h.ending k (mem_middle.mpr (.inr hk)) ends)

/-- What the reactor reports agrees with the queues in every run. -/
theorem Run.tuning (run : Run use t s) : Tuning s := by
  induction run with
  | @start s first =>
      refine ⟨fun ha => ?_, fun k hk => by simp [first.parties] at hk⟩
      cases first with
      | socket fd => cases ha
      | channel fd => exact .both rfl rfl rfl
  | join run begins _ _ ih =>
      refine ⟨ih.tuned, fun k hk ends => ?_⟩
      rcases List.mem_append.mp hk with hk | hk
      · exact ih.ending k hk ends
      · cases List.mem_singleton.mp hk
        cases begins
        cases ends
  | act run yields ih => exact ih.step run (Party.step_of_yields yields)

/-! ### Histories -/

/-- The interests of the channel from the moment on at which it joined the reactor, newest first. -/
def interests (t : List Event) (s : System) : List Readiness :=
  ((s :: t.map Event.system).filter (·.channel.attached)).map (·.channel.registered)

/-- Newest first: nothing is reported, before that output only, and before that both directions. -/
def Fades (l : List Readiness) : Prop :=
  ∃ k j i, l = List.replicate k .none ++
    (List.replicate j (.writable ||| .edge) ++ List.replicate (i + 1) .standard)

/-- What may follow an interest. -/
inductive Fading : Readiness → Readiness → Prop
  | same (r : Readiness) : Fading r r
  | narrowed : Fading .standard (.writable ||| .edge)
  | left (r : Readiness) : Fading r .none

theorem Fades.cons {l : List Readiness} {r r' : Readiness} (h : Fades (r :: l))
    (hr : Fading r r') : Fades (r' :: r :: l) := by
  obtain ⟨k, j, i, h⟩ := h
  cases hr with
  | left _ => exact ⟨k + 1, j, i, by rw [h, List.replicate_succ (n := k), List.cons_append]⟩
  | narrowed =>
      cases k with
      | zero => exact ⟨0, j + 1, i, by
          rw [h, List.replicate_succ (n := j)]
          rfl⟩
      | succ k => exact absurd (List.cons.inj h).1 (by decide)
  | same _ =>
      cases k with
      | succ k => exact ⟨k + 2, j, i, by rw [h, (List.cons.inj h).1]; rfl⟩
      | zero =>
          cases j with
          | succ j => exact ⟨0, j + 2, i, by rw [h, (List.cons.inj h).1]; rfl⟩
          | zero => exact ⟨0, 0, i + 1, by rw [h, (List.cons.inj h).1]; rfl⟩

/-- Where interests fade, none of them comes back. -/
theorem Fades.pairwise {l : List Readiness} (h : Fades l) :
    l.Pairwise fun newer older => older.contains newer = true := by
  have all : ∀ n (r : Readiness), r.contains r = true →
      (List.replicate n r).Pairwise fun newer older => older.contains newer = true :=
    fun n r hr => List.pairwise_replicate.mpr (.inr hr)
  obtain ⟨k, j, i, rfl⟩ := h
  refine List.pairwise_append.mpr ⟨all k _ (by decide), List.pairwise_append.mpr
    ⟨all j _ (by decide), all (i + 1) _ (by decide), ?_⟩, ?_⟩
  · intro a ha b hb
    rw [List.eq_of_mem_replicate ha, List.eq_of_mem_replicate hb]
    decide
  · intro a ha b hb
    rw [List.eq_of_mem_replicate ha]
    rcases List.mem_append.mp hb with hb | hb <;>
      · rw [List.eq_of_mem_replicate hb]
        decide

theorem Tuning.fading {l₁ l₂ : List Party} (h : Tuning ⟨c, l₁ ++ p :: l₂⟩)
    (retunes : p.Retunes c x c') (ha : c.attached = true) :
    Fading c.registered c'.registered := by
  cases retunes with
  | silent _ same | again _ _ same =>
      rw [same.registered]
      exact .same _
  | refused hn _ | joined hn _ _ _ =>
      rw [ha] at hn
      cases hn
  | inputEnded _ hr _ _ _ =>
      rw [hr]
      exact .same _
  | @narrowed _ _ k hp hk _ hn _ hr stopped =>
      have receive := h.ending k (mem_middle.mpr (.inl hp.symm)) hk
      obtain ⟨before, after, -⟩ := (h.tuned ha).narrowed hn hr receive stopped
      rw [before, after]
      exact .narrowed
  | left _ hr _ _ _ =>
      rw [hr]
      exact .left _

theorem interests_cons (t : List Event) (h : s.channel.attached = true) :
    interests (e :: t) s = s.channel.registered :: interests t e.system := by
  simp [interests, h]

theorem interests_head (t : List Event) (h : s.channel.attached = true) :
    ∃ l, interests t s = s.channel.registered :: l := by
  simp [interests, h]

/-- Before the channel has joined the reactor there is no interest. -/
theorem Run.interests_eq_nil (run : Run use t s) (h : s.channel.attached = false) :
    interests t s = [] := by
  refine List.map_eq_nil_iff.mpr (List.filter_eq_nil_iff.mpr fun s' hs' ha => ?_)
  rcases List.mem_cons.mp hs' with rfl | hs'
  · rw [h] at ha
    cases ha
  · obtain ⟨e, he, rfl⟩ := List.mem_map.mp hs'
    rw [run.attached_since he ha] at h
    cases h

/-- The interest of a channel that has joined the reactor fades. -/
theorem Run.fades (run : Run use t s) (h : s.channel.attached = true) : Fades (interests t s) := by
  induction run with
  | @start s first =>
      cases first with
      | socket fd => cases h
      | channel fd => exact ⟨0, 0, 0, rfl⟩
  | @join t s run p _ _ _ ih =>
      have before := ih h
      obtain ⟨l, hl⟩ := interests_head (s := s) t h
      rw [interests_cons t h, Event.system, hl]
      exact (hl ▸ before).cons (.same _)
  | @act t c l₁ l₂ p run x turn yields ih =>
      have retunes := run.retunes (Party.step_of_yields yields)
      rw [interests_cons t h, Event.system]
      cases ha : c.attached with
      | true =>
          have before := ih ha
          obtain ⟨l, hl⟩ := interests_head (s := ⟨c, l₁ ++ p :: l₂⟩) t ha
          rw [hl] at before ⊢
          exact before.cons (run.tuning.fading retunes ha)
      | false =>
          rw [run.interests_eq_nil ha]
          cases retunes with
          | joined _ _ hr _ =>
              rw [hr]
              exact ⟨0, 0, 0, rfl⟩
          | silent _ same | refused _ same | again _ _ same =>
              rw [same.attached, ha] at h
              cases h
          | inputEnded same _ _ _ _ | narrowed _ _ _ _ _ same _ _ | left same _ _ _ _ =>
              rw [same, ha] at h
              cases h

/-! ### Requests to the reactor -/

/-- A channel that has joined the reactor asks for further reports of what it is interested in. -/
theorem Party.Retunes.registers {fd : Descriptor} {interest : Readiness}
    {answer : Protocol.Answer (Call.register fd interest)}
    (h : p.Retunes c (some ⟨.register fd interest, answer⟩) c') (ha : c.attached = true) :
    fd = c.fd ∧ interest = c.registered ∧ interest.isEmpty = false := by
  cases h with
  | silent hx _ => cases hx
  | refused hn _ | joined hn _ _ _ =>
      rw [ha] at hn
      cases hn
  | again _ hr _ => exact ⟨rfl, rfl, hr⟩
  | left _ _ _ hx _ =>
      rcases hx with hx | ⟨-, reply, hx⟩ <;> cases hx

/-- Telling the reactor to forget the descriptor is how the channel leaves it. -/
theorem Party.Retunes.forgets {fd : Descriptor} {remaining : Readiness}
    {answer : Protocol.Answer (Call.unregister fd remaining)}
    (h : p.Retunes c (some ⟨.unregister fd remaining, answer⟩) c') (ha : c.attached = true)
    (tuned : Tuned c) (hr : remaining.isEmpty = true) :
    c'.attached = true ∧ c'.registered = .none := by
  cases h with
  | silent hx _ => cases hx
  | narrowed _ _ _ _ hn _ _ _ =>
      cases tuned with
      | both hb _ _ =>
          rw [hb] at hr
          exact absurd hr (by decide)
      | output ho _ _ _ =>
          rw [ho] at hr
          exact absurd hr (by decide)
      | nothing hz _ _ _ =>
          rw [hz] at hn
          exact absurd (by decide) hn
  | left same hr _ _ _ => exact ⟨same.trans ha, hr⟩

/-- Nobody makes a request to a reactor that the channel has left. -/
theorem Party.Retunes.silent_of_left (h : p.Retunes c x c') (ha : c.attached = true)
    (hr : c.registered = .none) : x.any (·.request.tellsReactor) = false := by
  cases h with
  | silent hx _ => exact hx
  | refused hn _ | joined hn _ _ _ =>
      rw [ha] at hn
      cases hn
  | again _ hn _ | narrowed _ _ _ hn _ _ _ _ =>
      rw [hr] at hn
      cases hn
  | inputEnded _ _ _ _ _ => rfl
  | left _ _ _ hx _ =>
      rcases hx with rfl | ⟨hn, -⟩
      · rfl
      · rw [hr] at hn
        cases hn

/-- Once the channel has left the reactor, it stays so. -/
theorem Run.left_since (run : Run use (newer ++ older) s)
    (first : ∀ s', Run use older s' → s'.channel.attached = true ∧ s'.channel.registered = .none) :
    s.channel.attached = true ∧ s.channel.registered = .none := by
  refine run.lasts_after (P := fun _ s => s.channel.attached = true ∧ s.channel.registered = .none)
    (fun _ _ h => h) ?_ first
  intro t c l₁ l₂ p x turn run yields h
  have step := Party.step_of_yields yields
  rcases step.attached (run.orderly.next step) with same | joined
  · exact ⟨same.1.trans h.1, Readiness.eq_none_of_isEmpty (same.2 (h.2 ▸ rfl))⟩
  · rw [h.1] at joined
    cases joined.2.1

/-- Whoever told the reactor to forget the descriptor had the channel leave it. -/
theorem Run.left_of_forgets (run : Run use (e :: t) s) (ha : e.system.channel.attached = true)
    (h : e.forgets = true) : s.channel.attached = true ∧ s.channel.registered = .none := by
  cases run with
  | join _ _ _ _ => cases h
  | @act _ c l₁ l₂ p run x turn yields =>
      have retunes := run.retunes (Party.step_of_yields yields)
      unfold Event.forgets at h
      split at h
      · next he =>
        cases he
        exact retunes.forgets ha (run.tuning.tuned ha) h
      · cases h

/-- What is requested of the reactor concerns a channel that it knows, or that joins it. -/
theorem Run.attached_of_forgets (run : Run use (e :: t) s) (h : e.forgets = true) :
    e.system.channel.attached = true := by
  cases run with
  | join _ _ _ _ => cases h
  | @act _ c l₁ l₂ p run x turn yields =>
      have retunes := run.retunes (Party.step_of_yields yields)
      cases ha : c.attached with
      | true => exact ha
      | false =>
          have unknown := (run.controlled.idle ha).1
          unfold Event.forgets at h
          split at h
          · next he =>
            cases he
            cases retunes with
            | silent hx _ => cases hx
            | narrowed _ _ _ hr _ _ _ _ =>
                rw [unknown] at hr
                cases hr
            | left _ _ _ hx _ =>
                rcases hx with hx | ⟨hr, -⟩
                · cases hx
                · rw [unknown] at hr
                  cases hr
          · cases h

/-- No request to the reactor follows the one that made it forget the descriptor. -/
theorem Run.silent_since (run : Run use (newer ++ e :: older) s) (h : e.forgets = true) :
    ∀ e' ∈ newer, e'.tellsReactor = false := by
  intro e' he'
  obtain ⟨later, between, rfl⟩ := List.append_of_mem he'
  rw [List.append_assoc, List.cons_append] at run
  have left := run.before.left_since fun s' (run' : Run use (e :: older) s') =>
    run'.left_of_forgets (run'.attached_of_forgets h) h
  obtain ⟨s', run'⟩ := run.earlier
  cases run' with
  | join _ _ _ _ => rfl
  | act run₀ yields =>
      exact (run₀.retunes (Party.step_of_yields yields)).silent_of_left left.1 left.2

end Proactor.Channel
