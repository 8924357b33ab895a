import Proactor.Proofs.Interest
/-! # The life of a registration

The reactor is told of a channel once, hears less and less of it, and forgets it once.  A queue that
is out of use stays so.

* **Late operations** (`Event.Brings`).  An operation that comes to a queue which is stopped.
* **Turned away** (`TurnedAway`).  From then on it waits, or is done with `shutdown`.  What makes
  this so: an attempt begins where a queue is in use, or with what a stop handed out, and what is
  handed out waited in the queue before it was stopped.
* **The whole** (`Lifecycle`).  All of this together, for every run (`Run.lifecycle`). -/

namespace Proactor.Channel

/-- The operations that a dispatch is still to attempt once more. -/
def Dispatch.forces : Dispatch → List Operation
  | force ops _ _ | forcing _ ops _ _ | forced _ ops _ _ => ops
  | _ => []

/-- A submission comes with an operation: it begins, or has not yet brought to its queue what it
had at first or what an attempt left. -/
inductive Event.Brings (op : Operation) : Event → Operation → Prop
  | joined {s : System} {sub : Submission} : Brings op (.joined s (.submission op sub)) op
  | waiting {e : Event} {sub : Submission} {o : Operation}
      (hm : .submission op sub ∈ e.system.parties) (hw : .waiting o ∈ sub.phase.standings) :
      Brings op e o

/-- The operation stands before a stopped queue, or it has been turned away. -/
structure TurnedAway (o : Operation) (t : List Event) (s : System) : Prop where
  stopped : (s.channel.queue o.direction).isStopped = true
  submitted : ∃ op sub, .submission op sub ∈ s.parties ∧ op.ticket = o.ticket
  stands : ∀ σ ∈ s.standings t, σ.op.ticket = o.ticket →
    σ = .waiting o ∨ σ = .done (o.withStatus .shutdown)
  spared : ∀ k, .dispatch k ∈ s.parties → ∀ op ∈ k.forces, op.ticket ≠ o.ticket

variable {use : Party → Prop} {c c' : Channel} {l₁ l₂ : List Party} {p p' : Party}
  {x : Option (Exchange Call)} {t newer older : List Event} {s : System} {e : Event}
  {op o : Operation} {d : Direction} {σ : Standing}

/-! ### Where attempts begin -/

/-- An attempt begins before the channel has joined the reactor, at a queue in use, or with what a
stop handed out. -/
theorem Party.in_use_of_begins (valid : ∀ e, (c.queue e).Valid e) (h : p.begins? c = some op) :
    c.attached = false ∨ (c.queue op.direction).isStopped = false ∨
      ∃ k, p = .dispatch k ∧ op ∈ k.forces := by
  unfold begins? at h
  split at h
  · split at h
    · next hc => exact .inl hc.1
    · cases h
  · split at h
    · next hq =>
      cases h
      obtain ⟨rfl, hs⟩ := Queue.in_use_of_attempt hq
      exact .inr (.inl hs)
    · cases h
  · split at h
    · next hq =>
      cases h
      obtain ⟨rfl, hs⟩ := Queue.in_use_of_retry hq
      exact .inr (.inl hs)
    · cases h
  · cases h
    exact .inr (.inr ⟨_, rfl, .head _⟩)
  · next s =>
    split at h
    · next hq =>
      cases h
      obtain ⟨n, rest, he⟩ := Queue.head_of_ready hq
      have waits : op ∈ (c.queue s.stage.direction).waiting := by
        rw [Queue.waiting, he]
        exact .head _
      rw [(valid _).waiting op waits]
      exact .inr (.inl ((valid _).not_stopped he))
    · cases h
  · cases h

/-- What a dispatch is to attempt once more was so before, or waited in a queue. -/
theorem Dispatch.Step.forces {k k' : Dispatch} (h : Dispatch.Step c k x c' k')
    (ho : o ∈ k'.forces) : o ∈ k.forces ∨ ∃ d, o ∈ (c.queue d).waiting := by
  have route : ∀ {events : Readiness} {pending : Option Status},
      (route events pending).forces = [] := by
    intro events pending
    unfold Dispatch.route
    split
    · rfl
    · split <;> rfl
  have ofForced : ∀ {ops : List Operation} {rest : Option (List Stage)} {pending : Option Status}
      {r : Progress}, (Dispatch.ofForced ops rest pending r).forces = ops := by
    intro ops rest pending r
    rcases ofForced_cases ops rest pending r with ⟨a, h, -⟩ | ⟨op, pending', h, -⟩ <;> rw [h] <;>
      rfl
  have ofSwept : ∀ {s : Sweep} {r : Progress}, (Dispatch.ofSwept s r).forces = [] := by
    intro s r
    rcases ofSwept_cases s r with ⟨a, h, -⟩ | ⟨op, pending, h, -⟩ | ⟨op, h, -⟩ <;> rw [h] <;> rfl
  cases h with
  | hungUp _ _ =>
      refine .inr ?_
      rcases List.mem_append.mp ho with ho | ho
      · rcases List.mem_append.mp ho with ho | ho
        · exact ⟨.receive, ho⟩
        · exact ⟨.send, ho⟩
      · exact ⟨.connection, ho⟩
  | inputEnded _ => exact .inr ⟨.receive, ho⟩
  | enterReady _ _ _ | queried _ =>
      rw [route] at ho
      cases ho
  | forceNext =>
      rw [ofForced] at ho
      exact .inl (.tail _ ho)
  | forcing _ =>
      rw [ofForced] at ho
      exact .inl ho
  | forced => exact .inl ho
  | checkOutReady _ _ _ | attempted _ =>
      rw [ofSwept] at ho
      cases ho
  | _ => cases ho

theorem Dispatch.held_of_forces {k : Dispatch} (h : o ∈ k.forces) : o ∈ k.held := by
  cases k with
  | force ops _ _ => exact h
  | forcing a ops _ _ | forced op ops _ _ => exact .tail _ h
  | _ => cases h

theorem Submission.Phase.op?_of_waiting {phase : Submission.Phase} {o : Operation}
    (h : .waiting o ∈ phase.standings) : phase.op? = some o := by
  cases phase with
  | enter op | attach op _ | offer op | enlist op =>
      cases List.mem_singleton.mp h
      rfl
  | attempt _ _ | complete _ => cases List.mem_singleton.mp h
  | answered _ | broken _ => cases h

/-! ### Late operations -/

namespace TurnedAway

/-- It is not in a queue, since its queue is stopped. -/
theorem not_in_queue (h : TurnedAway o t s) (valid : ∀ d, (s.channel.queue d).Valid d)
    (hw : op ∈ (s.channel.queue d).waiting) : op.ticket ≠ o.ticket := by
  intro ht
  have stands := h.stands (.waiting op)
    (mem_standings.mpr (.inr (.inl ⟨d, op, List.mem_append_left _ hw, rfl⟩))) ht
  rcases stands with he | he
  · cases he
    have hd := (valid d).waiting _ hw
    rw [Queue.waiting, (valid d).emptied (hd ▸ h.stopped)] at hw
    cases hw
  · cases he

/-- No step is a part of an attempt of it. -/
theorem untried (h : TurnedAway o t ⟨c, l₁ ++ p :: l₂⟩) (run : Run use t ⟨c, l₁ ++ p :: l₂⟩)
    (step : p.Step c x c' p') (tried : p.tries c = some op) : op.ticket ≠ o.ticket := by
  intro ht
  have pends := run.pends p (by simp)
  cases ha : p.attempt? with
  | some a =>
      simp only [Party.tries, ha, Option.map_some, Option.some_or, Option.some.injEq] at tried
      subst tried
      rcases h.stands _ (Party.Has.own (step.goes_on pends ha).1).mem ht with he | he <;> cases he
  | none =>
      simp only [Party.tries, ha, Option.map_none, Option.none_or] at tried
      rcases h.stands _ (step.begins pends tried).2.1.mem ht with he | he
      · cases he
        rcases Party.in_use_of_begins run.orderly.valid tried with hn | hn | ⟨k, rfl, hk⟩
        · rw [run.attached_of_stopped h.stopped] at hn
          cases hn
        · rw [h.stopped] at hn
          cases hn
        · exact h.spared k (by simp) _ hk rfl
      · cases he

/-- What becomes of it while it is not attempted. -/
theorem stands_on (h : TurnedAway o t ⟨c, l₁ ++ p :: l₂⟩) (run : Run use t ⟨c, l₁ ++ p :: l₂⟩)
    (step : p.Step c x c' p') (fate : Fate c p x (· ∈ System.standings t ⟨c, l₁ ++ p :: l₂⟩) σ)
    (hn : σ.op.ticket = o.ticket) : σ = .waiting o ∨ σ = .done (o.withStatus .shutdown) := by
  cases fate with
  | @wentOn a _ ha before reply hx became =>
      have same := (Operation.ticket_eq_of_key became.key).trans
        (Operation.ticket_eq_of_key (a.key_resume c.fd reply))
      exact absurd (same.symm.trans hn) (h.untried run step (by rw [Party.tries, ha]; rfl))
  | @began op _ hb hx before became =>
      have same := (Operation.ticket_eq_of_key became.key).trans
        (Operation.ticket_eq_of_key (Attempt.key_start op))
      exact absurd (same.symm.trans hn) (h.untried run step (Party.tries_of_begins hb))
  | untried _ before onward =>
      have same := Operation.ticket_eq_of_key onward.key
      rcases h.stands _ before (same.symm.trans hn) with rfl | rfl
      · cases onward with
        | same _ => exact .inl rfl
        | stopped _ => exact .inr rfl
        | refused ha _ _ =>
            rw [run.attached_of_stopped h.stopped] at ha
            cases ha
      · cases onward
        exact .inr rfl

theorem act {turn : Turn Channel Party} (h : TurnedAway o t ⟨c, l₁ ++ p :: l₂⟩)
    (run : Run use t ⟨c, l₁ ++ p :: l₂⟩) (yields : (p.next c).Yields c x turn) :
    TurnedAway o (.acted ⟨c, l₁ ++ p :: l₂⟩ p x turn.phase :: t)
      ⟨turn.state, l₁ ++ turn.phase :: l₂⟩ := by
  have step := Party.step_of_yields yields
  have order := run.orderly
  refine ⟨?_, ?_, fun σ hσ hn => h.stands_on run step (run.fate yields hσ) hn,
    fun k hk op ho => ?_⟩
  · exact order.stays_stopped step h.stopped
  · obtain ⟨op, sub, hm, ht⟩ := h.submitted
    obtain ⟨sub, hm⟩ := step.submission_forth hm
    exact ⟨op, sub, hm, ht⟩
  · rcases mem_middle.mp hk with hk | hk
    · rw [← hk] at step
      cases step with
      | dispatch hs =>
          rcases hs.forces ho with before | ⟨d, hw⟩
          · exact h.spared _ (by simp) op before
          · exact h.not_in_queue order.valid hw
    · exact h.spared k (mem_middle.mpr (.inr hk)) op ho

theorem join (h : TurnedAway o t s) (begins : p.Begins s.channel.attached)
    (unused : ∀ op, p.operation? = some op → s.Unused op.ticket) :
    TurnedAway o (.joined s p :: t) ⟨s.channel, s.parties ++ [p]⟩ := by
  obtain ⟨op, sub, hm, ht⟩ := h.submitted
  refine ⟨h.stopped, ⟨op, sub, List.mem_append_left _ hm, ht⟩, fun σ hσ hn => ?_, fun k hk => ?_⟩
  · rcases System.mem_standings_joined begins hσ with hσ | ⟨op', ho', rfl⟩
    · exact h.stands σ hσ hn
    · exact absurd ⟨op, sub, rfl, ht.trans hn.symm⟩ (unused op' ho' _ hm)
  · rcases List.mem_append.mp hk with hk | hk
    · exact h.spared k hk
    · cases List.mem_singleton.mp hk
      cases begins
      intro op ho
      cases ho

/-- What a submission brings to a stopped queue is turned away. -/
theorem of_waiting {sub : Submission} (run : Run use t s) (hm : .submission op sub ∈ s.parties)
    (hw : .waiting o ∈ sub.phase.standings)
    (stopped : (s.channel.queue op.direction).isStopped = true) : TurnedAway o t s := by
  have ho := Submission.Phase.op?_of_waiting hw
  have key := (run.orderly.intact _ hm).2 o ho
  refine ⟨Operation.direction_eq_of_key key ▸ stopped,
    ⟨op, sub, hm, (Operation.ticket_eq_of_key key).symm⟩, fun σ hσ hn => ?_, fun k hk op' ho' => ?_⟩
  · exact .inl (run.one_standing hσ (mem_standings.mpr (.inl ⟨_, hm, hw⟩)) hn)
  · obtain ⟨c, parties⟩ := s
    obtain ⟨l₁, l₂, rfl⟩ := List.append_of_mem hm
    have brings : o ∈ (Party.submission op sub).brings ++ (Party.submission op sub).held := by
      simp [Party.brings, ho]
    refine (run.one_place brings).1 (.dispatch k) ?_ op'
      (List.mem_append_right _ (Dispatch.held_of_forces ho'))
    rcases mem_middle.mp hk with hk | hk
    · cases hk
    · exact hk

end TurnedAway

theorem Event.Brings.turnedAway (run : Run use (e :: t) s) (h : e.Brings op o)
    (stopped : (e.system.channel.queue op.direction).isStopped = true) :
    TurnedAway o (e :: t) s := by
  cases h with
  | @joined s₀ sub =>
      cases run with
      | join run begins allowed unused =>
          have run' := run.join begins allowed unused
          refine .of_waiting run' (List.mem_append_right _ (.head _)) ?_ stopped
          cases begins <;> exact .head _
  | waiting hm hw =>
      cases run with
      | join run begins _ unused =>
          exact (TurnedAway.of_waiting run hm hw stopped).join begins unused
      | act run yields => exact (TurnedAway.of_waiting run hm hw stopped).act run yields

/-- What a party has is to be flushed, or a head that it has checked out, or what it brings. -/
theorem Party.flushing_of_standing (intact : p.Intact) (h : σ ∈ p.standings) :
    p.flushing = true ∨ p.out σ.op.direction = true ∨ σ.op ∈ p.brings := by
  have flushes : ∀ {f : Flush}, σ ∈ f.held.map Standing.waiting → f.busy = true := by
    intro f hf
    cases f with
    | complete ops => rfl
    | settle | ended => cases hf
  cases p with
  | submission op sub =>
      have mem := List.mem_map_of_mem (f := Standing.op) h
      rw [Party.op_standings, show (Party.submission op sub).held = [] from rfl,
        List.append_nil] at mem
      exact .inr (.inr mem)
  | attachment a => cases h
  | dispatch k =>
      cases k with
      | force _ _ _ | forcing _ _ _ _ | forced _ _ _ _ => exact .inl rfl
      | flush f _ _ => exact .inl (flushes h)
      | attempt a s | restore op s | complete op s =>
          cases List.mem_singleton.mp h
          exact .inr (.inl (beq_iff_eq.mpr intact.2.symm))
      | _ => cases h
  | closing k =>
      obtain ⟨b, phase⟩ := k
      cases phase with
      | release ops => exact .inl rfl
      | flush f _ => exact .inl (flushes h)
      | stop | ended _ | broken _ => cases h

/-- What was turned away has been scheduled, once its submission has returned and nobody flushes. -/
theorem TurnedAway.once (h : TurnedAway o t s) (run : Run use t s)
    (returned : ∀ p ∈ s.parties, p.Submits o.ticket → p.HasReturned)
    (settled : ∀ p ∈ s.parties, p.flushing = false) :
    t.countP (·.schedules o.ticket) = 1 := by
  obtain ⟨op, sub, hm, ht⟩ := h.submitted
  have atMost : t.countP (·.schedules o.ticket) ≤ 1 :=
    count_submitted run ⟨_, hm, op, sub, rfl, ht⟩ ▸ run.countP_schedules_le o.ticket
  have atLeast : 0 < t.countP (·.schedules o.ticket) := by
    obtain ⟨σ, hσ, hn⟩ := run.stands hm
    have hn := hn.trans ht
    have key : σ.op.direction = o.direction := by
      rcases h.stands σ hσ hn with rfl | rfl <;> rfl
    rcases mem_standings.mp hσ with ⟨p, hp, hσ⟩ | ⟨d, o', hw, rfl⟩ | ⟨o', hs, rfl⟩
    · rcases Party.flushing_of_standing (run.orderly.intact p hp) hσ with hf | hout | brings
      · rw [settled p hp] at hf
        cases hf
      · rw [run.not_out_of_stopped (key ▸ h.stopped) hp] at hout
        cases hout
      · obtain ⟨submits, busy⟩ := run.submits_of_brings hp brings
        exact absurd (returned p hp (hn ▸ submits)) busy
    · rcases List.mem_append.mp hw with hw | hw
      · exact absurd hn (h.not_in_queue run.orderly.valid hw)
      · obtain ⟨p, hp, hf⟩ := run.controlled.flushing d
          ((run.orderly.valid d).parks (List.ne_nil_of_mem hw))
        rw [settled p hp] at hf
        cases hf
    · rw [countP_schedules]
      exact List.count_pos_iff.mpr (hn ▸ List.mem_map_of_mem hs)
  omega

/-- What comes to a stopped queue has been turned away ever since. -/
theorem Event.Brings.lasts (h : e.Brings op o) (run : Run use (newer ++ e :: older) s)
    (stopped : (e.system.channel.queue op.direction).isStopped = true) :
    TurnedAway o (newer ++ e :: older) s := by
  induction newer generalizing s with
  | nil => exact h.turnedAway run stopped
  | cons e' rest ih =>
      cases run with
      | join run begins _ unused => exact (ih run).join begins unused
      | act run yields => exact (ih run).act run yields

/-- Nobody attempts what came to a stopped queue. -/
theorem Event.Brings.untried (h : e.Brings op o) (run : Run use (newer ++ e :: older) s)
    (stopped : (e.system.channel.queue op.direction).isStopped = true) :
    ∀ e' ∈ newer, ∀ op', e'.tried? = some op' → op'.ticket ≠ o.ticket := by
  intro e' he' op' tried
  obtain ⟨later, between, rfl⟩ := List.append_of_mem he'
  rw [List.append_assoc, List.cons_append] at run
  obtain ⟨s', run'⟩ := run.earlier
  cases run' with
  | join _ _ _ _ => cases tried
  | act run₀ yields =>
      exact (h.lasts run₀ stopped).untried run₀ (Party.step_of_yields yields) tried

/-! ### The whole -/

/-- What a run has done to the registration of its channel and to the queues that went out of
use. -/
structure Lifecycle (t : List Event) (s : System) : Prop where
  /-- The interest is the standard one, then perhaps output only, then perhaps nothing. -/
  fades : s.channel.attached = true → Fades (interests t s)
  /-- No bit comes back. -/
  shrinks : (interests t s).Pairwise fun newer older => older.contains newer = true
  /-- Once the channel has joined, it asks for what it is interested in, which is something. -/
  registers : ∀ s₀ p fd interest answer p',
    .acted s₀ p (some ⟨.register fd interest, answer⟩) p' ∈ t → s₀.channel.attached = true →
      fd = s₀.channel.fd ∧ interest = s₀.channel.registered ∧ interest ≠ .none
  /-- The reactor is told to forget the descriptor once at most. -/
  forgets : t.countP (·.forgets) ≤ 1
  /-- No request to the reactor follows that one. -/
  silent : ∀ newer e older, t = newer ++ e :: older → e.forgets = true →
    ∀ e' ∈ newer, e'.tellsReactor = false
  /-- The reactor has forgotten the channel exactly if sends and connections are out of use; then
  receives are, too, and they are wherever nothing readable is reported. -/
  agrees : s.channel.attached = true →
    (s.channel.registered = .none ↔ s.channel.send.isStopped = true) ∧
    (s.channel.send.isStopped = true ↔ s.channel.connection.isStopped = true) ∧
    (s.channel.registered = .none → s.channel.receive.isStopped = true) ∧
    (s.channel.registered.contains .readable = false → s.channel.receive.isStopped = true)
  /-- A stopped queue stays stopped. -/
  stopped : ∀ e ∈ t, ∀ d, (e.system.channel.queue d).isStopped = true →
    (s.channel.queue d).isStopped = true
  /-- A stopped queue is empty. -/
  empty : ∀ d, (s.channel.queue d).isStopped = true → (s.channel.queue d).entries = []
  /-- An operation that comes to a stopped queue is never attempted.  It is scheduled with
  `shutdown`, as it came, and that has happened once its submission has returned and nobody
  flushes. -/
  late : ∀ newer e older op o, t = newer ++ e :: older →
    (e.system.channel.queue op.direction).isStopped = true → e.Brings op o →
      (∀ e' ∈ newer, ∀ op', e'.tried? = some op' → op'.ticket ≠ o.ticket) ∧
      (∀ o' ∈ scheduled t, o'.ticket = o.ticket → o' = o.withStatus .shutdown) ∧
      ((∀ p ∈ s.parties, p.Submits o.ticket → p.HasReturned) →
        (∀ p ∈ s.parties, p.flushing = false) → t.countP (·.schedules o.ticket) = 1)

theorem Tuned.agrees (h : Tuned c) :
    (c.registered = .none ↔ c.send.isStopped = true) ∧
    (c.send.isStopped = true ↔ c.connection.isStopped = true) ∧
    (c.registered = .none → c.receive.isStopped = true) ∧
    (c.registered.contains .readable = false → c.receive.isStopped = true) := by
  cases h with
  | both hr hs hc =>
      rw [hr, hs, hc]
      exact ⟨by decide, by decide, fun h => absurd h (by decide), fun h => absurd h (by decide)⟩
  | output hr hv hs hc =>
      rw [hr, hs, hc]
      exact ⟨by decide, by decide, fun _ => hv, fun _ => hv⟩
  | nothing hr hv hs hc =>
      rw [hr, hs, hc]
      exact ⟨by decide, by decide, fun _ => hv, fun _ => hv⟩

/-- What happens once at most, if nothing of the kind follows it. -/
theorem countP_le_one {α : Type} {P : α → Bool} {l : List α}
    (h : ∀ newer a older, l = newer ++ a :: older → P a = true → ∀ b ∈ newer, P b = false) :
    l.countP P ≤ 1 := by
  induction l with
  | nil => exact Nat.zero_le 1
  | cons b rest ih =>
      have rest_le := ih fun newer a older hl => by
        intro ha b' hb'
        exact h (b :: newer) a older (by rw [hl]; rfl) ha b' (.tail _ hb')
      rw [List.countP_cons]
      by_cases hb : P b = true
      · have none : rest.countP P = 0 := by
          refine List.countP_eq_zero.mpr fun a ha hPa => ?_
          obtain ⟨l₁, l₂, rfl⟩ := List.append_of_mem ha
          have := h (b :: l₁) a l₂ rfl hPa b (.head _)
          rw [hb] at this
          cases this
        rw [none]
        split <;> decide
      · rw [if_neg hb]
        exact rest_le

/-- In every run the interest of a channel only shrinks, it agrees with the queues that are in use,
and what comes to a queue out of use is turned away. -/
theorem Run.lifecycle (run : Run use t s) : Lifecycle t s where
  fades := run.fades
  shrinks := by
    cases ha : s.channel.attached with
    | true => exact (run.fades ha).pairwise
    | false =>
        rw [run.interests_eq_nil ha]
        exact .nil
  registers := by
    intro s₀ p fd interest answer p' he ha
    obtain ⟨newer, older, rfl⟩ := List.append_of_mem he
    obtain ⟨s', run'⟩ := run.earlier
    cases run' with
    | act run₀ yields =>
        obtain ⟨hf, hi, hn⟩ := (run₀.retunes (Party.step_of_yields yields)).registers ha
        exact ⟨hf, hi, fun h => by rw [h] at hn; cases hn⟩
  forgets := by
    refine countP_le_one fun newer e older ht he b hb => ?_
    subst ht
    have silent := run.silent_since he b hb
    cases hf : b.forgets with
    | false => rfl
    | true =>
        rw [b.tellsReactor_of_forgets hf] at silent
        cases silent
  silent := by
    rintro newer e older rfl he
    exact run.silent_since he
  agrees := fun ha => (run.tuning.tuned ha).agrees
  stopped := by
    intro e he d hs
    obtain ⟨newer, older, rfl⟩ := List.append_of_mem he
    exact run.stopped_since hs
  empty := fun d => (run.orderly.valid d).emptied
  late := by
    rintro newer e older op o rfl stopped brings
    have away := brings.lasts run stopped
    refine ⟨brings.untried run stopped, fun o' ho ht => ?_, away.once run⟩
    rcases away.stands _ (mem_standings.mpr (.inr (.inr ⟨o', ho, rfl⟩))) ht with he | he
    · cases he
    · exact Standing.done.inj he

/-- The peer closes its side of a connection, then all of it hangs up.  A receive comes late. -/
def lateReceive : List Choice :=
  [.join (.dispatch .peerClosed), .act 0 notReady, .act 0 notReady, .act 0 notReady,
    .act 0 notReady, .act 0 notReady, .act 0 notReady, .act 0 notReady,
    .join (.dispatch .hangUp), .act 1 notReady, .act 1 notReady, .act 1 notReady, .act 1 notReady,
    .act 1 notReady,
    .join (.submission false (.receive 7 (.list []) 0 none)), .act 2 notReady, .act 2 notReady]

theorem lifecycle_receive : ∃ t s, Run (fun _ => True) t s ∧
    (interests t s).eraseDups = [.none, .writable ||| .edge, .standard] ∧ Fades (interests t s) ∧
    s.channel.send.isStopped = true ∧ t.countP (·.schedules 7) = 1 := by
  have runs : (replay (fun _ => True) (ofChannel 10) lateReceive).isSome = true := by rfl
  have run := run_of_isSome (.channel 10) runs
  generalize hr : (replay (fun _ => True) (ofChannel 10) lateReceive).get runs = r at run
  have attached : r.2.channel.attached = true := by
    rw [← hr]
    rfl
  have parties : r.2.parties = [.dispatch .ended, .dispatch .ended,
      .submission (.receive 7 (.list []) 0 none) ⟨false, .answered (.failed .shutdown)⟩] := by
    rw [← hr]
    rfl
  obtain ⟨s₀, split, stopped⟩ : ∃ s₀, r.1 = r.1.take 2 ++ .joined s₀
      (.submission (.receive 7 (.list []) 0 none) (.direct (.receive 7 (.list []) 0 none))) ::
        r.1.drop 3 ∧ (s₀.channel.queue .receive).isStopped = true := by
    rw [← hr]
    exact ⟨_, rfl, rfl⟩
  have life := run.lifecycle
  refine ⟨r.1, r.2, run, ?_, life.fades attached, (life.agrees attached).1.mp ?_,
    (life.late _ _ _ (.receive 7 (.list []) 0 none) _ split stopped .joined).2.2 ?_ ?_⟩
  · rw [← hr]
    rfl
  · rw [← hr]
    rfl
  · simp [parties, Party.Submits, Party.HasReturned]
  · simp [parties, Party.flushing]

end Proactor.Channel
