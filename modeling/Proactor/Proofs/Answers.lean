import Proactor.Proofs.Registration
import Proactor.Proofs.Statuses
/-! # What a submission tells its caller

A submission answers before its operation is completed, or while somebody else completes it.  What
it says has to be what the caller is given in the end.

* **Answering** (`Submission.Answers`).  A submission hands its operation to the scheduler, puts it
  at the end of its queue, or leaves it at a queue that is stopped.  Nothing else gives an answer.
* **The moment** (`Run.answered_at`).  Whoever has answered did so in one event, and did nothing
  since.
* **Agreement** (`Run.borne_out`).  `completed` is followed by a success and `failed` by this
  failure; after `pending` the operation is in its queue, and somebody else completes it. -/

namespace Proactor.Channel

/-- How a submission comes to its answer. -/
inductive Submission.Answers (c : Channel) (s : Submission) :
    Option (Exchange Call) → Channel → Answer → Prop
  | completes {op : Operation} {c' : Channel} (h : s.phase = .complete op) :
      Answers c s (some ⟨c.complete op, ()⟩) c' (.of op.status)
  | queues {op : Operation} {c' : Channel} (hw : .waiting op ∈ s.phase.standings)
      (hq : c'.queue op.direction = (c.queue op.direction).pushed op) : Answers c s none c' .pending
  | parks {op : Operation} {c' : Channel} (hw : .waiting op ∈ s.phase.standings)
      (hs : (c.queue op.direction).isStopped = true) : Answers c s none c' (.failed .shutdown)

/-- In some event the submission put its operation at the end of its queue. -/
def Queued (use : Party → Prop) (op : Operation) (t : List Event) : Prop :=
  ∃ newer older s₀ sub p' s₁ o, t = newer ++ .acted s₀ (.submission op sub) none p' :: older ∧
    Run use (.acted s₀ (.submission op sub) none p' :: older) s₁ ∧ o.key = op.key ∧
      s₁.channel.queue op.direction = (s₀.channel.queue op.direction).pushed o

/-- In no event did the submission hand anything to the scheduler. -/
def Silent (op : Operation) (t : List Event) : Prop :=
  ∀ s₀ sub x p', .acted s₀ (.submission op sub) x p' ∈ t → handedOver x = none

/-- What became of the operation of a submission that gave this answer. -/
inductive BorneOut (use : Party → Prop) (op : Operation) (t : List Event) (s : System) :
    Answer → Prop
  | completed {o : Operation} (only : (scheduled t).filter (·.ticket == op.ticket) = [o])
      (hs : o.completion.outcome.status = .success) : BorneOut use op t s .completed
  /-- Where somebody still flushes, the operation may have yet to be scheduled. -/
  | failed {status : Status}
      (hs : ∀ o ∈ scheduled t, o.ticket = op.ticket → o.completion.outcome.status = status)
      (once : (∀ p ∈ s.parties, p.flushing = false) →
        ∃ o, (scheduled t).filter (·.ticket == op.ticket) = [o]) :
      BorneOut use op t s (.failed status)
  | pending (queued : Queued use op t) (silent : Silent op t) : BorneOut use op t s .pending

variable {use : Party → Prop} {c c' : Channel} {l₁ l₂ : List Party} {p p' : Party}
  {x : Option (Exchange Call)} {t newer older : List Event} {s : System} {sub sub' : Submission}
  {op o : Operation} {g : Bool} {a : Answer}

/-! ### Answering -/

theorem Submission.Phase.ofProgress_ne_answered (early : Bool) (r : Progress) :
    Phase.ofProgress early r ≠ .answered a := by
  cases r with
  | calling _ | ready _ => nofun
  | notReady _ => cases early <;> nofun

theorem Submission.Step.answers (h : Submission.Step c sub x c' ⟨g, .answered a⟩) :
    sub.Answers c x c' a := by
  generalize hs : (⟨g, .answered a⟩ : Submission) = sub' at h
  have phase : sub'.phase = .answered a := by rw [← hs]
  clear hs
  cases h with
  | offerBusy _ _ | enlistWaiting _ _ =>
      cases phase
      exact .queues (.head _) (by rw [queue_abandon, queue_withQueue])
  | offerDraining hs _ | enlistDraining hs _ =>
      cases phase
      exact .parks (.head _) hs
  | completed =>
      cases phase
      exact .completes rfl
  | offerIdle _ _ | attempted _ | enlistHinted _ _ =>
      exact absurd phase (Phase.ofProgress_ne_answered _ _)
  | @attachJoined _ _ tried _ | @attachDone _ _ tried _ => cases tried <;> cases phase
  | _ => cases phase

theorem Party.not_step_of_answered :
    ¬ Party.Step c (.submission op ⟨g, .answered a⟩) x c' p' := by
  rintro ⟨⟨⟩⟩

/-! ### The moment -/

/-- Whoever has answered did so in an event of the run, and took no step since. -/
theorem Run.answered_at (run : Run use t s) (h : .submission op ⟨g, .answered a⟩ ∈ s.parties) :
    ∃ newer older c l₁ l₂ sub x s₁,
      t = newer ++ .acted ⟨c, l₁ ++ .submission op sub :: l₂⟩ (.submission op sub) x
        (.submission op ⟨g, .answered a⟩) :: older ∧
      Run use older ⟨c, l₁ ++ .submission op sub :: l₂⟩ ∧
      Run use (.acted ⟨c, l₁ ++ .submission op sub :: l₂⟩ (.submission op sub) x
        (.submission op ⟨g, .answered a⟩) :: older) s₁ ∧
      sub.Answers c x s₁.channel a ∧
      ∀ s₀ sub x p', .acted s₀ (.submission op sub) x p' ∉ newer := by
  induction run with
  | start first => simp [first.parties] at h
  | @join t s run p begins allowed unused ih =>
      rcases List.mem_append.mp h with h | h
      · obtain ⟨newer, older, c, l₁, l₂, sub, x, s₁, rfl, run₀, run₁, answers, ended⟩ := ih h
        refine ⟨.joined s p :: newer, older, c, l₁, l₂, sub, x, s₁, rfl, run₀, run₁, answers, ?_⟩
        intro s₀ sub x p' he
        exact ended s₀ sub x p' ((List.mem_cons.mp he).resolve_left nofun)
      · cases List.mem_singleton.mp h
        cases begins
  | @act t c l₁ l₂ p run x turn yields ih =>
      have run' := run.act yields
      have step := Party.step_of_yields yields
      rcases mem_middle.mp h with h | h
      · rw [← h] at run' step ⊢
        cases step with
        | submission hs =>
            exact ⟨[], t, c, l₁, l₂, _, x, _, rfl, run, run', hs.answers, fun _ _ _ _ => nofun⟩
      · have hm : .submission op ⟨g, .answered a⟩ ∈ l₁ ++ p :: l₂ := mem_middle.mpr (.inr h)
        obtain ⟨newer, older, c₀, l₁', l₂', sub, x', s₁, rfl, run₀, run₁, answers, ended⟩ := ih hm
        refine ⟨_ :: newer, older, c₀, l₁', l₂', sub, x', s₁, rfl, run₀, run₁, answers, ?_⟩
        intro s₀ sub x p' he
        rcases List.mem_cons.mp he with he | he
        · cases he
          cases run.sole (by simp) hm ⟨op, sub, rfl, rfl⟩ ⟨op, _, rfl, rfl⟩
          exact absurd step Party.not_step_of_answered
        · exact ended s₀ sub x p' he

/-- A submission schedules its own operation. -/
theorem Run.key_of_handedOver {s₀ : System}
    (run : Run use (newer ++ .acted s₀ (.submission op sub) x p' :: older) s)
    (hx : handedOver x = some o) : o.key = op.key := by
  obtain ⟨s', run'⟩ := run.earlier
  cases run' with
  | act run₀ yields =>
      have intact := (run₀.orderly.intact (.submission op sub) (by simp)).2
      have step := Party.step_of_yields yields
      generalize Turn.phase _ = p', Turn.state _ = c' at step
      cases step with
      | submission hs =>
          cases hs with
          | completed =>
              cases hx
              exact intact o rfl
          | _ => cases hx

/-- As long as it brings its operation, a submission has scheduled nothing. -/
theorem Run.silent_of_waiting (run : Run use t s) (hm : .submission op sub ∈ s.parties)
    (hw : .waiting o ∈ sub.phase.standings) : Silent op t := by
  intro s₀ sub₀ x p' he
  refine Option.eq_none_iff_forall_ne_some.mpr fun o' hx => ?_
  have done : o' ∈ scheduled t := List.mem_filterMap.mpr ⟨_, he, hx⟩
  obtain ⟨newer, older, rfl⟩ := List.append_of_mem he
  have key := (run.orderly.intact _ hm).2 o (Submission.Phase.op?_of_waiting hw)
  have same : o.ticket = o'.ticket :=
    Operation.ticket_eq_of_key (key.trans (run.key_of_handedOver hx).symm)
  cases run.one_standing (mem_standings.mpr (.inl ⟨_, hm, hw⟩))
    (mem_standings_of_scheduled done) same

/-! ### Agreement -/

/-- The answer about an operation that was scheduled. -/
theorem BorneOut.of_only (only : (scheduled t).filter (·.ticket == op.ticket) = [o]) :
    BorneOut use op t s (.of o.status) := by
  rw [Answer.of]
  split_ifs with success
  · exact .completed only (o.status_completion.trans ((Status.isSuccess_iff _).mp success))
  · refine .failed (fun o' ho same => ?_) fun _ => ⟨o, only⟩
    have mem : o' ∈ (scheduled t).filter (·.ticket == op.ticket) :=
      List.mem_filter.mpr ⟨ho, beq_iff_eq.mpr same⟩
    rw [only, List.mem_singleton] at mem
    rw [mem, o.status_completion]

/-- What a submission tells its caller is what its caller is given. -/
theorem Run.borne_out (run : Run use t s) (h : .submission op ⟨g, .answered a⟩ ∈ s.parties) :
    BorneOut use op t s a := by
  obtain ⟨newer, older, c, l₁, l₂, sub, x, s₁, rfl, run₀, run₁, answers, ended⟩ :=
    run.answered_at h
  have hm : .submission op sub ∈ l₁ ++ .submission op sub :: l₂ := by simp
  have intact := (run₀.orderly.intact _ hm).2
  cases answers with
  | @completes o _ hc =>
      have ticket := Operation.ticket_eq_of_key (intact o (by rw [hc]; rfl))
      have only := run.filter_scheduled
        (List.mem_filterMap.mpr ⟨_, List.mem_append_right newer (.head older), rfl⟩)
      exact .of_only (ticket ▸ only)
  | @queues o _ hw hq =>
      have key := intact o (Submission.Phase.op?_of_waiting hw)
      rw [Operation.direction_eq_of_key key] at hq
      refine .pending ⟨newer, older, _, sub, _, s₁, o, rfl, run₁, key, hq⟩ ?_
      intro s₀ sub₀ x p' he
      rcases List.mem_append.mp he with he | he
      · exact absurd he (ended s₀ sub₀ x p')
      · rcases List.mem_cons.mp he with he | he
        · cases he
          rfl
        · exact run₀.silent_of_waiting hm hw s₀ sub₀ x p' he
  | @parks o _ hw hs =>
      have key := intact o (Submission.Phase.op?_of_waiting hw)
      have ticket := Operation.ticket_eq_of_key key
      rw [Operation.direction_eq_of_key key] at hs
      have away := (Event.Brings.waiting (e := .acted _ _ none _) hm hw).lasts run hs
      refine .failed (fun o' ho' same => ?_) fun settled => ?_
      · have stands := away.stands _ (mem_standings_of_scheduled ho') (same.trans ticket.symm)
        rcases stands with he | he
        · cases he
        · cases he
          exact Operation.status_completion _
      · refine filter_of_countP_schedules (ticket ▸ away.once run (fun p hp hs => ?_) settled)
        cases run.sole hp h hs ⟨op, _, rfl, ticket.symm⟩
        exact ⟨_, rfl⟩

/-- An accept comes while a close completes another one, and is left for the close. -/
def parkedAccept : List Choice :=
  .join (.submission false (.accept 7 default)) :: List.replicate 3 (.act 0 notReady) ++
    [.join (.closing false), .act 1 notReady, .join (.submission false (.accept 8 default)),
      .act 2 notReady] ++ List.replicate 8 (.act 1 notReady)

/-- The close gives the caller the error that the submission had told him of. -/
theorem borne_out_parked : ∃ t s, Run (fun _ => True) t s ∧
    .submission (.accept 8 default) ⟨false, .answered (.failed .shutdown)⟩ ∈ s.parties ∧
    ∃ o, (scheduled t).filter (·.ticket == 8) = [o] ∧ o.completion.outcome.status = .shutdown := by
  have run := run_of_isSome (.channel 10)
    (show (replay (fun _ => True) (ofChannel 10) parkedAccept).isSome = true by rfl)
  generalize hr : Option.get _ _ = r at run
  have parties : r.2.parties = [.submission (.accept 7 default) ⟨false, .answered .pending⟩,
      .closing ⟨false, .ended (.ok ())⟩,
      .submission (.accept 8 default) ⟨false, .answered (.failed .shutdown)⟩] := by
    rw [← hr]
    rfl
  have hm : .submission (.accept 8 default) ⟨false, .answered (.failed .shutdown)⟩ ∈
      r.2.parties := by simp [parties]
  cases run.borne_out hm with
  | failed given once =>
      obtain ⟨o, only⟩ := once (by simp [parties, Party.flushing])
      obtain ⟨ho, same⟩ := List.mem_filter.mp (only ▸ List.mem_singleton_self o)
      exact ⟨r.1, r.2, run, hm, o, only, given o ho (eq_of_beq same)⟩

end Proactor.Channel
