import Proactor.Proofs.Carriers
/-! # First come, first served

On a socket, operations of one direction are handed to the scheduler in the order in which they were
submitted, as far as one submission returned before the other began.

* **At the gate** (`Submission.Phase.atGate`).  A submission that has not been admitted.  It gets
  past the gate without joining the line only when the line is empty.
* **Behind** (`Behind`).  Of two operations the older one has been scheduled, or it is in line and
  the younger one is at the gate or further back in the line.  Every step keeps this. -/

namespace Proactor.Channel

/-- The queue has not admitted the operation. -/
def Submission.Phase.atGate : Submission.Phase → Bool
  | enter _ | attach _ false | offer _ => true
  | _ => false

variable {c c' : Channel} {l₁ l₂ : List Party} {p p' : Party} {x : Option (Exchange Call)}
  {t : List Event} {s : System}

/-- Past the gate there is the line, or nobody waits. -/
theorem Submission.Step.atGate {s s' : Submission} (h : Submission.Step c s x c' s')
    (hs : s.phase.atGate = true) {op : Operation} (ho : s.phase.op? = some op) :
    (handedOver x = none ∧ (s'.phase.atGate = true ∨ s'.phase.op? = none)) ∨
      c.Idle op.direction := by
  cases h with
  | enterJoined _ | enterFirst _ _ _ => exact .inl ⟨rfl, .inl rfl⟩
  | enterClosed ha _ | enterEarly ha _ _ | attachFailed ha => exact .inr (.inl ha)
  | @attachJoined g op tried _ | @attachDone g op tried _ =>
      cases tried with
      | false => exact .inl ⟨rfl, .inl rfl⟩
      | true => cases hs
  | offerIdle hq he =>
      cases ho
      exact .inr (.inr (.inl ⟨hq, he⟩))
  | offerBusy _ _ | offerDraining _ _ => exact .inl ⟨rfl, .inr rfl⟩
  | offerStopped hq hd =>
      cases ho
      exact .inr (.inr (.inr ⟨hq, hd⟩))
  | _ => cases hs

/-- The operation with ticket `a` is served before `b`, which is at the gate or further back. -/
inductive Behind (a : Nat) (b : Operation) (t : List Event) (s : System) : Prop
  | served (h : a ∈ tickets b.direction (scheduled t))
  | waiting (ha : a ∈ s.inLine b.direction) (sub : Submission)
      (hb : .submission b sub ∈ s.parties) (gate : sub.phase.atGate = true)
  | behind (h : [a, b.ticket].Sublist (s.inLine b.direction))

theorem scheduled_acted (s : System) (p p' : Party) (x : Option (Exchange Call)) (t : List Event) :
    scheduled (.acted s p x p' :: t) = (handedOver x).toList ++ scheduled t := by
  cases hx : handedOver x <;> simp [scheduled, Event.scheduled?, hx]

theorem length_tickets_toList (d : Direction) (op : Option Operation) :
    (tickets d op.toList).length ≤ 1 := by
  apply Nat.le_trans (List.length_filterMap_le _ _)
  cases op <;> simp

/-- Whoever stands in line stays there or is served. -/
theorem Moves.mem {b l out b' l' : List Nat} (h : Moves b l out b' l') {a : Nat} (ha : a ∈ l) :
    a ∈ out ∨ a ∈ l' := by
  cases h with
  | none _ _ => exact .inr ha
  | joined _ _ => exact .inr (List.mem_append_left _ ha)
  | served _ _ => exact List.mem_append.mp ha
  | finished _ _ => exact .inr ha

/-- Nobody overtakes anybody in the line. -/
theorem Moves.sublist {b l out b' l' : List Nat} (h : Moves b l out b' l') (one : out.length ≤ 1)
    {a n : Nat} (hl : [a, n].Sublist l) : a ∈ out ∨ [a, n].Sublist l' := by
  cases h with
  | none _ _ => exact .inr hl
  | joined _ _ => exact .inr (hl.trans (List.sublist_append_left _ _))
  | finished _ _ => exact .inr hl
  | served _ _ =>
      match out, one with
      | [], _ => exact .inr hl
      | [m], _ =>
          rcases List.sublist_cons_iff.mp hl with hl | ⟨r, hr, hl⟩
          · exact .inr hl
          · cases hr
            exact .inl (.head _)

theorem Moves.joins {b l l' : List Nat} (h : Moves b l [] [] l') (hb : b ≠ []) : l' = l ++ b := by
  cases h with
  | none _ _ => exact absurd rfl hb
  | joined _ _ => rfl
  | served _ _ => exact absurd rfl hb
  | finished _ _ => exact absurd rfl hb

theorem Submission.Phase.op?_of_atGate {phase : Phase} (h : phase.atGate = true) :
    ∃ op, phase.op? = some op := by
  cases phase with
  | enter op | attach op _ | offer op => exact ⟨op, rfl⟩
  | _ => cases h

/-- The younger operation stays at the gate or queues up behind the older one. -/
theorem Behind.passes {e : Event} {a : Nat} {b : Operation} {sub : Submission}
    (run : Run Party.ThroughSocket t ⟨c, l₁ ++ .submission b sub :: l₂⟩)
    (h : Party.Step c (.submission b sub) x c' p') (gate : sub.phase.atGate = true)
    (moves : Moves (tickets b.direction (Party.submission b sub).brings)
      (System.inLine ⟨c, l₁ ++ .submission b sub :: l₂⟩ b.direction)
      (tickets b.direction (handedOver x).toList) (tickets b.direction p'.brings)
      (System.inLine ⟨c', l₁ ++ p' :: l₂⟩ b.direction))
    (ha : a ∈ System.inLine ⟨c, l₁ ++ .submission b sub :: l₂⟩ b.direction)
    (ha' : a ∈ System.inLine ⟨c', l₁ ++ p' :: l₂⟩ b.direction) :
    Behind a b (e :: t) ⟨c', l₁ ++ p' :: l₂⟩ := by
  have intact := run.orderly.intact (.submission b sub) (by simp)
  obtain ⟨op, ho⟩ := Submission.Phase.op?_of_atGate gate
  have key : op.key = b.key := intact.2 op ho
  cases h with
  | @submission _ _ s' _ _ hs =>
      rcases hs.atGate gate ho with ⟨hx, hg | hn⟩ | idle
      · exact .waiting ha' s' (by simp) hg
      · have brings : tickets b.direction (Party.submission b sub).brings = [b.ticket] := by
          rw [Party.brings, ho]
          show tickets b.direction [op] = [b.ticket]
          rw [tickets_of_key _ key]
          simp [tickets, Operation.ticketIn]
        have brings' : tickets b.direction (Party.submission b s').brings = [] := by
          rw [Party.brings, hn]
          rfl
        rw [hx, brings, brings'] at moves
        have joins := moves.joins (by simp)
        apply Behind.behind
        rw [joins]
        exact (List.singleton_sublist.mpr ha).append (List.Sublist.refl [b.ticket])
      · rw [Operation.direction_eq_of_key key] at idle
        rw [run.inLine_of_idle idle] at ha
        cases ha

/-- A step keeps the older operation in front. -/
theorem Behind.step {e : Event} (run : Run Party.ThroughSocket t ⟨c, l₁ ++ p :: l₂⟩)
    (run' : Run Party.ThroughSocket (e :: t) ⟨c', l₁ ++ p' :: l₂⟩) (h : p.Step c x c' p')
    (he : e = .acted ⟨c, l₁ ++ p :: l₂⟩ p x p') {a : Nat} {b : Operation}
    (hb : Behind a b t ⟨c, l₁ ++ p :: l₂⟩) :
    Behind a b (e :: t) ⟨c', l₁ ++ p' :: l₂⟩ := by
  have moves := run.line_moves run' h b.direction
  have now : ∀ n ∈ tickets b.direction (handedOver x).toList,
      n ∈ tickets b.direction (scheduled (e :: t)) := by
    intro n hn
    rw [he, scheduled_acted, tickets_append]
    exact List.mem_append_left _ hn
  cases hb with
  | served h =>
      apply Behind.served
      rw [he, scheduled_acted, tickets_append]
      exact List.mem_append_right _ h
  | behind h =>
      rcases moves.sublist (length_tickets_toList _ _) h with h | h
      · exact .served (now a h)
      · exact .behind h
  | waiting ha sub hb gate =>
      rcases moves.mem ha with ha' | ha'
      · exact .served (now a ha')
      · by_cases own : p = .submission b sub
        · subst own
          exact .passes run h gate moves ha ha'
        · have hm : .submission b sub ∈ l₁ ++ p' :: l₂ := by
            have others := (mem_middle.mp hb).resolve_left (Ne.symm own)
            exact mem_middle.mpr (.inr others)
          exact .waiting ha' sub hm gate

/-! ### The order of completions -/

/-- An operation whose submission has returned is served before one whose submission begins. -/
theorem Behind.of_joined {use : Party → Prop} (run : Run use t s) {a b : Operation}
    {sub sub' : Submission} (ha : .submission a sub ∈ s.parties)
    (returned : (Party.submission a sub).HasReturned) (same : a.direction = b.direction)
    (begins : (Party.submission b sub').Begins s.channel.attached) (e : Event)
    (he : scheduled (e :: t) = scheduled t) :
    Behind a.ticket b (e :: t) ⟨s.channel, s.parties ++ [.submission b sub']⟩ := by
  have accounts := run.accounted b.direction a.ticket
  have submitted : 0 < (tickets b.direction s.submitted).count a.ticket := by
    refine List.count_pos_iff.mpr (List.mem_filterMap.mpr ⟨a, ?_, ?_⟩)
    · exact List.mem_filterMap.mpr ⟨_, ha, rfl⟩
    · simp [Operation.ticketIn, same]
  have brought : (s.brought b.direction).count a.ticket = 0 := by
    refine List.count_eq_zero.mpr fun hm => ?_
    obtain ⟨op, ho, ht⟩ := List.mem_filterMap.mp hm
    obtain ⟨p, hp, ho⟩ := List.mem_flatMap.mp ho
    have hop := Operation.ticket_of_ticketIn ht
    obtain ⟨hs, hr⟩ := run.submits_of_brings hp ho
    rw [hop] at hs
    exact hr (run.sole ha hp ⟨a, sub, rfl, rfl⟩ hs ▸ returned)
  by_cases hl : 0 < (s.inLine b.direction).count a.ticket
  · have gate : sub'.phase.atGate = true := by cases begins <;> rfl
    refine .waiting ?_ sub' (by simp) gate
    rw [System.inLine_joined begins]
    exact List.count_pos_iff.mp hl
  · apply Behind.served
    rw [he]
    exact List.count_pos_iff.mp (by omega)

/-- On a socket, an older operation is in front of a younger one as soon as that one begins. -/
theorem Run.behind (run : Run Party.ThroughSocket t s) {s₁ : System} {a b : Operation}
    {sub sub' : Submission} (joined : .joined s₁ (.submission b sub') ∈ t)
    (ha : .submission a sub ∈ s₁.parties) (returned : (Party.submission a sub).HasReturned)
    (same : a.direction = b.direction) : Behind a.ticket b t s := by
  induction run with
  | start h => cases joined
  | @join t s run p begins allowed unused ih =>
      rcases List.mem_cons.mp joined with hj | hj
      · cases hj
        exact .of_joined run ha returned same begins _ rfl
      · have hl := System.inLine_joined begins b.direction
        cases ih hj with
        | served h => exact .served h
        | waiting hw sub hb gate =>
            exact .waiting (by rw [hl]; exact hw) sub (List.mem_append_left _ hb) gate
        | behind h => exact .behind (by rw [hl]; exact h)
  | @act t c l₁ l₂ p run x turn yields ih =>
      rcases List.mem_cons.mp joined with hj | hj
      · cases hj
      · exact (ih hj).step run (.act run yields) (Party.step_of_yields yields) rfl

/-- When a submission began, nobody had submitted its operation before. -/
theorem Run.before_joined {use : Party → Prop} {newer older : List Event} {s₁ : System}
    {b : Operation} {sub : Submission}
    (run : Run use (newer ++ .joined s₁ (.submission b sub) :: older) s) :
    Run use older s₁ ∧ s₁.Unused b.ticket := by
  obtain ⟨s', run⟩ := run.earlier
  cases run with
  | join run _ _ unused => exact ⟨run, unused b rfl⟩

/-- An operation that nobody submitted has not been scheduled. -/
theorem Run.countP_of_unused {use : Party → Prop} (run : Run use t s) {n : Nat}
    (h : s.Unused n) : t.countP (·.schedules n) = 0 := by
  have le := run.countP_schedules_le n
  have none : (s.submitted.map (·.ticket)).count n = 0 := by
    refine List.count_eq_zero.mpr fun hm => ?_
    obtain ⟨op, ho, ht⟩ := List.mem_map.mp hm
    obtain ⟨p, hp, hop⟩ := List.mem_filterMap.mp ho
    cases p with
    | submission op' sub =>
        cases hop
        exact h _ hp ⟨_, _, rfl, ht⟩
    | _ => cases hop
  omega

/-- An operation that is brought, or in line, has not been scheduled. -/
theorem Run.not_scheduled {use : Party → Prop} (run : Run use t s) {d : Direction} {n : Nat}
    (h : 0 < (s.brought d).count n + (s.inLine d).count n) : t.countP (·.schedules n) = 0 := by
  have one : (s.submitted.map (·.ticket)).count n ≤ 1 :=
    List.nodup_iff_count.mp run.submitted_nodup n
  have hr := run.accounted .receive n
  have hs := run.accounted .send n
  have hc := run.accounted .connection n
  have submitted := count_tickets s.submitted n
  have scheduled := count_tickets (scheduled t) n
  rw [countP_schedules]
  cases d <;> omega

/-- When an operation was scheduled, its submission had begun. -/
theorem Run.joined_before {use : Party → Prop} {newer older : List Event} {s₁ : System}
    {b : Operation} {sub : Submission} (run : Run use (newer ++ older) s)
    (joined : .joined s₁ (.submission b sub) ∈ newer ++ older)
    (served : 0 < older.countP (·.schedules b.ticket)) :
    .joined s₁ (.submission b sub) ∈ older := by
  rcases List.mem_append.mp joined with hj | hj
  · obtain ⟨l₁, l₂, rfl⟩ := List.append_of_mem hj
    rw [List.append_assoc, List.cons_append] at run
    obtain ⟨run₁, unused⟩ := run.before_joined
    have := run₁.countP_of_unused unused
    rw [List.countP_append] at this
    omega
  · exact hj

/-- Once the younger operation has been scheduled, the older one has been, too. -/
theorem Behind.first {use : Party → Prop} {n : Nat} {b : Operation} (run : Run use t s)
    (h : Behind n b t s) (served : 0 < t.countP (·.schedules b.ticket)) :
    n ∈ tickets b.direction (scheduled t) := by
  have gone : 0 < (s.brought b.direction).count b.ticket +
      (s.inLine b.direction).count b.ticket → False := by
    intro h
    have := run.not_scheduled h
    omega
  cases h with
  | served h => exact h
  | waiting ha sub hb gate =>
      obtain ⟨op, ho⟩ := Submission.Phase.op?_of_atGate gate
      have brought := List.count_pos_iff.mpr (run.brought_of_op? hb ho (Operation.ticketIn_self rfl))
      exact (gone (by omega)).elim
  | behind h =>
      have inLine := List.count_pos_iff.mpr (h.subset (by simp : b.ticket ∈ [n, b.ticket]))
      exact (gone (by omega)).elim

/-- Whoever submits after another's submission has returned, in the same direction, is handed to the
scheduler after it. -/
theorem Run.first_come_first_served (run : Run Party.ThroughSocket t s) {s₁ : System}
    {a b : Operation} {sub sub' : Submission} (joined : .joined s₁ (.submission b sub') ∈ t)
    (submitted : .submission a sub ∈ s₁.parties)
    (returned : (Party.submission a sub).HasReturned) (same : a.direction = b.direction)
    {newer older : List Event} {e : Event} (ht : t = newer ++ e :: older)
    (he : e.schedules b.ticket = true) : ∃ e' ∈ older, e'.schedules a.ticket = true := by
  subst ht
  obtain ⟨s', run'⟩ := run.earlier
  have served : 0 < (e :: older).countP (·.schedules b.ticket) := by
    rw [List.countP_cons, if_pos he]
    omega
  have after := run.joined_before joined served
  have distinct : a.ticket ≠ b.ticket := by
    obtain ⟨l₁, l₂, hl⟩ := List.append_of_mem after
    rw [hl] at run'
    exact fun h => run'.before_joined.2 _ submitted ⟨a, sub, rfl, h⟩
  have first := (run'.behind after submitted returned same).first run' served
  obtain ⟨op, ho, hop⟩ := List.mem_filterMap.mp first
  have hop := Operation.ticket_of_ticketIn hop
  obtain ⟨e', he', hs⟩ := List.mem_filterMap.mp ho
  rcases List.mem_cons.mp he' with rfl | he'
  · simp only [Event.schedules, hs, Option.any_some, beq_iff_eq] at he
    exact absurd (hop.symm.trans he) distinct
  · exact ⟨e', he', by simp [Event.schedules, hs, hop]⟩

/-- Two accepts that were not ready, and a close that completes both. -/
def twoAcceptsThenClose : List Choice :=
  [.join (.submission true (.accept 7 default)), .act 0 notReady, .act 0 notReady, .act 0 notReady,
    .act 0 notReady, .act 0 notReady, .join (.submission true (.accept 8 default)),
    .act 1 notReady, .act 1 notReady, .join (.closing true), .act 2 notReady, .act 2 notReady,
    .act 2 notReady, .act 2 notReady]

theorem first_come_first_served_accepts : ∃ t s, Run Party.ThroughSocket t s ∧
    t.countP (·.schedules 8) = 1 ∧ ∃ e ∈ t.tail, e.schedules 7 = true := by
  have runs : (replay Party.ThroughSocket (ofSocket 10) twoAcceptsThenClose).isSome = true := by rfl
  have run := run_of_isSome (.socket 10) runs
  generalize hr : (replay Party.ThroughSocket (ofSocket 10) twoAcceptsThenClose).get runs = r at run
  refine ⟨r.1, r.2, run, by rw [← hr]; rfl, ?_⟩
  obtain ⟨e, older, ht, he⟩ : ∃ e older, r.1 = [] ++ e :: older ∧ e.schedules 8 = true := by
    rw [← hr]
    exact ⟨_, _, rfl, rfl⟩
  obtain ⟨s₁, hj, hm⟩ : ∃ s₁, .joined s₁ (.submission (.accept 8 default) (.throughSocket
      (.accept 8 default))) ∈ r.1 ∧ .submission (.accept 7 default) ⟨true, .answered .pending⟩ ∈
        s₁.parties := by
    rw [← hr]
    refine ⟨_, List.mem_of_getElem? (i := 7) rfl, ?_⟩
    exact .head _
  rw [ht]
  exact run.first_come_first_served hj hm ⟨_, rfl⟩ rfl ht he

end Proactor.Channel
