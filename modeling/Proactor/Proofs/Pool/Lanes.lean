import Proactor.Proofs.Pool.Jobs
/-! # Jobs of one lane

The jobs of one lane go through one queue, and they are taken from it in the order in which they
were put there.  Whether one is finished when the next begins depends on who takes them.

* **Queues** (`Run.fifo`).  Of what was put into a queue, the newest wait and the others were taken.
* **Workers** (`Run.newest`).  Only its worker takes jobs from a queue until the pool is stopped.
  So a job that a worker holds is the newest that was taken from its queue.
* **Calls** (`Run.overtakes`).  Once the pool is stopped, whoever schedules a job empties the queue.
  While one call is at a job, another does not wait for it. -/

namespace Proactor.Pool

variable {J : Type} {p p' : Pool J} {q q' : Party J} {l₁ l₂ : List (Party J)} {n i : Nat}
  {a b job : J} {t : List (Event J)} {s : System J}

/-! ### What a step does to the queues -/

/-- What a step from `p` to `p'` of the party `q`, which is `q'` afterwards, does to the queues. -/
inductive Party.Moves (s : System J) (p : Pool J) (q : Party J) (p' : Pool J) (q' : Party J) : Prop
  | rests (queues : ∀ i, p'.queue i = p.queue i)
      (put : ∀ lanes, (Event.acted s q q').put? lanes = none)
      (taken : ∀ queues, (Event.acted s q q').taken? queues = none)
      (held : ∀ job, q'.role.job? = some job → q.role.job? = some job)
  | puts (lane : Lane) (job : J)
      (queues : ∀ i, p'.queue i = if lane.bucket p.size = i then p.queue i ++ [job] else p.queue i)
      (put : ∀ lanes, (Event.acted s q q').put? lanes = if lanes lane then some job else none)
      (taken : ∀ queues, (Event.acted s q q').taken? queues = none)
      (held : q'.role.job? = none)
  | takes (k : Nat) (job : J) (rest : List J) (source : q.role.source? = some k)
      (oldest : p.queue k = job :: rest)
      (queues : ∀ i, p'.queue i = if k = i then rest else p.queue i)
      (put : ∀ lanes, (Event.acted s q q').put? lanes = none)
      (taken : ∀ queues, (Event.acted s q q').taken? queues = if queues k then some job else none)
      (held : q'.role.job? = some job)

theorem Party.Step.moves (h : Step p q p' q') (hn : 0 < p.size) (s : System J) :
    Moves s p q p' q' := by
  cases h with
  | @pushed _ lane job k hk =>
      subst hk
      refine .puts lane job (fun i => ?_) (fun _ => rfl) (fun _ => rfl) rfl
      rw [queue_push (lane.bucket_lt hn)]
      split
      · next hi => rw [hi]
      · rfl
  | @workerTook k job rest h | @callTook _ k job rest h | @lastTook _ k job rest h =>
      have hk : k < p.size := lt_size_of_queue (h ▸ List.cons_ne_nil job rest)
      exact .takes k job rest rfl h (fun i => queue_withQueue hk rest i) (fun _ => rfl)
        (fun _ => rfl) rfl
  | workerIdle _ | callLeft _ | lastPassed _ | lastLeft _ =>
      refine .rests (fun _ => rfl) (fun _ => rfl) (fun _ => ite_self none) fun _ held => ?_
      cases held
  | begun hr =>
      refine .rests (fun _ => rfl) (fun _ => ?_) (fun _ => ?_) fun _ h => h
      · rcases Role.run_of_job? hr with ⟨_, rfl⟩ | ⟨_, _, rfl⟩ | ⟨_, _, rfl⟩ <;> rfl
      · simp [Event.taken?, Role.source?_of_job? hr]
  | _ =>
      refine .rests (fun _ => rfl) (fun _ => rfl) (fun _ => rfl) fun _ held => ?_
      cases held

/-- A queue grows at one end and shrinks at the other. -/
theorem Party.Moves.fifo (h : Moves s p q p' q') (i : Nat) :
    ((Event.acted s q q').put? (·.bucket p.size == i)).toList ++ (p.queue i).reverse =
      (p'.queue i).reverse ++ ((Event.acted s q q').taken? (· == i)).toList := by
  cases h with
  | rests queues put taken _ => simp [queues, put, taken]
  | puts lane job queues put taken _ =>
      rw [queues, put, taken]
      by_cases hi : lane.bucket p.size = i <;> simp [hi]
  | takes k job rest _ oldest queues put taken _ =>
      rw [queues, put, taken]
      by_cases hi : k = i
      · subst hi
        simp [oldest]
      · simp [hi]

/-- Of what was put into a queue the newest wait, and the others were taken in this order. -/
theorem Run.fifo (run : Run n t s) (i : Nat) :
    t.filterMap (Event.put? (·.bucket (clampWorkers n) == i)) =
      (s.pool.queue i).reverse ++ t.filterMap (Event.taken? (· == i)) := by
  induction run with
  | start => simp [System.initial, queue_new]
  | join run fresh ih => exact ih
  | @act t p p' l₁ l₂ q q' run acts ih =>
      have size := run.staffed.size
      have step := ((Party.step_of_acts acts).moves (size ▸ clampWorkers_pos n)
        ⟨p, l₁ ++ q :: l₂⟩).fifo i
      rw [size] at step
      rw [filterMap_cons_toList, filterMap_cons_toList, ih, ← List.append_assoc, step,
        List.append_assoc]

/-! ### Who takes from a queue -/

theorem Role.exists_worker? {r : Role J} (hc : r.isCall = false) : ∃ k, r.worker? = some k := by
  cases r with
  | worker k _ => exact ⟨k, rfl⟩
  | scheduling _ _ | shutdown _ _ => cases hc

theorem Role.source?_of_worker? {r : Role J} {k : Nat} (hw : r.worker? = some k)
    (hs : r.source? = some i) : i = k := by
  rcases r with ⟨_, _ | _⟩ | ⟨_, _ | _⟩ | ⟨_, _ | _⟩ <;> cases hw <;> cases hs
  rfl

namespace Staffed

/-- A call that takes jobs, or holds one, finds the pool stopped. -/
theorem stopped_of_call (h : Staffed n s) {o : Party J} (ho : o ∈ s.parties)
    (hc : o.role.isCall = true) (hj : o.role.source?.isSome ∨ o.role.job?.isSome) :
    s.pool.stopped = true := by
  have proper := h.proper o ho
  obtain ⟨r, inside⟩ := o
  cases r with
  | worker _ _ => cases hc
  | scheduling b c =>
      cases c with
      | drain _ | run _ _ => exact proper
      | _ => rcases hj with hj | hj <;> cases hj
  | shutdown first k =>
      cases k with
      | drain _ | run _ _ => exact proper.2
      | _ => rcases hj with hj | hj <;> cases hj

/-- While a worker holds a job, nobody else takes one from its queue. -/
theorem alone (h : Staffed n ⟨p, l₁ ++ q :: l₂⟩) (source : q.role.source? = some i) {o : Party J}
    (ho : o ∈ l₁ ++ l₂) (hw : o.role.worker? = some i) (hj : o.role.job? = some job) : False := by
  have hq : q ∈ l₁ ++ q :: l₂ := mem_middle.mpr (.inl rfl)
  cases hc : q.role.isCall with
  | true =>
      have idle := h.not_atWork (h.stopped_of_call hq hc (.inl (by simp [source])))
        (mem_middle.mpr (.inr ho))
      rcases Role.run_of_job? hj with ⟨_, hr⟩ | ⟨_, _, hr⟩ | ⟨_, _, hr⟩
      · simp [hr, Role.atWork] at idle
      · simp [hr, Role.worker?] at hw
      · simp [hr, Role.worker?] at hw
  | false =>
      obtain ⟨k, hk⟩ := Role.exists_worker? hc
      obtain rfl := Role.source?_of_worker? hk source
      have twice := h.workers
      simp only [List.filterMap_append, List.filterMap_cons, hk] at twice
      have once := List.nodup_middle.mp (twice ▸ List.nodup_range)
      rw [← List.filterMap_append] at once
      exact (List.nodup_cons.mp once).1 (List.mem_filterMap.mpr ⟨o, ho, hw⟩)

end Staffed

/-- A job that waits is in no hand and was never taken. -/
theorem Run.not_taken_of_waits (run : Run n t s) (hj : job ∈ s.pool.queue i) :
    (∀ o ∈ s.parties, o.role.job? ≠ some job) ∧
      job ∉ t.filterMap (Event.taken? fun _ => true) := by
  have waits : job ∈ s.pool.queues.flatten := by
    have hi : i < s.pool.queues.length := lt_size_of_queue (List.ne_nil_of_mem hj)
    rw [queue_eq_getElem hi] at hj
    exact List.mem_flatten_of_mem (List.getElem_mem hi) hj
  have nodup := run.placed_nodup
  rw [List.append_assoc, List.nodup_append] at nodup
  obtain ⟨-, rest, apart⟩ := nodup
  have free : ∀ o ∈ s.parties, o.role.job? ≠ some job := fun o ho held =>
    apart job (List.mem_flatMap.mpr ⟨o, ho, o.job?_sublist.subset (by simp [held])⟩) job
      (List.mem_append_left _ waits) rfl
  refine ⟨free, fun taken => ?_⟩
  rcases List.mem_append.mp (run.taken_perm.mem_iff.mp taken) with held | finished
  · obtain ⟨o, ho, held⟩ := List.mem_flatMap.mp held
    exact free o ho (by simpa using held)
  · exact (List.nodup_append.mp rest).2.2 job waits job finished rfl

theorem Event.taken?_any {e : Event J} {queues : Nat → Bool} (h : e.taken? queues = some job) :
    (e.taken? fun _ => true) = some job := by
  cases e with
  | joined _ _ => cases h
  | acted _ q _ =>
      simp only [taken?] at h ⊢
      cases hq : q.role.source? with
      | none => simp [hq] at h
      | some k =>
          rw [hq] at h
          split at h
          · exact h
          · cases h

theorem taken?_sublist (queues : Nat → Bool) (t : List (Event J)) :
    (t.filterMap (Event.taken? queues)).Sublist (t.filterMap (Event.taken? fun _ => true)) := by
  simp only [List.filterMap_eq_flatMap_toList]
  refine List.Sublist.flatMap_right _ fun e _ => ?_
  cases h : e.taken? queues with
  | none => exact List.nil_sublist _
  | some job => rw [Event.taken?_any h]

/-- What a worker holds was taken from its own queue, as the last so far. -/
theorem Run.newest (run : Run n t s) {o : Party J} (ho : o ∈ s.parties) {k : Nat}
    (hw : o.role.worker? = some k) (hj : o.role.job? = some job)
    (taken : job ∈ t.filterMap (Event.taken? (· == i))) :
    i = k ∧ ∃ earlier, t.filterMap (Event.taken? (· == i)) = job :: earlier := by
  induction run generalizing o with
  | start => cases taken
  | @join t s run newcomer fresh ih =>
      rcases List.mem_append.mp ho with ho | ho
      · exact ih ho hw hj taken
      · rw [List.mem_singleton.mp ho] at hw
        cases newcomer <;> cases hw
  | @act t p p' l₁ l₂ q q' run acts ih =>
      have step := Party.step_of_acts acts
      have hq : q ∈ l₁ ++ q :: l₂ := mem_middle.mpr (.inl rfl)
      rw [filterMap_cons_toList] at taken ⊢
      cases step.moves (run.staffed.size ▸ clampWorkers_pos n) ⟨p, l₁ ++ q :: l₂⟩ with
      | rests _ _ none held =>
          rw [none] at taken ⊢
          rcases mem_middle.mp ho with rfl | ho
          · exact ih hq (step.worker? ▸ hw) (held job hj) taken
          · exact ih (mem_middle.mpr (.inr ho)) hw hj taken
      | puts _ _ _ _ none held =>
          rw [none] at taken ⊢
          rcases mem_middle.mp ho with rfl | ho
          · cases held.symm.trans hj
          · exact ih (mem_middle.mpr (.inr ho)) hw hj taken
      | takes k' job' rest source oldest _ _ took held =>
          have waits : job' ∈ p.queue k' := oldest ▸ .head _
          obtain ⟨free, fresh⟩ := run.not_taken_of_waits waits
          rw [took] at taken ⊢
          rcases mem_middle.mp ho with rfl | ho
          · -- It was taken just now, and never before.
            obtain rfl : job' = job := Option.some.inj (held.symm.trans hj)
            obtain rfl := Role.source?_of_worker? (step.worker? ▸ hw) source
            by_cases hi : k' = i
            · exact ⟨hi.symm, t.filterMap (Event.taken? (· == i)), by simp [hi]⟩
            · rw [if_neg (by simpa using hi)] at taken
              exact (fresh ((taken?_sublist _ _).subset taken)).elim
          · have ho' : o ∈ l₁ ++ q :: l₂ := mem_middle.mpr (.inr ho)
            have other : job ≠ job' := fun same => free o ho' (same ▸ hj)
            have before : job ∈ t.filterMap (Event.taken? (· == i)) := by
              refine (List.mem_append.mp taken).resolve_left fun now => other ?_
              split at now
              · exact List.mem_singleton.mp now
              · cases now
            obtain ⟨rfl, earlier, last⟩ := ih ho' hw hj before
            have apart : k' ≠ i := by
              rintro rfl
              exact run.staffed.alone source ho hw hj
            exact ⟨rfl, earlier, by simp [apart, last]⟩

/-! ### The order of a lane -/

theorem put?_lane (lane : Lane) (k : Nat) (t : List (Event J)) :
    (t.filterMap (Event.put? (· == lane))).Sublist
      (t.filterMap (Event.put? (·.bucket k == lane.bucket k))) := by
  simp only [List.filterMap_eq_flatMap_toList]
  refine List.Sublist.flatMap_right _ fun e _ => ?_
  unfold Event.put?
  split
  · split
    · next same =>
      rw [eq_of_beq same]
      simp
    · exact List.nil_sublist _
  · exact .refl _

theorem Run.holder_of_begun {newer older : List (Event J)} {e : Event J}
    (run : Run n (newer ++ e :: older) s) (begins : e.begun? = some job) :
    ∃ o ∈ e.system.parties, o.role.job? = some job := by
  obtain ⟨s', run⟩ := run.earlier
  cases run with
  | join _ _ => cases begins
  | @act _ _ _ _ _ q q' run acts =>
      simp only [Event.begun?] at begins
      split at begins
      · exact ⟨q, mem_middle.mpr (.inl rfl), begins⟩
      · cases begins

theorem sublist_of_not_mem {l l' : List J} (h : List.Sublist [b, a] (l ++ l')) (hb : b ∉ l) :
    List.Sublist [b, a] l' := by
  induction l with
  | nil => exact h
  | cons c rest ih =>
      obtain ⟨apart, hb⟩ := not_or.mp (mt List.mem_cons.mpr hb)
      cases h with
      | cons _ h => exact ih h hb
      | cons_cons => exact (apart rfl).elim

/-- When a job begins, one that was put on the same lane before it is finished, or it is still in
the hands of a call, in a stopped pool. -/
theorem Run.finished_or_with_call {newer older : List (Event J)} {e : Event J} {lane : Lane}
    (run : Run n (newer ++ e :: older) s)
    (order : List.Sublist [b, a] (older.filterMap (Event.put? (· == lane))))
    (begins : e.begun? = some b) :
    a ∈ older.filterMap Event.finished? ∨ (e.system.pool.stopped = true ∧
      ∃ o ∈ e.system.parties, o.role.isCall = true ∧ o.role.job? = some a) := by
  obtain ⟨q, hq, holds⟩ := run.holder_of_begun begins
  have run := run.before
  have order := order.trans (put?_lane lane (clampWorkers n) older)
  rw [run.fifo] at order
  -- The later job does not wait any more, so neither does the earlier one.
  have order := sublist_of_not_mem order fun waits =>
    (run.not_taken_of_waits (List.mem_reverse.mp waits)).1 q hq holds
  have taken := order.subset (.tail _ (.head _))
  rcases List.mem_append.mp (run.taken_perm.mem_iff.mp ((taken?_sublist _ _).subset taken)) with
    held | finished
  · obtain ⟨o, ho, held⟩ := List.mem_flatMap.mp held
    have held : o.role.job? = some a := by simpa using held
    cases hc : o.role.isCall with
    | true =>
        exact .inr ⟨run.staffed.stopped_of_call ho hc (.inr (by simp [held])), o, ho, hc, held⟩
    | false =>
        -- A worker's job is the last that was taken, and the later job was taken after it.
        obtain ⟨k, hk⟩ := Role.exists_worker? hc
        obtain ⟨-, earlier, last⟩ := run.newest ho hk held taken
        have nodup := run.taken_nodup.sublist 
          (taken?_sublist (· == lane.bucket (clampWorkers n)) older)
        rw [last] at order nodup
        refine ((List.nodup_cons.mp nodup).1 ?_).elim
        cases order with
        | cons _ h => exact h.subset (.tail _ (.head _))
        | cons_cons _ h => exact h.subset (.head _)
  · exact .inl finished

/-! ### Overtaking -/

section acts
variable {x : J} {rest : List J} {lane : Lane}

theorem Party.Acts.push (h : lane.bucket p.size = i) :
    Acts p ⟨.scheduling x (.push lane job), false⟩ (p.push i job)
      ⟨.scheduling x (.look i), false⟩ := by
  have next : (Role.scheduling x (.push lane job)).next p =
      .step ⟨p.push i job, .scheduling x (.look i), []⟩ := by
    subst h
    rfl
  exact .step next

theorem Party.Acts.lookStopped (h : p.stopped = true) :
    Acts p ⟨.scheduling x (.look i), false⟩ p ⟨.scheduling x (.drain i), false⟩ := by
  have next : (Role.scheduling x (.look i)).next p =
      .step ⟨p, .scheduling x (.drain i), []⟩ := by
    simp [Role.next, Scheduling.next, h, Next.map, Turn.map]
  exact .step next

theorem Party.Acts.take (h : p.queue i = job :: rest) :
    Acts p ⟨.scheduling x (.drain i), false⟩ (p.withQueue i rest)
      ⟨.scheduling x (.run i job), false⟩ := by
  have next : (Role.scheduling x (.drain i)).next p =
      .step ⟨p.withQueue i rest, .scheduling x (.run i job), []⟩ := by
    simp [Role.next, Scheduling.next, pop_of_cons h, Next.map, Turn.map]
  exact .step next

theorem Party.Acts.leave : Acts p ⟨.scheduling x (.run i job), true⟩ p
    ⟨.scheduling x (.drain i), false⟩ := by
  have next : (Role.scheduling x (.run i job)).next p =
      .ask (.run job) fun outcome p => ⟨p, .scheduling x (.drain i), outcome.lines⟩ := rfl
  exact .finish next .finished

/-- A call that empties a queue comes to every job of it, and finishes only those before. -/
theorem Run.drains {first : List J}
    (run : Run n t ⟨p, l₁ ++ ⟨.scheduling x (.drain i), false⟩ :: l₂⟩)
    (hq : p.queue i = first ++ b :: rest) :
    ∃ newer e s', Run n (e :: (newer ++ t)) s' ∧ e.begun? = some b ∧
      ∀ job ∈ newer.filterMap Event.finished?, job ∈ first := by
  induction first generalizing p t with
  | nil =>
      have took := run.act (.take hq)
      exact ⟨[_], _, _, took.act (.begin rfl), rfl, by simp [Event.finished?]⟩
  | cons job first ih =>
      have hi : i < p.size := lt_size_of_queue (hq ▸ List.cons_ne_nil _ _)
      have took := run.act (.take hq)
      have finished := (took.act (.begin rfl)).act .leave
      have hq' : (p.withQueue i (first ++ b :: rest)).queue i = first ++ b :: rest := by
        rw [queue_withQueue hi, if_pos rfl]
      obtain ⟨newer, e, s', run', begins, before⟩ := ih finished hq'
      refine ⟨newer ++ [_, _, _], e, s', by simpa using run', begins, fun other ho => ?_⟩
      rw [List.filterMap_append] at ho
      rcases List.mem_append.mp ho with ho | ho
      · exact .tail _ (before other ho)
      · simp [Event.finished?, Role.job?] at ho
        simp [ho]

/-- In a stopped pool another job can be put on a lane, and its call goes on to empty the queue. -/
theorem Run.comesLate (run : Run n t s) (stopped : s.pool.stopped = true) (fresh : x ∉ s.brought)
    (hi : lane.bucket s.pool.size = i) :
    ∃ newer, Run n (newer ++ t)
        ⟨s.pool.push i x, s.parties ++ [⟨.scheduling x (.drain i), false⟩]⟩ ∧
      newer.filterMap (Event.put? (· == lane)) = [x] ∧ newer.filterMap Event.finished? = [] := by
  have joined : Run n (.joined s (.scheduling lane x) :: t)
      ⟨s.pool, s.parties ++ [⟨.scheduling x (.push lane x), false⟩]⟩ :=
    run.join fun job hj => Option.some.inj hj ▸ fresh
  have looked := (joined.act (.push hi)).act (.lookStopped stopped)
  exact ⟨[_, _, _], looked, by simp [Event.put?, List.filterMap_cons],
    by simp [Event.finished?, List.filterMap_cons]⟩

end acts

/-- While a call is at a job of a lane, another job can be put on the lane and begin. -/
theorem Run.overtakes (run : Run n t s) {o : Party J} (ho : o ∈ s.parties)
    (hc : o.role.isCall = true) (held : o.role.job? = some a) {lane : Lane}
    (put : a ∈ t.filterMap (Event.put? (· == lane))) (fresh : b ∉ s.brought) :
    ∃ newer e s', Run n (e :: (newer ++ t)) s' ∧
      List.Sublist [b, a] ((newer ++ t).filterMap (Event.put? (· == lane))) ∧
      e.begun? = some b ∧ a ∉ (newer ++ t).filterMap Event.finished? := by
  have stopped := run.staffed.stopped_of_call ho hc (.inr (by simp [held]))
  obtain ⟨i, hi⟩ : ∃ i, lane.bucket s.pool.size = i := ⟨_, rfl⟩
  have lt : i < s.pool.size := hi ▸ lane.bucket_lt (run.staffed.size ▸ clampWorkers_pos n)
  obtain ⟨late, run', puts, idle⟩ := run.comesLate stopped fresh hi
  have waits : (s.pool.push i b).queue i = s.pool.queue i ++ b :: [] := by
    rw [queue_push lt, if_pos rfl]
  obtain ⟨newer, e, s', run', begins, before⟩ := run'.drains waits
  refine ⟨newer ++ late, e, s', by simpa using run', ?_, begins, ?_⟩
  · have order : List.Sublist [b, a] (b :: t.filterMap (Event.put? (· == lane))) :=
      .cons_cons b (List.singleton_sublist.mpr put)
    simpa [puts] using order.trans (List.sublist_append_right _ _)
  · have unfinished : a ∉ t.filterMap Event.finished? := fun finished =>
      (List.nodup_append.mp (run.held_nodup Party.job?_sublist)).2.2 a
        (List.mem_flatMap.mpr ⟨o, ho, by simp [held]⟩) a finished rfl
    have notBefore : a ∉ newer.filterMap Event.finished? := fun finished =>
      (run.not_taken_of_waits (before a finished)).1 o ho held
    rw [List.filterMap_append, List.filterMap_append, idle]
    simp only [List.append_nil, List.mem_append, not_or]
    exact ⟨notBefore, unfinished⟩

/-- Of two jobs that were put on one lane the later one begins when the earlier one is finished,
unless a call holds the earlier one, in a stopped pool.  And whenever a call holds a job, another
one can be put on its lane and begin before that is finished. -/
theorem Run.sequential_but_for_calls (run : Run n t s) :
    (∀ {newer older : List (Event J)} {e : Event J} {lane : Lane} {a b : J},
        t = newer ++ e :: older →
        List.Sublist [b, a] (older.filterMap (Event.put? (· == lane))) → e.begun? = some b →
        a ∈ older.filterMap Event.finished? ∨ (e.system.pool.stopped = true ∧
          ∃ o ∈ e.system.parties, o.role.isCall = true ∧ o.role.job? = some a)) ∧
      ∀ {o : Party J} {lane : Lane} {a b : J}, o ∈ s.parties → o.role.isCall = true →
        o.role.job? = some a → a ∈ t.filterMap (Event.put? (· == lane)) → b ∉ s.brought →
        ∃ newer e s', Run n (e :: (newer ++ t)) s' ∧
          List.Sublist [b, a] ((newer ++ t).filterMap (Event.put? (· == lane))) ∧
          e.begun? = some b ∧ a ∉ (newer ++ t).filterMap Event.finished? :=
  ⟨fun ht order begins => (ht ▸ run).finished_or_with_call order begins,
    fun ho hc held put fresh => run.overtakes ho hc held put fresh⟩

/-- Two jobs of one lane and a worker. -/
def twoJobs : List (Choice Nat) :=
  [.join (.scheduling ⟨7⟩ 1), .act 1 .finished, .act 1 .finished, .join (.scheduling ⟨7⟩ 2),
    .act 2 .finished, .act 2 .finished, .act 0 .finished, .act 0 .finished, .act 0 .finished,
    .act 0 .finished, .act 0 .finished]

/-- A pool is shut down, and then a job is scheduled and begins. -/
def jobAfterShutdown : List (Choice Nat) :=
  [.join .shutdown, .act 1 .finished, .act 0 .finished, .act 0 .finished, .act 0 .finished,
    .act 1 .finished, .act 1 .finished, .act 1 .finished, .join (.scheduling ⟨7⟩ 1),
    .act 2 .finished, .act 2 .finished, .act 2 .finished, .act 2 .finished]

theorem sequential_but_for_calls_twice :
    (∃ t s, Run 1 t s ∧ ∃ e older, t = e :: older ∧ e.begun? = some 2 ∧
      1 ∈ older.filterMap Event.finished?) ∧
      ∃ t s, Run 1 t s ∧ ∃ newer e s', Run 1 (e :: (newer ++ t)) s' ∧ e.begun? = some 2 ∧
        1 ∉ (newer ++ t).filterMap Event.finished? := by
  constructor
  · have runs : (replay 1 twoJobs).isSome = true := by rfl
    have run := run_of_isSome runs
    generalize hr : (replay 1 twoJobs).get runs = r at run
    obtain ⟨e, older, ht, begins, order, opened⟩ : ∃ e older, r.1 = [] ++ e :: older ∧
        e.begun? = some 2 ∧
        List.Sublist [2, 1] (older.filterMap (Event.put? (· == ⟨7⟩))) ∧
        e.system.pool.stopped = false := by
      rw [← hr]
      exact ⟨_, _, rfl, rfl, .refl [2, 1], rfl⟩
    refine ⟨r.1, r.2, run, e, older, ht, begins, ?_⟩
    refine (run.sequential_but_for_calls.1 ht order begins).resolve_right fun ⟨stopped, _⟩ => ?_
    simp [opened] at stopped
  · have runs : (replay 1 jobAfterShutdown).isSome = true := by rfl
    have run := run_of_isSome runs
    generalize hr : (replay 1 jobAfterShutdown).get runs = r at run
    obtain ⟨o, ho, hc, held⟩ :
        ∃ o ∈ r.2.parties, o.role.isCall = true ∧ o.role.job? = some 1 := by
      rw [← hr]
      exact ⟨_, .tail _ (.tail _ (.head _)), rfl, rfl⟩
    have put : 1 ∈ r.1.filterMap (Event.put? (· == ⟨7⟩)) := by
      rw [← hr]
      exact .head _
    have fresh : 2 ∉ r.2.brought := by
      have brought : r.2.brought = [1] := by
        rw [← hr]
        rfl
      simp [brought]
    obtain ⟨newer, e, s', run', -, begins, unfinished⟩ :=
      run.sequential_but_for_calls.2 ho hc held put fresh
    exact ⟨r.1, r.2, run, newer, e, s', run', begins, unfinished⟩

/-- A job that is scheduled on the lane of the job inside which it is scheduled begins at once, in a
stopped pool. -/
theorem nested_job_overtakes : ∃ t s, Run 1 t s ∧ ∃ e older, t = e :: older ∧
    List.Sublist [2, 1] (older.filterMap (Event.put? (· == ⟨7⟩))) ∧ e.begun? = some 2 ∧
    1 ∈ older.filterMap Event.begun? ∧ 1 ∉ older.filterMap Event.finished? := by
  have runs : (replay 1 (jobAfterShutdown ++ [.join (.scheduling ⟨7⟩ 2), .act 3 .finished,
      .act 3 .finished, .act 3 .finished, .act 3 .finished])).isSome = true := by rfl
  have run := run_of_isSome runs
  generalize hr : (replay 1 (jobAfterShutdown ++ [.join (.scheduling ⟨7⟩ 2), .act 3 .finished,
    .act 3 .finished, .act 3 .finished, .act 3 .finished])).get runs = r at run
  refine ⟨r.1, r.2, run, ?_⟩
  rw [← hr]
  exact ⟨_, _, rfl, .refl [2, 1], rfl, .head _, List.not_mem_nil⟩

end Proactor.Pool
