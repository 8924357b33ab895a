import Mathlib.Data.List.Flatten
import Mathlib.Data.List.Nodup
import Proactor.Proofs.Pool.Steps
/-! # Every job once

A job that was brought to a pool is in one place: with whoever brings or runs it, in a queue, or
finished.

* **Staff** (`Staffed`).  The pool knows how many workers have not ended, one shutdown at most is
  the first, and the pool is stopped only when all workers have ended.
* **Care** (`Role.Attends`).  Once the pool is stopped, a job that waits is attended to: the call
  that brought it or the first shutdown is still to look at its queue, and does not leave before
  the queue is empty.
* **Places** (`Run.placed`).  Every step moves a job from one place to the next.

When the first shutdown and every scheduling have returned, nobody attends to a queue.  So no job
waits, and all that were brought are finished. -/

namespace Proactor.Pool

variable {J : Type}

namespace Role

/-- The number of a worker. -/
def worker? : Role J → Option Nat
  | worker i _ => some i
  | _ => none

/-- A worker that has not ended. -/
def atWork : Role J → Bool
  | worker _ .ended => false
  | worker .. => true
  | _ => false

/-- The first shutdown. -/
def isFirst : Role J → Bool
  | shutdown first _ => first
  | _ => false

/-- What somebody at this place knows of the pool and of itself. -/
def Proper (p : Pool J) : Role J → Prop
  | worker _ .confirm | worker _ .ended => p.halted = true
  | scheduling brought (.push _ job) => job = brought
  | scheduling _ (.drain _) | scheduling _ (.run _ _) => p.stopped = true
  | shutdown first .enter => first = false
  | shutdown first .join => first = true
  | shutdown first (.drain _) | shutdown first (.run _ _) => first = true ∧ p.stopped = true
  | shutdown first .ended => first = true → p.stopped = true
  | _ => True

/-- A call that is still to look at a queue in which a job waits: the first shutdown, or the
scheduling that brought the job. -/
def Attends (i : Nat) (job : J) : Role J → Prop
  | scheduling brought (.look j) | scheduling brought (.drain j) | scheduling brought (.run j _) =>
    j = i ∧ brought = job
  | shutdown first .join => first = true
  | shutdown first (.drain j) | shutdown first (.run j _) => first = true ∧ j ≤ i
  | _ => False

/-- The job that is in its hands: it brings it to a queue, or it took it from there. -/
def inHand : Role J → List J
  | scheduling _ (.push _ job) => [job]
  | r => r.job?.toList

/-- It is over, or the call has returned to its caller. -/
def hasEnded : Role J → Bool
  | worker _ .ended | scheduling _ .ended | shutdown _ .ended => true
  | _ => false

end Role

theorem Role.run_of_job? {r : Role J} {job : J} (h : r.job? = some job) :
    (∃ i, r = .worker i (.run job)) ∨ (∃ b i, r = .scheduling b (.run i job)) ∨
      ∃ first i, r = .shutdown first (.run i job) := by
  rcases r with ⟨i, _ | _⟩ | ⟨b, _ | _⟩ | ⟨first, _ | _⟩ <;> cases h
  · exact .inl ⟨i, rfl⟩
  · exact .inr (.inl ⟨b, _, rfl⟩)
  · exact .inr (.inr ⟨first, _, rfl⟩)

theorem Role.source?_of_job? {r : Role J} {job : J} (h : r.job? = some job) : r.source? = none := by
  rcases run_of_job? h with ⟨_, rfl⟩ | ⟨_, _, rfl⟩ | ⟨_, _, rfl⟩ <;> rfl

/-- The job inside which a party is. -/
def Party.current? (q : Party J) : Option J := if q.inside then q.role.job? else none

theorem Party.job?_sublist (q : Party J) : List.Sublist q.role.job?.toList q.role.inHand := by
  rcases q with ⟨⟨_, _ | _⟩ | ⟨_, _ | _⟩ | ⟨_, _ | _⟩, _⟩ <;> simp [Role.job?, Role.inHand]

theorem Party.current?_sublist (q : Party J) : List.Sublist q.current?.toList q.role.inHand := by
  unfold current?
  split
  · exact q.job?_sublist
  · exact List.nil_sublist _

variable {p p' : Pool J} {q q' : Party J} {l₁ l₂ : List (Party J)} {n i : Nat} {job : J}
  {t : List (Event J)} {s : System J}

/-! ### What a step keeps -/

theorem Role.Proper.mono {r : Role J} (h : r.Proper p) (hh : p.halted = true → p'.halted = true)
    (hs : p.stopped = true → p'.stopped = true) : r.Proper p' := by
  cases r with
  | worker _ w =>
      cases w with
      | confirm | ended => exact hh h
      | _ => trivial
  | scheduling _ c =>
      cases c with
      | push _ _ => exact h
      | drain _ | run _ _ => exact hs h
      | _ => trivial
  | shutdown _ k =>
      cases k with
      | enter | join => exact h
      | drain _ | run _ _ => exact ⟨h.1, hs h.2⟩
      | ended => exact fun first => hs (h first)

namespace Party.Step

theorem size (h : Step p q p' q') : p'.size = p.size := by
  cases h with
  | pushed _ => exact size_push ..
  | workerTook _ | callTook _ | lastTook _ => exact size_withQueue ..
  | _ => rfl

theorem halted_mono (h : Step p q p' q') (hh : p.halted = true) : p'.halted = true := by
  cases h with
  | halted _ => rfl
  | _ => exact hh

theorem stopped_mono (h : Step p q p' q') (hs : p.stopped = true) : p'.stopped = true := by
  cases h with
  | stopped _ => rfl
  | _ => exact hs

theorem brought? (h : Step p q p' q') : q'.role.brought? = q.role.brought? := by
  cases h <;> rfl

theorem worker? (h : Step p q p' q') : q'.role.worker? = q.role.worker? := by
  cases h <;> rfl

theorem atWork (h : Step p q p' q') (hl : q.role.atWork = true → 0 < p.live) :
    q'.role.atWork.toNat + p.live = q.role.atWork.toNat + p'.live := by
  cases h with
  | workerEnded _ =>
      have := hl rfl
      simp only [Role.atWork, Bool.toNat_false, Bool.toNat_true]
      omega
  | _ => rfl

/-- The pool stops only when nobody is left at work. -/
theorem gone (h : Step p q p' q') (hg : p.stopped = true → p.live = 0) :
    p'.stopped = true → p'.live = 0 := by
  cases h with
  | stopped hl => exact fun _ => hl
  | workerEnded _ =>
      intro hs
      have := hg hs
      show p.live - 1 = 0
      omega
  | _ => exact hg

theorem isFirst (h : Step p q p' q') (hq : q.role.Proper p) :
    q'.role.isFirst.toNat + p.halted.toNat = q.role.isFirst.toNat + p'.halted.toNat := by
  cases h with
  | halted hh | haltedBefore hh =>
      have hq : _ = false := hq
      simp [Role.isFirst, hh, hq]
  | _ => rfl

theorem proper (h : Step p q p' q') (hq : q.role.Proper p) : q'.role.Proper p' := by
  cases h with
  | workerHalted hh => exact hh
  | lookedStopped hs => exact hs
  | stopped _ => exact ⟨hq, rfl⟩
  | lastLeft _ => exact fun _ => hq.2
  | haltedBefore _ => nofun
  | halted _ => rfl
  | workerEnded _ | callTook _ | lastTook _ | begun _ => exact hq
  | lastPassed _ | callFinished | lastFinished => exact hq
  | _ => trivial

/-- Who attends to a job does so until nobody has to. -/
theorem attends (h : Step p q p' q') (hs : p'.stopped = true) (hj : job ∈ p'.queue i)
    (ha : q.role.Attends i job) : q'.role.Attends i job := by
  cases h with
  | lookedOpen hs' => simp [hs] at hs'
  | callLeft hq =>
      rw [← ha.1, hq] at hj
      cases hj
  | stopped _ => exact ⟨ha, i.zero_le⟩
  | @lastPassed _ j hq =>
      have hne : j ≠ i := by
        rintro rfl
        rw [hq] at hj
        cases hj
      have hle : j ≤ i := ha.2
      exact ⟨ha.1, by omega⟩
  | lastLeft hl =>
      have := lt_size_of_queue (List.ne_nil_of_mem hj)
      have := ha.2
      omega
  | lookedStopped _ | callTook _ | callFinished | lastTook _ | lastFinished | begun _ => exact ha
  | _ => exact ha.elim

/-- A job that waits in a stopped pool has been waiting before, or it is attended to from now on. -/
theorem waits (h : Step p q p' q') (hn : 0 < p.size) (hq : q.role.Proper p)
    (hs : p'.stopped = true) (hj : job ∈ p'.queue i) :
    q'.role.Attends i job ∨ (p.stopped = true ∧ job ∈ p.queue i) := by
  cases h with
  | @pushed _ lane _ k hk =>
      rw [queue_push (hk ▸ lane.bucket_lt hn)] at hj
      split at hj
      · next hi =>
        subst hi
        rcases List.mem_append.mp hj with hj | hj
        · exact .inr ⟨hs, hj⟩
        · exact .inl ⟨rfl, ((List.mem_singleton.mp hj).trans hq).symm⟩
      · exact .inr ⟨hs, hj⟩
  | stopped _ => exact .inl ⟨hq, i.zero_le⟩
  | workerTook h | callTook h | lastTook h => exact .inr ⟨hs, mem_of_mem_rest h hj⟩
  | _ => exact .inr ⟨hs, hj⟩

/-- A job goes from hand to queue, from queue to hand, and in the end it is finished. -/
theorem placed (h : Step p q p' q') (hn : 0 < p.size) (s : System J) :
    (q.role.inHand ++ p.queues.flatten).Perm
      (q'.role.inHand ++ p'.queues.flatten ++ (Event.acted s q q').finished?.toList) := by
  cases h with
  | @pushed _ lane _ k hk =>
      simpa [Event.finished?, Role.inHand, Role.job?]
        using (flatten_push (hk ▸ lane.bucket_lt hn)).symm
  | workerTook h | callTook h | lastTook h =>
      simpa [Event.finished?, Role.inHand, Role.job?] using flatten_of_cons h
  | workerFinished | callFinished | lastFinished =>
      simpa [Event.finished?, Role.inHand, Role.job?] using (List.perm_append_singleton _ _).symm
  | _ => simp [Event.finished?, Role.inHand, Role.job?]

/-- A job that is taken is held until it is finished. -/
theorem taken (h : Step p q p' q') (s : System J) :
    ((Event.acted s q q').taken? fun _ => true).toList ++ q.role.job?.toList =
      q'.role.job?.toList ++ (Event.acted s q q').finished?.toList := by
  cases h with
  | begun hr => simp [Event.taken?, Event.finished?, Role.source?_of_job? hr]
  | _ => simp [Event.taken?, Event.finished?, Role.source?, Role.job?]

/-- Whoever begins a job is inside it until it is finished. -/
theorem begins (h : Step p q p' q') (s : System J) :
    (Event.acted s q q').begun?.toList ++ q.current?.toList =
      q'.current?.toList ++ (Event.acted s q q').finished?.toList := by
  cases h <;> simp [Event.begun?, Event.finished?, Party.current?, Role.job?]

end Party.Step

/-! ### What holds throughout a run -/

theorem countP_middle (f : Party J → Bool) :
    (l₁ ++ q :: l₂).countP f = (l₁ ++ l₂).countP f + (f q).toNat := by
  cases h : f q <;> simp [List.countP_append, h, Nat.add_assoc]

/-- The staff of a pool for which `n` workers were asked. -/
structure Staffed (n : Nat) (s : System J) : Prop where
  size : s.pool.size = clampWorkers n
  workers : s.parties.filterMap (·.role.worker?) = List.range (clampWorkers n)
  live : s.parties.countP (·.role.atWork) = s.pool.live
  gone : s.pool.stopped = true → s.pool.live = 0
  first : s.parties.countP (·.role.isFirst) = s.pool.halted.toNat
  proper : ∀ q ∈ s.parties, q.role.Proper s.pool
  /-- In a stopped pool a job that waits is attended to. -/
  attended : s.pool.stopped = true → ∀ i job, job ∈ s.pool.queue i →
    ∃ q ∈ s.parties, q.role.Attends i job

theorem clampWorkers_pos (n : Nat) : 0 < clampWorkers n := by
  have := Nat.le_max_right n 1
  unfold clampWorkers maxWorkers
  omega

namespace Staffed

theorem initial (n : Nat) : Staffed n (.initial n : System J) where
  size := by simp [System.initial, new, Pool.size]
  workers := by
    simp [System.initial, List.filterMap_map, Role.worker?]
  live := by
    simp [System.initial, new, List.countP_map, Function.comp_def, Role.atWork]
  gone := nofun
  first := by
    simp [System.initial, new, List.countP_map, Function.comp_def, Role.isFirst]
  proper q hq := by
    obtain ⟨i, -, rfl⟩ := List.mem_map.mp hq
    trivial
  attended := nofun

theorem join (h : Staffed n s) (newcomer : Newcomer J) :
    Staffed n ⟨s.pool, s.parties ++ [newcomer.party]⟩ where
  size := h.size
  workers := by
    rw [List.filterMap_append, h.workers]
    cases newcomer <;> simp [Newcomer.party, Role.worker?]
  live := by
    rw [List.countP_append, h.live]
    cases newcomer <;> simp [Newcomer.party, Role.atWork]
  gone := h.gone
  first := by
    rw [List.countP_append, h.first]
    cases newcomer <;> simp [Newcomer.party, Role.isFirst]
  proper q hq := by
    rcases List.mem_append.mp hq with hq | hq
    · exact h.proper q hq
    · rw [List.mem_singleton.mp hq]
      cases newcomer <;> rfl
  attended hs i job hj := by
    obtain ⟨q, hq, ha⟩ := h.attended hs i job hj
    exact ⟨q, List.mem_append_left _ hq, ha⟩

theorem step (h : Staffed n ⟨p, l₁ ++ q :: l₂⟩) (hs : Party.Step p q p' q') :
    Staffed n ⟨p', l₁ ++ q' :: l₂⟩ where
  size := hs.size.trans h.size
  workers := by
    have := h.workers
    simp only [List.filterMap_append, List.filterMap_cons] at this ⊢
    rw [hs.worker?]
    exact this
  live := by
    have hl := h.live
    simp only [countP_middle] at hl ⊢
    have := hs.atWork fun hq => by
      rw [hq] at hl
      exact hl ▸ Nat.succ_pos _
    omega
  gone := hs.gone h.gone
  first := by
    have hf := h.first
    simp only [countP_middle] at hf ⊢
    have := hs.isFirst (h.proper q (mem_middle.mpr (.inl rfl)))
    omega
  proper o ho := by
    rcases mem_middle.mp ho with rfl | ho
    · exact hs.proper (h.proper q (mem_middle.mpr (.inl rfl)))
    · exact (h.proper o (mem_middle.mpr (.inr ho))).mono hs.halted_mono hs.stopped_mono
  attended hs' i job hj := by
    rcases hs.waits (h.size ▸ clampWorkers_pos n) (h.proper q (mem_middle.mpr (.inl rfl))) hs' hj
      with ha | ⟨hp, hj₀⟩
    · exact ⟨q', mem_middle.mpr (.inl rfl), ha⟩
    · obtain ⟨o, ho, ha⟩ := h.attended hp i job hj₀
      rcases mem_middle.mp ho with rfl | ho
      · exact ⟨q', mem_middle.mpr (.inl rfl), hs.attends hs' hj ha⟩
      · exact ⟨o, mem_middle.mpr (.inr ho), ha⟩

end Staffed

theorem Run.staffed (run : Run n t s) : Staffed n s := by
  induction run with
  | start => exact .initial n
  | join _ _ ih => exact ih.join _
  | act _ acts ih => exact ih.step (Party.step_of_acts acts)

namespace Staffed

/-- Only one shutdown is the first. -/
theorem first_unique (h : Staffed n s) {o o' : Party J} (ho : o ∈ s.parties) (ho' : o' ∈ s.parties)
    (hf : o.role.isFirst = true) (hf' : o'.role.isFirst = true) : o = o' := by
  obtain ⟨l₁, l₂, hl⟩ := List.append_of_mem ho'
  have count := h.first
  rw [hl] at ho count
  rw [countP_middle, hf'] at count
  rcases mem_middle.mp ho with rfl | ho
  · rfl
  · have pos : 0 < (l₁ ++ l₂).countP (·.role.isFirst) := List.countP_pos_iff.mpr ⟨o, ho, hf⟩
    have le := Bool.toNat_le s.pool.halted
    have one : true.toNat = 1 := rfl
    omega

/-- A pool is halted by the first shutdown. -/
theorem exists_first (h : Staffed n s) (hh : s.pool.halted = true) :
    ∃ first k inside, ⟨.shutdown first k, inside⟩ ∈ s.parties ∧ first = true := by
  have count := h.first
  rw [hh] at count
  have pos : 0 < s.parties.countP (·.role.isFirst) := count ▸ Nat.one_pos
  obtain ⟨⟨r, inside⟩, ho, hf⟩ := List.countP_pos_iff.mp pos
  cases r with
  | shutdown first k => exact ⟨first, k, inside, ho, hf⟩
  | worker _ _ | scheduling _ _ => cases hf

/-- Once the pool is stopped no worker is at work. -/
theorem not_atWork (h : Staffed n s) (hs : s.pool.stopped = true) {o : Party J}
    (ho : o ∈ s.parties) : o.role.atWork = false := by
  have none := List.countP_eq_zero.mp (h.live.trans (h.gone hs)) o ho
  simpa using none

/-- A job that waits for a worker that has ended is attended to. -/
theorem attended_of_ended (h : Staffed n s) {inside : Bool}
    (hw : ⟨.worker i .ended, inside⟩ ∈ s.parties) (hj : job ∈ s.pool.queue i) :
    ∃ q ∈ s.parties, q.role.Attends i job := by
  cases hs : s.pool.stopped with
  | true => exact h.attended hs i job hj
  | false =>
      -- The pool is halted, so there is a first shutdown, and it has not stopped the pool yet.
      obtain ⟨first, k, inside, ho, rfl⟩ := h.exists_first (h.proper _ hw)
      refine ⟨_, ho, ?_⟩
      have hp := h.proper _ ho
      cases k with
      | join => rfl
      | enter => cases hp
      | drain _ | run _ _ => simp [Role.Proper, hs] at hp
      | ended => exact absurd (hp rfl) (by simp [hs])

end Staffed

/-! ### Accounts -/

/-- The job that a call which began is to bring. -/
def Event.brought? : Event J → Option J
  | .joined _ newcomer => newcomer.job?
  | .acted .. => none

theorem perm_middle (f : Party J → List J) (l₁ l₂ : List (Party J)) (q : Party J) :
    ((l₁ ++ q :: l₂).flatMap f).Perm (f q ++ (l₁ ++ l₂).flatMap f) := by
  simp only [List.flatMap_append, List.flatMap_cons, ← List.append_assoc]
  exact List.perm_append_comm.append_right _

/-- An account of jobs: those that came in at some event went out at another, or they are with a
party or with the pool. -/
structure Account (came went : Event J → Option J) (f : Party J → List J) (g : Pool J → List J) :
    Prop where
  start : ∀ i k, f ⟨.worker i .pop, false⟩ = [] ∧ g (new k) = []
  join : ∀ s newcomer, (came (.joined s newcomer)).toList =
    f newcomer.party ++ (went (.joined s newcomer)).toList
  step : ∀ {p p' q q'} (s : System J), Party.Step p q p' q' → 0 < p.size →
    ((came (.acted s q q')).toList ++ (f q ++ g p)).Perm
      (f q' ++ g p' ++ (went (.acted s q q')).toList)

theorem filterMap_cons_toList (f : Event J → Option J) (e : Event J) :
    (e :: t).filterMap f = (f e).toList ++ t.filterMap f := by
  cases h : f e <;> simp [h]

theorem Account.balances {came went : Event J → Option J} {f : Party J → List J}
    {g : Pool J → List J} (a : Account came went f g) (run : Run n t s) :
    (t.filterMap came).Perm (s.parties.flatMap f ++ g s.pool ++ t.filterMap went) := by
  classical
  -- The lists are compared by counting each job, so that both steps are sums.
  induction run with
  | start =>
      have nothing (l : List Nat) : (l.map fun i => ⟨.worker i .pop, false⟩).flatMap f = [] := by
        simp [List.flatMap_map, fun i => (a.start i 0).1]
      simp [System.initial, nothing, (a.start 0 _).2]
  | @join t s run newcomer _ ih =>
      have new := a.join s newcomer
      simp only [filterMap_cons_toList, List.flatMap_append, List.flatMap_singleton, new]
      rw [List.perm_iff_count] at ih ⊢
      intro c
      have ih := ih c
      simp only [List.count_append] at ih ⊢
      omega
  | @act t p p' l₁ l₂ q q' run acts ih =>
      have new := a.step ⟨p, l₁ ++ q :: l₂⟩ (Party.step_of_acts acts)
        (run.staffed.size ▸ clampWorkers_pos n)
      have old := perm_middle f l₁ l₂ q
      have now := perm_middle f l₁ l₂ q'
      simp only [filterMap_cons_toList]
      rw [List.perm_iff_count] at ih new old now ⊢
      intro c
      have ih := ih c
      have new := new c
      have old := old c
      have now := now c
      simp only [List.count_append] at ih new old now ⊢
      omega

theorem Run.brought_perm (run : Run n t s) : (t.filterMap Event.brought?).Perm s.brought := by
  have account : Account Event.brought? (fun _ => none) (fun q : Party J => q.role.brought?.toList)
      fun _ => [] :=
    { start _ _ := ⟨rfl, rfl⟩
      join _ newcomer := by cases newcomer <;> rfl
      step _ h _ := by simp [Event.brought?, h.brought?] }
  have balance := account.balances run
  rw [← List.filterMap_eq_flatMap_toList] at balance
  simpa [System.brought] using balance

/-- A job that was brought is with a party, in a queue, or finished. -/
theorem Run.placed (run : Run n t s) :
    s.brought.Perm
      (s.parties.flatMap (·.role.inHand) ++ s.pool.queues.flatten ++
        t.filterMap Event.finished?) := by
  have account : Account Event.brought? Event.finished? (fun q : Party J => q.role.inHand)
      fun p => p.queues.flatten :=
    { start _ _ := ⟨rfl, by simp [new]⟩
      join _ newcomer := by cases newcomer <;> rfl
      step s h hn := h.placed hn s }
  exact run.brought_perm.symm.trans (account.balances run)

theorem Run.taken_perm (run : Run n t s) :
    (t.filterMap (Event.taken? fun _ => true)).Perm
      (s.parties.flatMap (·.role.job?.toList) ++ t.filterMap Event.finished?) := by
  have account : Account (Event.taken? fun _ => true) Event.finished?
      (fun q : Party J => q.role.job?.toList) fun _ => [] :=
    { start _ _ := ⟨rfl, rfl⟩
      join _ newcomer := by cases newcomer <;> rfl
      step s h _ := by simpa using .of_eq (h.taken s) }
  simpa using account.balances run

theorem Run.begun_perm (run : Run n t s) :
    (t.filterMap Event.begun?).Perm
      (s.parties.flatMap (·.current?.toList) ++ t.filterMap Event.finished?) := by
  have account : Account Event.begun? Event.finished? (fun q : Party J => q.current?.toList)
      fun _ => [] :=
    { start _ _ := ⟨rfl, rfl⟩
      join _ newcomer := by cases newcomer <;> rfl
      step s h _ := by simpa using .of_eq (h.begins s) }
  simpa using account.balances run

/-! ### Every job once -/

theorem Run.brought_nodup (run : Run n t s) : s.brought.Nodup := by
  induction run with
  | start => simp [System.initial, System.brought, List.filterMap_map, Role.brought?]
  | @join t s run newcomer fresh ih =>
      cases newcomer with
      | scheduling lane job =>
          have new := fresh job rfl
          simpa [System.brought, Newcomer.party, Role.brought?] using ih.concat new
      | shutdown => simpa [System.brought, Newcomer.party, Role.brought?] using ih
  | act run acts ih =>
      have same := (Party.step_of_acts acts).brought?
      simpa [System.brought, List.filterMap_append, List.filterMap_cons, same] using ih

theorem Run.placed_nodup (run : Run n t s) :
    (s.parties.flatMap (·.role.inHand) ++ s.pool.queues.flatten ++
      t.filterMap Event.finished?).Nodup :=
  run.placed.nodup_iff.mp run.brought_nodup

/-- A job that is with a party is nowhere else. -/
theorem Run.held_nodup (run : Run n t s) {f : Party J → List J}
    (held : ∀ o, List.Sublist (f o) o.role.inHand) :
    (s.parties.flatMap f ++ t.filterMap Event.finished?).Nodup :=
  run.placed_nodup.sublist (.append_right
    ((List.Sublist.flatMap_right _ fun o _ => held o).trans (List.sublist_append_left ..)) _)

theorem Run.taken_nodup (run : Run n t s) : (t.filterMap (Event.taken? fun _ => true)).Nodup :=
  run.taken_perm.nodup_iff.mpr (run.held_nodup Party.job?_sublist)

theorem Run.begun_nodup (run : Run n t s) : (t.filterMap Event.begun?).Nodup :=
  run.begun_perm.nodup_iff.mpr (run.held_nodup Party.current?_sublist)

/-- The first shutdown and all schedulings have returned. -/
structure System.Settled (s : System J) : Prop where
  first : ∃ o ∈ s.parties, o.role.isFirst = true ∧ o.role.hasEnded = true
  schedulings : ∀ o ∈ s.parties, o.role.brought?.isSome = true → o.role.hasEnded = true

namespace Staffed

theorem stopped_of_settled (h : Staffed n s) (settled : s.Settled) : s.pool.stopped = true := by
  obtain ⟨⟨r, _⟩, ho, hf, he⟩ := settled.first
  cases r with
  | shutdown first k =>
      cases k with
      | ended => exact h.proper _ ho hf
      | _ => cases he
  | worker _ _ | scheduling _ _ => cases hf

/-- A call that is left is a shutdown that came too late. -/
theorem hasEnded_of_settled (h : Staffed n s) (settled : s.Settled) {o : Party J}
    (ho : o ∈ s.parties) (hc : o.role.isFirst = true ∨ o.role.brought?.isSome = true) :
    o.role.hasEnded = true := by
  rcases hc with hf | hb
  · obtain ⟨o', ho', hf', he⟩ := settled.first
    exact h.first_unique ho ho' hf hf' ▸ he
  · exact settled.schedulings o ho hb

/-- When everybody has returned, nobody attends to a job. -/
theorem queue_of_settled (h : Staffed n s) (settled : s.Settled) (i : Nat) :
    s.pool.queue i = [] := by
  by_contra waits
  obtain ⟨job, hj⟩ := List.exists_mem_of_ne_nil _ waits
  obtain ⟨⟨r, inside⟩, ho, ha⟩ := h.attended (h.stopped_of_settled settled) i job hj
  have ended := h.hasEnded_of_settled settled ho
  cases r with
  | worker _ _ => exact ha
  | scheduling b c =>
      have ended := ended (.inr rfl)
      cases c with
      | ended => exact ha
      | _ => cases ended
  | shutdown first k =>
      cases k with
      | enter | ended => exact ha
      | join => cases ended (.inl ha)
      | drain _ | run _ _ => cases ended (.inl ha.1)

/-- When everybody has returned, nobody holds a job. -/
theorem inHand_of_settled (h : Staffed n s) (settled : s.Settled) {o : Party J}
    (ho : o ∈ s.parties) : o.role.inHand = [] := by
  have ended := h.hasEnded_of_settled settled ho
  have idle := h.not_atWork (h.stopped_of_settled settled) ho
  have proper := h.proper o ho
  obtain ⟨r, inside⟩ := o
  cases r with
  | worker i w =>
      cases w with
      | ended => rfl
      | _ => cases idle
  | scheduling b c =>
      have ended := ended (.inr rfl)
      cases c with
      | ended => rfl
      | _ => cases ended
  | shutdown first k =>
      cases k with
      | run i job => cases ended (.inl proper.1)
      | _ => rfl

end Staffed

/-- No job is taken twice, and none begins twice.  A job that is put into the queue of a worker that
has ended is attended to for as long as it waits: by the final drain of the first shutdown or by the
scheduling that brought it.  And when the first shutdown and all schedulings have returned, all
queues are empty and every job that was brought has been run, just once. -/
theorem Run.every_job_once (run : Run n t s) :
    (t.filterMap (Event.taken? fun _ => true)).Nodup ∧ (t.filterMap Event.begun?).Nodup ∧
      (∀ i inside job, ⟨.worker i .ended, inside⟩ ∈ s.parties → job ∈ s.pool.queue i →
        ∃ o ∈ s.parties, o.role.Attends i job) ∧
      (s.Settled →
        (∀ i, s.pool.queue i = []) ∧ (t.filterMap Event.finished?).Perm s.brought) := by
  have staffed := run.staffed
  refine ⟨run.taken_nodup, run.begun_nodup,
    fun i inside job hw hj => staffed.attended_of_ended hw hj, fun settled => ?_⟩
  · have idle : s.parties.flatMap (·.role.inHand) = [] :=
      List.flatMap_eq_nil_iff.mpr fun o ho => staffed.inHand_of_settled settled ho
    have empty : s.pool.queues.flatten = [] := by
      refine List.flatten_eq_nil_iff.mpr fun q hq => ?_
      obtain ⟨i, hi, rfl⟩ := List.getElem_of_mem hq
      rw [← queue_eq_getElem hi]
      exact staffed.queue_of_settled settled i
    have placed := run.placed
    rw [idle, empty] at placed
    exact ⟨staffed.queue_of_settled settled, placed.symm⟩

/-- A shutdown finds the only worker idle, and a job is put into its queue after it has ended. -/
def lateJob : List (Choice Nat) :=
  [.join .shutdown, .act 1 .finished, .act 0 .finished, .act 0 .finished, .act 0 .finished,
    .join (.scheduling ⟨7⟩ 1), .act 2 .finished]

/-- The scheduling sees that the pool is not stopped, and the shutdown runs the job.  Inside it
another job is scheduled, which panics. -/
def finalDrain : List (Choice Nat) :=
  [.act 2 .finished, .act 1 .finished, .act 1 .finished, .act 1 .finished,
    .join (.scheduling ⟨7⟩ 2), .act 3 .finished, .act 3 .finished, .act 3 .finished,
    .act 3 .finished, .act 3 (.panicked none), .act 3 .finished, .act 1 .finished,
    .act 1 .finished, .act 1 .finished]

theorem every_job_once_late :
    (∃ t s, Run 1 t s ∧ 1 ∈ s.pool.queue 0 ∧ ∃ o ∈ s.parties, o.role.Attends 0 1) ∧
      ∃ t s, Run 1 t s ∧ s.Settled ∧ s.brought = [1, 2] ∧
        (t.filterMap Event.finished?).Perm s.brought := by
  constructor
  · have runs : (replay 1 lateJob).isSome = true := by rfl
    have run := run_of_isSome runs
    generalize hr : (replay 1 lateJob).get runs = r at run
    have waits : 1 ∈ r.2.pool.queue 0 := by
      rw [← hr]
      exact .head _
    have ended : ⟨.worker 0 .ended, false⟩ ∈ r.2.parties := by
      rw [← hr]
      exact .head _
    exact ⟨r.1, r.2, run, waits, run.every_job_once.2.2.1 0 false 1 ended waits⟩
  · have runs : (replay 1 (lateJob ++ finalDrain)).isSome = true := by rfl
    have settled : ((replay 1 (lateJob ++ finalDrain)).get runs).2.Settled :=
      ⟨⟨_, .tail _ (.head _), rfl, rfl⟩, by decide +revert⟩
    have run := run_of_isSome runs
    generalize hr : (replay 1 (lateJob ++ finalDrain)).get runs = r at run settled
    exact ⟨r.1, r.2, run, settled, by rw [← hr]; rfl, (run.every_job_once.2.2.2 settled).2⟩

end Proactor.Pool
