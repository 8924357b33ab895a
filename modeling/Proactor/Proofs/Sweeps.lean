import Proactor.Proofs.Answers
import Proactor.Proofs.InputEnd
import Proactor.Proofs.LeftBehind
/-! # One sweep

A dispatch sweeps a queue: it attempts what waited there when the sweep began, from the head on,
while others may queue up behind.  No error is pending.

* **Divided queues** (`Queue.Divided`).  What is left of those who waited is in front of those who
  came later, and the numbers of the slots tell which is which.
* **The record** (`Tally`).  Whom dispatches have attempted, what they have found out, and what they
  have completed.
* **A sweep in progress** (`Sweeping`).  It has served the first of those who waited, and perhaps
  holds the next one.  Every step keeps this, or ends the sweep (`Dispatch.Step.sweeping_or_swept`).
* **The end** (`Swept`).  All are served, or the sweep met somebody whom it does not serve, or who
  was not ready (`Run.swept`). -/

namespace Proactor

namespace Queue

/-- The queue holds `todo` in slots below `bound`, and behind them `later` in slots from `bound` on.
The slots `head` come first. -/
structure Divided (q : Queue) (bound : Nat) (head : List Entry) (todo later : List Operation) :
    Prop where
  slots : ∃ old new, q.entries = head ++ old ++ new ∧ old.map (·.op) = todo.map some ∧
    new.map (·.op) = later.map some ∧ (∀ e ∈ head ++ old, e.number < bound) ∧
    ∀ e ∈ new, bound ≤ e.number
  below : bound ≤ q.next

/-- The queue later, when it has what it had, and behind it `new`. -/
def Extended (q : Queue) (new : List Operation) (q' : Queue) : Prop :=
  q'.entries = q.entries ++ new.map (⟨q.next, some ·⟩) ∧ q.next ≤ q'.next

variable {q q' : Queue} {bound n : Nat} {head rest : List Entry} {todo later : List Operation}
  {op : Operation} {e : Entry}

theorem extended_nil (entries : q'.entries = q.entries) (next : q'.next = q.next) :
    q.Extended [] q' :=
  ⟨by rw [entries, List.map_nil, List.append_nil], Nat.le_of_eq next.symm⟩

theorem Whole.map_op (h : q.Whole) : q.entries.map (·.op) = q.waiting.map some := by
  unfold Whole at h
  unfold waiting
  generalize q.entries = entries at h
  induction entries with
  | nil => rfl
  | cons e rest ih =>
      obtain ⟨op, ho⟩ := Option.isSome_iff_exists.mp (h e (.head _))
      simp only [List.map_cons, ho, List.filterMap_cons, ih fun e he => h e (.tail _ he)]

/-- Nobody has come later than now. -/
theorem Whole.divided (h : q.Whole) (numbered : q.Numbered) :
    q.Divided q.next [] q.waiting [] :=
  ⟨⟨q.entries, [], by simp, h.map_op, rfl, numbered.below, fun _ he => absurd he List.not_mem_nil⟩,
    Nat.le_refl _⟩

namespace Divided

/-- The operations are in their slots, one after another. -/
theorem map_op (h : q.Divided bound [] todo later) :
    q.entries.map (·.op) = (todo ++ later).map some := by
  obtain ⟨old, new, he, ho, hn, -⟩ := h.slots
  rw [he, List.nil_append, List.map_append, List.map_append, ho, hn]

/-- Others queue up. -/
theorem extended (h : q.Divided bound head todo later) {ops : List Operation}
    (extended : q.Extended ops q') : q'.Divided bound head todo (later ++ ops) := by
  obtain ⟨entries, next⟩ := extended
  obtain ⟨old, new, he, ho, hn, below, beyond⟩ := h.slots
  refine ⟨⟨old, new ++ ops.map (⟨q.next, some ·⟩), ?_, ho, ?_, below, ?_⟩,
    Nat.le_trans h.below next⟩
  · rw [entries, he, List.append_assoc]
  · rw [List.map_append, List.map_append, hn, List.map_map]
    rfl
  · intro e he
    rcases List.mem_append.mp he with he | he
    · exact beyond e he
    · obtain ⟨op, -, rfl⟩ := List.mem_map.mp he
      exact h.below

/-- Nobody is left in an empty queue. -/
theorem of_empty (h : q.Divided bound [] todo later) (he : q.entries = []) :
    todo = [] ∧ later = [] := by
  have ops := h.map_op
  rw [he] at ops
  simpa using (List.map_eq_nil_iff.mp ops.symm)

/-- Where somebody who came later is at the head, nobody is left of the others. -/
theorem of_beyond (h : q.Divided bound [] todo later) (he : q.entries = e :: rest)
    (hb : bound ≤ e.number) : todo = [] ∧ later ≠ [] := by
  obtain ⟨old, new, hq, ho, hn, below, -⟩ := h.slots
  cases old with
  | nil =>
      refine ⟨List.map_eq_nil_iff.mp ho.symm, ?_⟩
      rintro rfl
      rw [List.map_eq_nil_iff.mp hn] at hq
      cases hq.symm.trans he
  | cons e' old =>
      cases hq.symm.trans he
      have := below e (.head _)
      omega

/-- Whoever is at the head in a slot below the number is the first of those who are left. -/
theorem of_head (h : q.Divided bound [] todo later) (he : q.entries = ⟨n, some op⟩ :: rest)
    (hb : n < bound) : ∃ left, todo = op :: left ∧ ∀ state,
      Divided { q with state, entries := ⟨n, none⟩ :: rest } bound [⟨n, none⟩] left later := by
  obtain ⟨old, new, hq, ho, hn, below, beyond⟩ := h.slots
  cases old with
  | nil =>
      cases new with
      | nil => cases hq.symm.trans he
      | cons e' new =>
          cases hq.symm.trans he
          have := beyond ⟨n, some op⟩ (.head _)
          dsimp only at this
          omega
  | cons e' old =>
      cases hq.symm.trans he
      cases todo with
      | nil => cases ho
      | cons o left =>
          obtain ⟨hop, hold⟩ := List.cons.inj ho
          obtain rfl := Option.some.inj hop
          refine ⟨left, rfl, fun state => ⟨⟨old, new, rfl, hold, hn, ?_, beyond⟩, h.below⟩⟩
          intro e he
          rcases List.mem_append.mp he with he | he
          · rw [List.mem_singleton.mp he]
            exact hb
          · exact below e (.tail _ he)

/-- The head is put back into its slot. -/
theorem restored {m : Nat} (h : q.Divided bound [⟨m, none⟩] todo later)
    (he : q.entries = ⟨n, none⟩ :: rest) (op : Operation) (state : State) :
    Divided { q with state, entries := ⟨n, some op⟩ :: rest } bound [] (op :: todo) later := by
  obtain ⟨old, new, hq, ho, hn, below, beyond⟩ := h.slots
  cases hq.symm.trans he
  refine ⟨⟨⟨n, some op⟩ :: old, new, rfl, by simp [ho], hn, ?_, beyond⟩, h.below⟩
  intro e he
  rcases List.mem_cons.mp he with rfl | he
  · exact below ⟨n, none⟩ (.head _)
  · exact below e (.tail _ he)

/-- The slot of the head is removed. -/
theorem retired {m : Nat} (h : q.Divided bound [⟨m, none⟩] todo later)
    (he : q.entries = ⟨n, none⟩ :: rest) :
    Divided { q with entries := rest } bound [] todo later := by
  obtain ⟨old, new, hq, ho, hn, below, beyond⟩ := h.slots
  cases hq.symm.trans he
  exact ⟨⟨old, new, rfl, ho, hn, fun e he => below e (.tail _ he), beyond⟩, h.below⟩

end Divided
end Queue

namespace Channel

/-- The operation of which a dispatch begins an attempt. -/
def Event.attempts? : Event → Option Operation
  | acted s (.dispatch k) _ _ => (Party.dispatch k).begins? s.channel
  | _ => none

/-- The operation of direction `d` that its submission puts into the queue. -/
def Event.queues? (d : Direction) : Event → Option Operation
  | acted _ (.submission _ sub) _ (.submission _ ⟨_, .answered .pending⟩) =>
    sub.phase.op?.filter (·.direction == d)
  | _ => none

/-- A dispatch ends a sweep. -/
def Event.endsSweep : Event → Bool
  | acted _ (.dispatch k) _ (.dispatch k') => k.sweeping?.isSome && k'.sweeping?.isNone
  | _ => false

/-- The operations of which dispatches have begun attempts, the oldest first. -/
def attempts (newer : List Event) : List Operation := newer.reverse.filterMap (·.attempts?)

/-- The operations of direction `d` that have queued up, the oldest first. -/
def arrivals (d : Direction) (newer : List Event) : List Operation :=
  newer.reverse.filterMap (·.queues? d)

/-- What dispatches have done. -/
structure Tally (newer : List Event) (tried : List Operation) (found : List Result)
    (done : List Operation) : Prop where
  tried : attempts newer = tried
  found : results newer = found
  done : completions newer = done

/-- A sweep in progress: `ops` waited when it began, `newer` is what has happened since, and `q` is
the queue now.  It has served some, and they are done. -/
inductive Sweeping (sw : Sweep) (ops : List Operation) (newer : List Event) (q : Queue) :
    Dispatch → Prop
  | checkOut {served todo done : List Operation} (hops : ops = served ++ todo)
      (same : done.map (·.key) = served.map (·.key))
      (tally : Tally newer served (done.map (.ready false)) done)
      (divided : q.Divided sw.bound [] todo (arrivals sw.stage.direction newer)) :
      Sweeping sw ops newer q (.checkOut sw)
  | attempt {served todo done : List Operation} {o : Operation} {a : Attempt} {n : Nat}
      (hops : ops = served ++ o :: todo) (same : done.map (·.key) = served.map (·.key))
      (key : a.op.key = o.key) (tally : Tally newer (served ++ [o]) (done.map (.ready false)) done)
      (divided : q.Divided sw.bound [⟨n, none⟩] todo (arrivals sw.stage.direction newer)) :
      Sweeping sw ops newer q (.attempt a sw)
  | complete {served todo done : List Operation} {o op : Operation} {n : Nat}
      (hops : ops = served ++ o :: todo) (same : done.map (·.key) = served.map (·.key))
      (key : op.key = o.key)
      (tally : Tally newer (served ++ [o]) ((done ++ [op]).map (.ready false)) done)
      (divided : q.Divided sw.bound [⟨n, none⟩] todo (arrivals sw.stage.direction newer)) :
      Sweeping sw ops newer q (.complete op sw)
  | retire {served todo done : List Operation} {n : Nat} (hops : ops = served ++ todo)
      (same : done.map (·.key) = served.map (·.key))
      (tally : Tally newer served (done.map (.ready false)) done)
      (divided : q.Divided sw.bound [⟨n, none⟩] todo (arrivals sw.stage.direction newer)) :
      Sweeping sw ops newer q (.retire sw)
  | restore {served todo done : List Operation} {o op : Operation} {n : Nat}
      (hops : ops = served ++ o :: todo) (same : done.map (·.key) = served.map (·.key))
      (key : op.key = o.key)
      (tally : Tally newer (served ++ [o]) (done.map (.ready false) ++ [.notReady false op]) done)
      (divided : q.Divided sw.bound [⟨n, none⟩] todo (arrivals sw.stage.direction newer)) :
      Sweeping sw ops newer q (.restore op sw)

/-- How a sweep of `stage` has ended: `ops` waited when it began, and `newer` is what has happened
since.  It has left `q` for the queue; `rearm` and `rearm'` say whether the reactor is to report
again, before and after it. -/
inductive Swept (stage : Stage) (ops : List Operation) (newer : List Event) (q : Queue)
    (rearm rearm' : Bool) : Prop
  /-- All who waited are served.  The reactor is to report again if others wait behind them. -/
  | all {done : List Operation} (same : done.map (·.key) = ops.map (·.key))
      (tally : Tally newer ops (done.map (.ready false)) done)
      (left : q.entries.map (·.op) = (arrivals stage.direction newer).map some)
      (again : rearm' = (rearm || !(arrivals stage.direction newer).isEmpty))
  /-- The next one is of another kind. -/
  | unwanted {served todo done : List Operation} {o : Operation} (hops : ops = served ++ o :: todo)
      (same : done.map (·.key) = served.map (·.key)) (hw : stage.wants o = false)
      (tally : Tally newer served (done.map (.ready false)) done)
      (left : q.entries.map (·.op) = (o :: todo ++ arrivals stage.direction newer).map some)
      (again : rearm' = rearm)
  /-- The next one is not ready. -/
  | notReady {served todo done : List Operation} {o op : Operation}
      (hops : ops = served ++ o :: todo) (same : done.map (·.key) = served.map (·.key))
      (key : op.key = o.key)
      (tally : Tally newer (served ++ [o]) (done.map (.ready false) ++ [.notReady false op]) done)
      (left : q.entries.map (·.op) = (op :: todo ++ arrivals stage.direction newer).map some)
      (clear : q.state = .clear) (again : rearm' = rearm)

variable {use : Party → Prop} {c c' : Channel} {l₁ l₂ : List Party} {p p' : Party}
  {x : Option (Exchange Call)} {t newer older : List Event} {s : System} {k k' : Dispatch}
  {e : Event} {op o : Operation} {sw : Sweep} {ops tried done : List Operation}
  {found : List Result} {d : Direction} {q q' : Queue}

/-! ### The record -/

theorem attempts_cons (e : Event) (newer : List Event) :
    attempts (e :: newer) = attempts newer ++ e.attempts?.toList := by
  rw [attempts, List.reverse_cons, filterMap_concat]
  rfl

theorem arrivals_cons (d : Direction) (e : Event) (newer : List Event) :
    arrivals d (e :: newer) = arrivals d newer ++ (e.queues? d).toList := by
  rw [arrivals, List.reverse_cons, filterMap_concat]
  rfl

theorem Tally.cons (h : Tally newer tried found done) (e : Event) :
    Tally (e :: newer) (tried ++ e.attempts?.toList) (found ++ e.result?.toList)
      (done ++ e.completed?.toList) := by
  obtain ⟨rfl, rfl, rfl⟩ := h
  exact ⟨attempts_cons e newer, results_cons e newer, completions_cons e newer⟩

/-- Nothing is recorded where nothing is done. -/
theorem Tally.quiet (h : Tally newer tried found done) (ha : e.attempts? = none)
    (hr : e.result? = none) (hc : e.completed? = none) : Tally (e :: newer) tried found done := by
  have cons := h.cons e
  simpa only [ha, hr, hc, Option.toList_none, List.append_nil] using cons

/-- Nothing is recorded of other parties. -/
theorem Tally.aside (h : Tally newer tried found done) (hp : ∀ k, p ≠ .dispatch k) :
    Tally (.acted s p x p' :: newer) tried found done := by
  obtain ⟨hr, hc⟩ : (Event.acted s p x p').result? = none ∧
      (Event.acted s p x p').completed? = none := Event.aside hp
  have ha : (Event.acted s p x p').attempts? = none := by
    cases p with
    | dispatch k => exact absurd rfl (hp k)
    | _ => rfl
  exact h.quiet ha hr hc

/-! ### Who queues up -/

/-- Another queue, of which the slots are as they were. -/
theorem extended_withQueue {d e : Direction} {q : Queue} (entries : q.entries = (c.queue e).entries)
    (next : q.next = (c.queue e).next) :
    Queue.Extended (c.queue d) [] ((c.withQueue e q).queue d) := by
  by_cases hd : d = e
  · subst hd
    rw [queue_withQueue]
    exact Queue.extended_nil entries next
  · rw [queue_withQueue_ne c q hd]
    exact Queue.extended_nil rfl rfl

/-- Whoever queues up is behind all others in his direction. -/
theorem extended_pushed (op : Operation) :
    Queue.Extended (c.queue d) ((some op).filter (·.direction == d)).toList
      ((c.withQueue op.direction ((c.queue op.direction).pushed op)).queue d) := by
  by_cases hd : op.direction = d
  · subst hd
    have same : (some op).filter (·.direction == op.direction) = some op :=
      Option.filter_some_pos (beq_self_eq_true op.direction)
    rw [queue_withQueue, same]
    exact ⟨rfl, Nat.le_succ _⟩
  · rw [queue_withQueue_ne c _ (Ne.symm hd), Option.filter_some_neg (by simpa using hd)]
    exact Queue.extended_nil rfl rfl

/-- Nobody queues up who has an answer of another kind, or none. -/
theorem Event.queues?_eq_none {sub sub' : Submission} (h : sub'.phase ≠ .answered .pending) :
    (acted s (.submission o sub) x (.submission o sub')).queues? d = none := by
  unfold queues?
  split
  · next heq =>
    cases heq
    exact absurd rfl h
  · rfl

theorem Submission.Step.extended {sub sub' : Submission} (h : Submission.Step c sub x c' sub') :
    Queue.Extended (c.queue d)
      ((Event.acted s (.submission o sub) x (.submission o sub')).queues? d).toList
      (c'.queue d) := by
  have quiet : sub'.phase ≠ .answered .pending → Queue.Extended (c.queue d) [] (c'.queue d) →
      Queue.Extended (c.queue d)
        ((Event.acted s (.submission o sub) x (.submission o sub')).queues? d).toList
        (c'.queue d) := by
    intro hp same
    rw [Event.queues?_eq_none hp]
    exact same
  have unchanged : c'.queue d = c.queue d → Queue.Extended (c.queue d) [] (c'.queue d) :=
    fun same => Queue.extended_nil (by rw [same]) (by rw [same])
  cases h with
  | enterJoined _ | enterClosed _ _ | enterEarly _ _ _ | enterFirst _ _ _ =>
      exact quiet (by intro h; cases h) (unchanged (queue_update rfl rfl rfl d))
  | attachDone _ =>
      exact quiet (by cases ‹Bool› <;> (intro h; cases h)) (unchanged (queue_update rfl rfl rfl d))
  | attachJoined _ => exact quiet (by cases ‹Bool› <;> (intro h; cases h)) (unchanged rfl)
  | attachFailed _ | offerStopped _ _ | enlistStopped _ _ =>
      exact quiet (by intro h; cases h) (unchanged rfl)
  | offerIdle _ _ | enlistHinted _ _ =>
      exact quiet (Phase.ofProgress_ne_answered _ _) (extended_withQueue rfl rfl)
  | attempted _ => exact quiet (Phase.ofProgress_ne_answered _ _) (unchanged rfl)
  | offerDraining _ _ | enlistDraining _ _ =>
      refine quiet (by intro h; cases h) ?_
      rw [queue_abandon]
      exact extended_withQueue rfl rfl
  | @completed g op =>
      refine quiet ?_ (unchanged (queue_abandon _ _ _))
      cases hs : op.status.isSuccess <;> simp [Answer.of, hs]
  | @offerBusy _ op _ _ | @enlistWaiting _ op _ _ =>
      rw [queue_abandon]
      exact extended_pushed op

/-- While a dispatch has the lock, other parties do nothing to a queue but to queue up in it. -/
theorem Party.Step.extended (h : Party.Step c p x c' p') (hp : ∀ k, p ≠ .dispatch k)
    (locked : c.dispatching = true) (intact : p'.Intact) :
    Queue.Extended (c.queue d) ((Event.acted s p x p').queues? d).toList (c'.queue d) := by
  have unchanged : c'.queue d = c.queue d → Queue.Extended (c.queue d) [] (c'.queue d) :=
    fun same => Queue.extended_nil (by rw [same]) (by rw [same])
  cases h with
  | submission h => exact h.extended
  | attachment h => exact unchanged (h.queue d)
  | dispatch _ => exact absurd rfl (hp _)
  | closing h =>
      cases h with
      | again _ | released _ | releasedUnattached _ | flushed => exact unchanged rfl
      | unattached free _ | stopped free _ _ _ =>
          rw [free.dispatching] at locked
          cases locked
      | stopBroken _ _ => exact absurd rfl (intact _)
      | flushing hf =>
          cases hf with
          | emptied | completed => exact unchanged rfl
          | settled _ | parked _ =>
              rw [queue_settle]
              exact Queue.extended_nil rfl rfl

/-! ### A sweep in progress -/

/-- What happens around a sweep only makes its queue longer. -/
theorem Sweeping.aside (h : Sweeping sw ops newer q k)
    (record : ∀ {tried found done}, Tally newer tried found done →
      Tally (e :: newer) tried found done)
    (extended : q.Extended (e.queues? sw.stage.direction).toList q') :
    Sweeping sw ops (e :: newer) q' k := by
  have divides : ∀ {head todo}, q.Divided sw.bound head todo (arrivals sw.stage.direction newer) →
      q'.Divided sw.bound head todo (arrivals sw.stage.direction (e :: newer)) := by
    intro head todo divided
    rw [arrivals_cons]
    exact divided.extended extended
  cases h with
  | checkOut hops same tally divided => exact .checkOut hops same (record tally) (divides divided)
  | attempt hops same key tally divided =>
      exact .attempt hops same key (record tally) (divides divided)
  | complete hops same key tally divided =>
      exact .complete hops same key (record tally) (divides divided)
  | retire hops same tally divided => exact .retire hops same (record tally) (divides divided)
  | restore hops same key tally divided =>
      exact .restore hops same key (record tally) (divides divided)

/-- A part of an attempt of the head is made. -/
theorem Sweeping.of_progress {served todo done : List Operation} {n : Nat} {r : Progress}
    (hp : sw.pending = none) (hops : ops = served ++ o :: todo)
    (same : done.map (·.key) = served.map (·.key)) (key : r.op.key = o.key)
    (tally : Tally newer (served ++ [o])
      (done.map (.ready false) ++ (Result.ofProgress false r).toList) done)
    (divided : q.Divided sw.bound [⟨n, none⟩] todo (arrivals sw.stage.direction newer)) :
    Sweeping sw ops newer q (.ofSwept sw r) := by
  rw [Dispatch.ofSwept_none hp]
  cases r with
  | calling a =>
      rw [Result.ofProgress, Option.toList_none, List.append_nil] at tally
      exact .attempt hops same key tally divided
  | ready op =>
      refine .complete hops same key ?_ divided
      rw [List.map_append]
      exact tally
  | notReady op => exact .restore hops same key tally divided

/-- Where the head is not checked out, no attempt begins and nothing is found out. -/
theorem Event.quiet_of_checkOut {parties : List Party} {result : Queue × Queue.Head}
    (h : (c.queue sw.stage.direction).checkOut sw.bound sw.stage.wants = .ok result)
    (hr : ∀ op, result.2 ≠ .ready op) :
    (acted ⟨c, parties⟩ (.dispatch (.checkOut sw)) none p').attempts? = none ∧
      (acted ⟨c, parties⟩ (.dispatch (.checkOut sw)) none p').result? = none := by
  obtain ⟨q, head⟩ := result
  cases head with
  | ready op => exact absurd rfl (hr op)
  | _ => simp [attempts?, Party.begins?, result?, Dispatch.result?, h]

/-- A step of a dispatch that sweeps goes on with the sweep, or ends it. -/
theorem Dispatch.Step.sweeping_or_swept (h : Dispatch.Step c k x c' k')
    (whole : ∀ v, k' ≠ .broken v) (hp : sw.pending = none)
    (sweeping : Sweeping sw ops newer (c.queue sw.stage.direction) k) (parties : List Party) :
    let e := Event.acted ⟨c, parties⟩ (.dispatch k) x (.dispatch k')
    Sweeping sw ops (e :: newer) (c'.queue sw.stage.direction) k' ∨
      ∃ rearm, k' = .sweep sw.rest rearm none ∧
        Swept sw.stage ops (e :: newer) (c'.queue sw.stage.direction) sw.rearm rearm := by
  intro e
  have nobody : arrivals sw.stage.direction newer = arrivals sw.stage.direction (e :: newer) := by
    rw [arrivals_cons]
    exact (List.append_nil _).symm
  cases sweeping with
  | @checkOut served todo done hops same tally divided =>
      rw [nobody] at divided
      cases h with
      | checkOutEmpty he =>
          obtain ⟨ha, hr⟩ : e.attempts? = none ∧ e.result? = none :=
            Event.quiet_of_checkOut (by rw [Queue.checkOut, he]) fun _ h => by cases h
          obtain ⟨rfl, none_later⟩ := divided.of_empty he
          rw [List.append_nil] at hops
          subst hops
          refine .inr ⟨sw.rearm, by rw [hp], .all same (tally.quiet ha hr rfl) divided.map_op ?_⟩
          rw [none_later]
          exact (Bool.or_false _).symm
      | checkOutBeyond he hb =>
          obtain ⟨ha, hr⟩ : e.attempts? = none ∧ e.result? = none :=
            Event.quiet_of_checkOut (by simp only [Queue.checkOut, he, if_pos hb]; rfl)
              fun _ h => by cases h
          obtain ⟨rfl, later⟩ := divided.of_beyond he hb
          rw [List.append_nil] at hops
          subst hops
          refine .inr ⟨true, by rw [hp], .all same (tally.quiet ha hr rfl) divided.map_op ?_⟩
          rw [List.isEmpty_eq_false_iff.mpr later]
          exact (Bool.or_true _).symm
      | @checkOutSkipped _ n op rest he hb hw =>
          obtain ⟨ha, hr⟩ : e.attempts? = none ∧ e.result? = none :=
            Event.quiet_of_checkOut
              (by simp only [Queue.checkOut, he, if_neg (Nat.not_le.mpr hb), hw]; rfl)
              fun _ h => by cases h
          obtain ⟨left, rfl, -⟩ := divided.of_head he hb
          exact .inr ⟨sw.rearm, by rw [hp],
            .unwanted hops same hw (tally.quiet ha hr rfl) divided.map_op rfl⟩
      | @checkOutReady _ n op rest he hb hw =>
          have ready := Queue.checkOut_ready he hb hw
          have ha : e.attempts? = some op := by
            simp only [e, Event.attempts?, Party.begins?, ready]
          have hr : e.result? = Result.ofProgress false (Attempt.start op) := by
            simp only [e, Event.result?, Dispatch.result?, ready]
          have record := tally.cons e
          rw [ha, hr, show e.completed? = none from rfl, Option.toList_none, List.append_nil]
            at record
          obtain ⟨left, rfl, divides⟩ := divided.of_head he hb
          rw [queue_withQueue]
          exact .inl (.of_progress hp hops same (Attempt.key_start op) record (divides _))
      | checkOutBroken _ => exact absurd rfl (whole _)
  | @attempt served todo done o a n hops same key tally divided =>
      rw [nobody] at divided
      cases h with
      | attempted reply =>
          have hr : e.result? = Result.ofProgress false ((a.call c.fd).resume reply) := by
            simp only [e, Event.result?, Dispatch.result?, Attempt.after_reply, Option.bind_some]
          have record := tally.cons e
          rw [show e.attempts? = none from rfl, hr, show e.completed? = none from rfl,
            Option.toList_none, List.append_nil, List.append_nil] at record
          exact .inl (.of_progress hp hops same ((a.key_resume c.fd reply).trans key) record
            divided)
  | @complete served todo done o op n hops same key tally divided =>
      rw [nobody] at divided
      cases h with
      | completed =>
          have record := tally.cons e
          rw [show e.attempts? = none from rfl, Option.toList_none, List.append_nil,
            show e.result? = none from rfl, Option.toList_none, List.append_nil,
            show e.completed? = some op from rfl] at record
          have hops' : ops = served ++ [o] ++ todo := by rw [hops, List.append_assoc]; rfl
          refine .inl (.retire hops' ?_ record divided)
          · rw [List.map_append, List.map_append, same, List.map_singleton, key]
            rfl
  | @retire served todo done n hops same tally divided =>
      rw [nobody] at divided
      cases h with
      | retired he =>
          rw [queue_withQueue]
          exact .inl (.checkOut hops same (tally.quiet rfl rfl rfl) (divided.retired he))
      | retireBroken _ => exact absurd rfl (whole _)
  | @restore served todo done o op n hops same key tally divided =>
      rw [nobody] at divided
      cases h with
      | restored he =>
          have restored := divided.restored he op .clear
          rw [queue_withQueue]
          exact .inr ⟨sw.rearm, by rw [hp],
            .notReady hops same key (tally.quiet rfl rfl rfl) restored.map_op rfl rfl⟩
      | restoreBroken _ => exact absurd rfl (whole _)

theorem Sweeping.attempts_within (h : Sweeping sw ops newer q k) : attempts newer <+: ops := by
  cases h with
  | checkOut hops _ tally _ | retire hops _ tally _ => exact tally.tried ▸ ⟨_, hops.symm⟩
  | attempt hops _ _ tally _ | complete hops _ _ tally _ | restore hops _ _ tally _ =>
      rw [tally.tried, hops]
      exact ⟨_, by rw [List.append_assoc]; rfl⟩

theorem Swept.attempts_within {stage : Stage} {rearm rearm' : Bool}
    (h : Swept stage ops newer q rearm rearm') : attempts newer <+: ops := by
  cases h with
  | all _ tally _ _ => exact tally.tried ▸ List.prefix_rfl
  | unwanted hops _ _ tally _ _ => exact tally.tried ▸ ⟨_, hops.symm⟩
  | notReady hops _ _ tally _ _ _ =>
      rw [tally.tried, hops]
      exact ⟨_, by rw [List.append_assoc]; rfl⟩

/-- A dispatch that sweeps has the lock. -/
theorem Sweeping.inside (h : Sweeping sw ops newer q k) : k.inside = true := by
  cases h <;> rfl

theorem Sweeping.sweeping? (h : Sweeping sw ops newer q k) : k.sweeping?.isSome = true := by
  cases h <;> rfl

/-! ### The whole sweep -/

/-- The dispatch sweeps, unless a sweep has ended since. -/
def Sweeps (sw : Sweep) (ops : List Operation) (newer : List Event) (s : System) (k : Dispatch) :
    Prop :=
  .dispatch k ∈ s.parties ∧ ((∀ e ∈ newer, e.endsSweep = false) →
    Sweeping sw ops newer (s.channel.queue sw.stage.direction) k)

theorem Sweeps.abides (hp : sw.pending = none) : Abides use (Sweeps sw ops) where
  join := by
    rintro newer s p k ⟨hk, sweeping⟩
    refine ⟨List.mem_append_left _ hk, fun ongoing => ?_⟩
    refine (sweeping fun e he => ongoing e (.tail _ he)).aside (fun tally => ?_) ?_
    · exact tally.quiet rfl rfl rfl
    · exact Queue.extended_nil rfl rfl
  aside := by
    rintro t newer c c' l₁ l₂ p p' x k run step other ⟨hk, sweeping⟩
    have hk' : .dispatch k ∈ l₁ ++ p' :: l₂ := by
      rcases mem_middle.mp hk with rfl | hk
      · exact absurd rfl (other k)
      · exact mem_middle.mpr (.inr hk)
    refine ⟨hk', fun ongoing => ?_⟩
    have sweeping := sweeping fun e he => ongoing e (.tail _ he)
    have locked : c.dispatching = true := run.orderly.locked hk sweeping.inside
    exact sweeping.aside (fun tally => tally.aside other)
      (step.extended other locked (run.orderly.next step))
  own := by
    rintro t newer c c' l₁ l₂ x k k' run step inside fits whole ⟨hk, sweeping⟩
    refine ⟨mem_middle.mpr (.inl rfl), fun ongoing => ?_⟩
    have sweeping := sweeping fun e he => ongoing e (.tail _ he)
    rcases step.sweeping_or_swept whole hp sweeping _ with goes_on | ⟨rearm, rfl, -⟩
    · exact goes_on
    · have ends := ongoing _ (.head _)
      rw [Event.endsSweep, sweeping.sweeping?] at ends
      cases ends

/-- A dispatch comes to the queue of a stage. -/
def Event.entersStage (stage : Stage) (rest : List Stage) (rearm : Bool) (q : Queue) : Event → Prop
  | acted s (.dispatch k) _ _ =>
    k = .sweep (stage :: rest) rearm none ∧ s.channel.queue stage.direction = q
  | _ => False

theorem Event.queue_of_entersStage {stage : Stage} {rest : List Stage} {rearm : Bool}
    (h : e.entersStage stage rest rearm q) : e.system.channel.queue stage.direction = q := by
  unfold entersStage at h
  split at h
  · exact h.2
  · exact h.elim

/-- Where a dispatch stands after its step. -/
def Event.dispatch? : Event → Option Dispatch
  | acted _ _ _ (.dispatch k) => some k
  | _ => none

section whole
variable {stage : Stage} {rest : List Stage} {rearm : Bool} {begin : Event}
  (enters : begin.entersStage stage rest rearm q)
include enters

/-- A queue that was stopped is passed over; it is empty. -/
theorem Run.passed_over (run : Run use (begin :: older) s) (stopped : q.isStopped = true) :
    q.entries = [] ∧ begin.dispatch? = some (.sweep rest rearm none) := by
  cases run with
  | join _ _ _ _ => cases enters
  | @act _ c l₁ l₂ p run x turn yields =>
      obtain ⟨c', p', lines⟩ := turn
      have step : p.Step c x c' p' := Party.step_of_yields yields
      cases step with
      | dispatch step =>
          obtain ⟨rfl, rfl⟩ := enters
          refine ⟨(run.orderly.valid stage.direction).emptied stopped, ?_⟩
          cases step with
          | sweepStopped _ => rfl
          | sweepBegun used => cases stopped.symm.trans used
      | _ => cases enters

/-- The sweep begins with the whole queue. -/
theorem Run.sweep_begun (run : Run use (begin :: older) s) (used : q.isStopped = false) :
    ∃ k, .dispatch k ∈ s.parties ∧ k.inside = s.channel.dispatching ∧
      Sweeps ⟨stage, q.next, rest, rearm, none⟩ q.waiting [] s k := by
  cases run with
  | join _ _ _ _ => cases enters
  | @act _ c l₁ l₂ p run x turn yields =>
      obtain ⟨c', p', lines⟩ := turn
      have step : p.Step c x c' p' := Party.step_of_yields yields
      have orderly := run.orderly
      cases step with
      | dispatch step =>
          obtain ⟨rfl, rfl⟩ := enters
          cases step with
          | sweepStopped stopped => cases used.symm.trans stopped
          | sweepBegun _ =>
              have whole := orderly.whole (.inl rfl) (d := stage.direction) rfl
              have locked : c.dispatching = true := orderly.dispatching rfl
              have divided := whole.divided (run.numbered stage.direction)
              refine ⟨_, mem_middle.mpr (.inl rfl), ?_, mem_middle.mpr (.inl rfl), fun _ => ?_⟩
              · rw [dispatching_withQueue, locked]
                rfl
              · have nothing : Tally [] [] (List.map (.ready false) []) [] := ⟨rfl, rfl, rfl⟩
                rw [queue_withQueue]
                exact .checkOut (List.nil_append _).symm rfl nothing
                  (divided.extended (Queue.extended_nil rfl rfl))
      | _ => cases enters

/-- Whoever sweeps has the lock. -/
theorem Run.held_of_ongoing (run : Run use (newer ++ begin :: older) s)
    (used : q.isStopped = false) (ongoing : ∀ e ∈ newer, e.endsSweep = false) : Held newer := by
  induction newer generalizing s with
  | nil => exact fun _ he => absurd he List.not_mem_nil
  | cons e newer ih =>
      have run : Run use ([] ++ e :: (newer ++ begin :: older)) s := run
      have ongoing' : ∀ e ∈ newer, e.endsSweep = false := fun e he => ongoing e (.tail _ he)
      have held := ih run.before ongoing'
      obtain ⟨k, -, lock, -, sweeping⟩ := (Sweeps.abides rfl).tenure run.before held
        fun s' run' => run'.sweep_begun enters used
      intro e' he
      rcases List.mem_cons.mp he with rfl | he
      · exact lock.symm.trans (sweeping ongoing').inside
      · exact held e' he

/-- As long as no sweep has ended, the dispatch sweeps. -/
theorem Run.sweeps (run : Run use (newer ++ begin :: older) s) (used : q.isStopped = false)
    (ongoing : ∀ e ∈ newer, e.endsSweep = false) :
    ∃ k, .dispatch k ∈ s.parties ∧
      Sweeping ⟨stage, q.next, rest, rearm, none⟩ q.waiting newer
        (s.channel.queue stage.direction) k := by
  obtain ⟨k, hk, -, -, sweeping⟩ := (Sweeps.abides rfl).tenure run
    (run.held_of_ongoing enters used ongoing) fun s' run' => run'.sweep_begun enters used
  exact ⟨k, hk, sweeping ongoing⟩

/-- The sweep ends. -/
theorem Run.swept (run : Run use (e :: newer ++ begin :: older) s) (used : q.isStopped = false)
    (ongoing : ∀ e ∈ newer, e.endsSweep = false) (ends : e.endsSweep = true) :
    ∃ rearm', e.dispatch? = some (.sweep rest rearm' none) ∧
      Swept stage q.waiting (e :: newer) (s.channel.queue stage.direction) rearm rearm' := by
  cases run with
  | join _ _ _ _ => cases ends
  | @act _ c l₁ l₂ p run x turn yields =>
      obtain ⟨c', p', lines⟩ := turn
      have step : p.Step c x c' p' := Party.step_of_yields yields
      obtain ⟨k, hk, sweeping⟩ := run.sweeps enters used ongoing
      have orderly := run.orderly
      have locked : c.dispatching = true := orderly.locked hk sweeping.inside
      cases step with
      | @dispatch k₀ k' _ _ step =>
          cases orderly.eq_of_inside (step.inside_of_held locked) hk sweeping.inside
          have whole := (orderly.next (.dispatch step)).1
          rcases step.sweeping_or_swept whole rfl sweeping (l₁ ++ .dispatch k :: l₂) with
            goes_on | ⟨rearm', rfl, swept⟩
          · have still := goes_on.sweeping?
            simp only [Event.endsSweep, Bool.and_eq_true, Option.isNone_iff_eq_none] at ends
            rw [ends.2] at still
            cases still
          · exact ⟨rearm', rfl, swept⟩
      | _ => cases ends

end whole

/-- A dispatch comes to a queue, and no error is pending.  A queue that was stopped is empty, and is
passed over.  Of another one, those who wait are attempted in order, each of them once and nobody
else, whoever queues up meanwhile; and when the sweep ends, it has ended as `Swept` says. -/
theorem Run.sweep_serves {stage : Stage} {rest : List Stage} {rearm : Bool} {begin : Event}
    (run : Run use t s) (ht : t = newer ++ begin :: older)
    (enters : begin.entersStage stage rest rearm q)
    (ongoing : ∀ e ∈ newer.tail, e.endsSweep = false) :
    (q.isStopped = true → q.entries = [] ∧ begin.dispatch? = some (.sweep rest rearm none)) ∧
      (q.isStopped = false → (q.waiting.map (·.ticket)).Nodup ∧ attempts newer <+: q.waiting ∧
        ∀ last between, newer = last :: between → last.endsSweep = true →
          ∃ rearm', last.dispatch? = some (.sweep rest rearm' none) ∧
            Swept stage q.waiting newer (s.channel.queue stage.direction) rearm rearm') := by
  subst ht
  obtain ⟨s', run'⟩ := run.earlier
  refine ⟨run'.passed_over enters, fun used => ⟨?_, ?_, ?_⟩⟩
  · have nodup := run.before.waiting_nodup stage.direction
    rwa [Event.queue_of_entersStage enters] at nodup
  · cases newer with
    | nil => exact List.nil_prefix
    | cons e newer =>
        cases ends : e.endsSweep with
        | true =>
            obtain ⟨rearm', -, swept⟩ := run.swept enters used ongoing ends
            exact swept.attempts_within
        | false =>
            obtain ⟨k, -, sweeping⟩ := run.sweeps enters used fun e' he =>
              (List.mem_cons.mp he).elim (fun same => same ▸ ends) (ongoing e')
            exact sweeping.attempts_within
  · rintro last between rfl ends
    exact run.swept enters used ongoing ends

/-- Two receives wait when a dispatch is told that there is something to read.  While the first one
is attempted, a third one queues up. -/
def receivesDuringSweep : List Choice :=
  [.join (.submission true (.receive 7 (.single (.whole [0])) 0 none)), .act 0 notReady,
    .act 0 notReady, .act 0 notReady, .act 0 (streams 0 []), .act 0 notReady, .act 0 notReady,
    .join (.submission true (.receive 8 (.single (.whole [0])) 0 none)), .act 1 notReady,
    .act 1 notReady, .join (.dispatch .readable), .act 2 notReady, .act 2 notReady,
    .act 2 notReady, .act 2 notReady, .act 2 notReady,
    .join (.submission true (.receive 9 (.single (.whole [0])) 0 none)), .act 3 notReady,
    .act 3 notReady, .act 2 (streams 2 []), .act 2 (streams 2 [1]), .act 2 notReady,
    .act 2 notReady, .act 2 notReady, .act 2 (streams 1 []), .act 2 (streams 1 [2]),
    .act 2 notReady, .act 2 notReady, .act 2 notReady]

/-- The first two receives are served, and the reactor is to report again for the third one. -/
theorem sweep_serves_receives : ∃ t s newer begin older q, Run Party.ThroughSocket t s ∧
    t = newer ++ begin :: older ∧ begin.entersStage .receives [] false q ∧
    (q.waiting.map (·.ticket)) = [7, 8] ∧ (arrivals .receive newer).map (·.ticket) = [9] ∧
    Swept .receives q.waiting newer (s.channel.queue .receive) false true := by
  have run := run_of_isSome (.socket 10)
    (show (replay Party.ThroughSocket (ofSocket 10) receivesDuringSweep).isSome = true by rfl)
  generalize hr : Option.get _ _ = r at run
  obtain ⟨begin, last, between, q, ht, enters, ongoing, used, first, waits, arrives, ends, again⟩ :
      ∃ begin last between q, r.1 = r.1.take 14 ++ begin :: r.1.drop 15 ∧
        begin.entersStage .receives [] false q ∧ (∀ e ∈ (r.1.take 14).tail, e.endsSweep = false) ∧
        q.isStopped = false ∧ r.1.take 14 = last :: between ∧ q.waiting.map (·.ticket) = [7, 8] ∧
        (arrivals .receive (r.1.take 14)).map (·.ticket) = [9] ∧ last.endsSweep = true ∧
        last.dispatch? = some (.sweep [] true none) := by
    rw [← hr]
    exact ⟨_, _, _, _, rfl, ⟨rfl, rfl⟩, by decide +kernel, rfl, rfl, rfl, rfl, rfl, rfl⟩
  obtain ⟨-, -, served⟩ := (run.sweep_serves ht enters ongoing).2 used
  obtain ⟨rearm, rearms, swept⟩ := served last between first ends
  cases again.symm.trans rearms
  exact ⟨r.1, r.2, _, begin, _, q, run, ht, enters, waits, arrives, swept⟩

end Channel
end Proactor
