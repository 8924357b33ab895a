import Proactor.Proofs.Control
import Proactor.Proofs.Lines
/-! # Every operation completes once

* **Accounts** (`Run.accounted`).  In each direction, what is brought, in line and scheduled is what
  was submitted: no ticket is lost, and none is served twice.
* **Places** (`System.places`).  Where the operation with a ticket is.  There is always exactly one
  such place.
* **Closing.**  When every close has returned, nothing is left in a place from which it would have
  to be fetched. -/

namespace Proactor.Channel

/-- The tickets that submissions of a direction have not handed on. -/
def System.brought (s : System) (d : Direction) : List Nat :=
  tickets d (s.parties.flatMap (·.brings))

/-- The tickets that stand in the line of a direction. -/
def System.inLine (s : System) (d : Direction) : List Nat :=
  tickets d (s.parties.flatMap (·.held) ++ s.channel.line d)

/-- The operations that were handed to the scheduler, newest first. -/
def scheduled (t : List Event) : List Operation := t.filterMap (·.scheduled?)

/-- The operations that were submitted. -/
def System.submitted (s : System) : List Operation := s.parties.filterMap (·.operation?)

/-! ### Accounts -/

theorem Moves.count {b l out b' l' : List Nat} (h : Moves b l out b' l') (n : Nat) :
    b.count n + l.count n = b'.count n + l'.count n + out.count n := by
  cases h with
  | none _ _ => simp
  | joined _ _ =>
      simp only [List.count_append, List.count_nil]
      omega
  | served _ _ =>
      simp only [List.count_append, List.count_nil]
      omega
  | finished _ _ =>
      simp only [List.count_nil]
      omega

theorem Party.Step.operation? {c c' : Channel} {p p' : Party} {x : Option (Exchange Call)}
    (h : Step c p x c' p') : p'.operation? = p.operation? := by
  cases h <;> rfl

theorem Party.Begins.held {p : Party} {attached : Bool} (h : p.Begins attached) : p.held = [] := by
  cases h <;> rfl

/-- Whoever joins submits what he brings. -/
theorem System.submitted_joined (s : System) (p : Party) :
    System.submitted ⟨s.channel, s.parties ++ [p]⟩ = s.submitted ++ p.operation?.toList := by
  cases h : p.operation? <;> simp [submitted, h]

/-- A step submits nothing. -/
theorem System.submitted_acted {c c' : Channel} {l₁ l₂ : List Party} {p p' : Party}
    {x : Option (Exchange Call)} (h : p.Step c x c' p') :
    System.submitted ⟨c', l₁ ++ p' :: l₂⟩ = System.submitted ⟨c, l₁ ++ p :: l₂⟩ := by
  simp only [submitted, List.filterMap_append, List.filterMap_cons, h.operation?]

/-- Whoever joins does not stand in line. -/
theorem System.inLine_joined {s : System} {p : Party} (h : p.Begins s.channel.attached)
    (d : Direction) : System.inLine ⟨s.channel, s.parties ++ [p]⟩ d = s.inLine d := by
  simp [inLine, h.held]

/-- A party that uses no queue holds nothing in line. -/
theorem Party.Detached.held {p : Party} (h : p.Detached) : p.held = [] := by
  cases p with
  | submission _ _ => rfl
  | attachment _ => rfl
  | dispatch d => cases d <;> first | rfl | cases h
  | closing k =>
      obtain ⟨-, hp | hp | ⟨r, hp⟩⟩ := h <;> rw [Party.held, hp] <;> rfl

theorem Run.moves {use : Party → Prop} {t : List Event} {c c' : Channel} {l₁ l₂ : List Party}
    {p p' : Party} {x : Option (Exchange Call)} (run : Run use t ⟨c, l₁ ++ p :: l₂⟩)
    (h : p.Step c x c' p') (d : Direction) :
    Moves (tickets d p.brings) (tickets d (p.held ++ c.line d)) (tickets d (handedOver x).toList)
      (tickets d p'.brings) (tickets d (p'.held ++ c'.line d)) := by
  have order := run.orderly
  have mem : p ∈ l₁ ++ p :: l₂ := by simp
  refine h.moves (order.intact p mem) (order.next h) order.valid ?_ d
  intro ha
  exact ((run.controlled.idle ha).2.2 p mem).held

/-- What is brought, in line and scheduled is what was submitted. -/
theorem Run.accounted {use : Party → Prop} {t : List Event} {s : System} (run : Run use t s)
    (d : Direction) (n : Nat) :
    (s.brought d).count n + (s.inLine d).count n + (tickets d (scheduled t)).count n =
      (tickets d s.submitted).count n := by
  induction run with
  | @start s h =>
      have hl : s.channel.line d = [] := by
        rw [line, h.queue]
        rfl
      simp [System.brought, System.inLine, System.submitted, scheduled, h.parties, hl]
  | @join t s run p begins allowed unused ih =>
      have hl := System.inLine_joined begins d
      have hb : p.brings = p.operation?.toList := by cases begins <;> rfl
      have ht : scheduled (.joined s p :: t) = scheduled t := rfl
      rw [System.submitted_joined, ht, hl]
      simp only [System.brought, List.flatMap_append, List.flatMap_singleton, hb, tickets_append,
        List.count_append] at ih ⊢
      omega
  | @act t c l₁ l₂ p run x turn yields ih =>
      have hstep := Party.step_of_yields yields
      have hm := (run.moves hstep d).count n
      have ht : scheduled (.acted ⟨c, l₁ ++ p :: l₂⟩ p x turn.phase :: t) =
          (handedOver x).toList ++ scheduled t := by
        cases hx : handedOver x <;> simp [scheduled, Event.scheduled?, hx]
      rw [System.submitted_acted hstep, ht]
      simp only [System.brought, System.inLine, List.flatMap_append, List.flatMap_cons,
        tickets_append, List.count_append] at ih hm ⊢
      omega

/-! ### One submission for each ticket -/

theorem Run.submitted_nodup {use : Party → Prop} {t : List Event} {s : System}
    (run : Run use t s) : (s.submitted.map (·.ticket)).Nodup := by
  induction run with
  | start h => simp [System.submitted, h.parties]
  | @join t s run p begins allowed unused ih =>
      rw [System.submitted_joined]
      cases ho : p.operation? with
      | none => simpa using ih
      | some op =>
          rw [Option.toList_some, List.map_append, List.nodup_append]
          refine ⟨ih, by simp, ?_⟩
          rintro n hn m hm rfl
          obtain ⟨op', ho', hn⟩ := List.mem_map.mp hn
          obtain ⟨q, hq, hop⟩ := List.mem_filterMap.mp ho'
          have he : op'.ticket = op.ticket := by simpa [hn] using hm
          cases q with
          | submission op'' s =>
              cases hop
              exact unused op ho _ hq ⟨_, _, rfl, he⟩
          | _ => cases hop
  | @act t c l₁ l₂ p run x turn yields ih =>
      rw [System.submitted_acted (Party.step_of_yields yields)]
      exact ih

/-- No other party submitted the operation of this one. -/
theorem Run.others_differ {use : Party → Prop} {t : List Event} {c : Channel} {l₁ l₂ : List Party}
    {p : Party} (run : Run use t ⟨c, l₁ ++ p :: l₂⟩) {n : Nat} (hp : p.Submits n) :
    ∀ o ∈ l₁ ++ l₂, ¬ o.Submits n := by
  have nodup := run.submitted_nodup
  rw [System.submitted, List.Nodup, List.pairwise_map, List.pairwise_filterMap,
    List.pairwise_append, List.pairwise_cons] at nodup
  obtain ⟨-, ⟨after, -⟩, before⟩ := nodup
  obtain ⟨op, sub, rfl, ho⟩ := hp
  rintro o hm ⟨op', sub', rfl, ho'⟩
  rcases List.mem_append.mp hm with hm | hm
  · exact before _ hm _ (.head _) op' rfl op rfl (ho'.trans ho.symm)
  · exact after _ hm op rfl op' rfl (ho.trans ho'.symm)

/-- At most one of the parties submitted the operation with a ticket. -/
theorem Run.sole {use : Party → Prop} {t : List Event} {s : System} (run : Run use t s)
    {p q : Party} {n : Nat} (hp : p ∈ s.parties) (hq : q ∈ s.parties) (hpn : p.Submits n)
    (hqn : q.Submits n) : p = q := by
  obtain ⟨c, parties⟩ := s
  obtain ⟨l₁, l₂, rfl⟩ := List.append_of_mem hp
  rcases mem_middle.mp hq with rfl | hq
  · rfl
  · exact absurd hqn (run.others_differ hpn q hq)

/-- The tickets of all directions are all tickets. -/
theorem count_tickets (ops : List Operation) (n : Nat) :
    (tickets .receive ops).count n + (tickets .send ops).count n +
      (tickets .connection ops).count n = (ops.map (·.ticket)).count n := by
  induction ops with
  | nil => rfl
  | cons op rest ih =>
      rw [tickets_cons .receive, tickets_cons .send, tickets_cons .connection, List.map_cons,
        List.count_cons]
      simp only [List.count_append]
      have one : (tickets .receive [op]).count n + (tickets .send [op]).count n +
          (tickets .connection [op]).count n = if op.ticket = n then 1 else 0 := by
        simp only [tickets, List.filterMap_cons, List.filterMap_nil, Operation.ticketIn]
        cases op.direction <;> simp [List.count_singleton]
      simp only [beq_iff_eq]
      omega

/-- What a submission has not handed on is brought. -/
theorem Run.brought_of_op? {use : Party → Prop} {t : List Event} {s : System} (run : Run use t s)
    {op o : Operation} {sub : Submission} {d : Direction} {n : Nat}
    (hm : .submission op sub ∈ s.parties) (ho : sub.phase.op? = some o)
    (hn : op.ticketIn d = some n) : n ∈ s.brought d := by
  have key := (run.orderly.intact _ hm).2 o ho
  refine List.mem_filterMap.mpr ⟨o, List.mem_flatMap.mpr ⟨_, hm, ?_⟩, ?_⟩
  · rw [Party.brings, ho]
    exact .head _
  · rw [Operation.ticketIn_of_key key, hn]

/-- No ticket is brought and in line at once, or twice in line. -/
theorem Run.one_ticket {use : Party → Prop} {t : List Event} {s : System} (run : Run use t s)
    (d : Direction) (n : Nat) : (s.brought d).count n + (s.inLine d).count n ≤ 1 := by
  have accounts := run.accounted d n
  have submitted := count_tickets s.submitted n
  have one : (s.submitted.map (·.ticket)).count n ≤ 1 :=
    List.nodup_iff_count.mp run.submitted_nodup n
  cases d <;> omega

/-! ### Places -/

/-- Where an operation can be. -/
inductive Place where
  /-- With the submission that brings it. -/
  | submitter
  /-- In the slot of a queue. -/
  | entry
  /-- With the dispatch that has checked it out. -/
  | checkedOut
  /-- In a list that a stop handed out, or that was parked meanwhile. -/
  | drained
  | parked
  | scheduled
deriving DecidableEq, Repr

/-- Where a dispatch keeps what it holds. -/
def Dispatch.place : Dispatch → Place
  | attempt .. | restore .. | complete .. => .checkedOut
  | _ => .drained

/-- Operations that are all in one place. -/
def placed (place : Place) (ops : List Operation) : List (Place × Operation) :=
  ops.map fun op => (place, op)

@[simp] theorem ops_placed (place : Place) (ops : List Operation) :
    (placed place ops).map (·.2) = ops := by
  simp only [placed, List.map_map]
  exact List.map_id ops

/-- What a party has, and where. -/
def Party.holdings : Party → List (Place × Operation)
  | submission _ s => placed .submitter s.phase.op?.toList
  | attachment _ => []
  | dispatch d => placed d.place d.held
  | closing k => placed .drained k.phase.held

/-- What a queue has, and where. -/
def holdings (q : Queue) : List (Place × Operation) :=
  placed .entry q.waiting ++ placed .parked q.parked

/-- Where everything is. -/
def System.holdings (t : List Event) (s : System) : List (Place × Operation) :=
  s.parties.flatMap (·.holdings) ++
    (Channel.holdings s.channel.receive ++ Channel.holdings s.channel.send ++
      Channel.holdings s.channel.connection) ++
    placed .scheduled (scheduled t)

/-- The places at which the operation with a ticket is. -/
def placesOf (n : Nat) (l : List (Place × Operation)) : List Place :=
  (l.filter (·.2.ticket = n)).map (·.1)

theorem placesOf_eq_nil {n : Nat} {l : List (Place × Operation)}
    (h : ∀ op ∈ l.map (·.2), op.ticket ≠ n) : placesOf n l = [] := by
  rw [placesOf, List.map_eq_nil_iff, List.filter_eq_nil_iff]
  intro e he
  simpa using h e.2 (List.mem_map_of_mem he)

/-- The places of the operation with a ticket. -/
def System.places (t : List Event) (s : System) (n : Nat) : List Place := placesOf n (s.holdings t)

theorem placesOf_append (n : Nat) (l₁ l₂ : List (Place × Operation)) :
    placesOf n (l₁ ++ l₂) = placesOf n l₁ ++ placesOf n l₂ := by
  rw [placesOf, List.filter_append, List.map_append]
  rfl

theorem length_placesOf (l : List (Place × Operation)) (n : Nat) :
    (placesOf n l).length = ((l.map (·.2)).map (·.ticket)).count n := by
  induction l with
  | nil => rfl
  | cons h rest ih =>
      rw [List.map_cons, List.map_cons, List.count_cons, ← ih]
      by_cases ht : h.2.ticket = n <;> simp [placesOf, ht]

theorem placesOf_placed (n : Nat) (place : Place) (ops : List Operation) :
    placesOf n (placed place ops) =
      List.replicate ((ops.map (·.ticket)).count n) place := by
  refine List.eq_replicate_iff.mpr ⟨?_, ?_⟩
  · rw [length_placesOf, ops_placed]
  · intro pl hp
    obtain ⟨h, hm, rfl⟩ := List.mem_map.mp hp
    obtain ⟨op, -, rfl⟩ := List.mem_map.mp (List.mem_filter.mp hm).1
    rfl

theorem Party.ops_holdings (p : Party) : p.holdings.map (·.2) = p.brings ++ p.held := by
  cases p with
  | submission _ s => simp [holdings, brings, held]
  | attachment _ => rfl
  | dispatch d => simp [holdings, brings, held]
  | closing k => simp [holdings, brings, held]

theorem count_parties (parties : List Party) (d : Direction) (n : Nat) :
    (tickets d ((parties.flatMap (·.holdings)).map (·.2))).count n =
      (tickets d (parties.flatMap (·.brings))).count n +
        (tickets d (parties.flatMap (·.held))).count n := by
  induction parties with
  | nil => rfl
  | cons p rest ih =>
      simp only [List.flatMap_cons, List.map_append, Party.ops_holdings, tickets_append,
        List.count_append] at ih ⊢
      omega

theorem ops_holdings (q : Queue) : (holdings q).map (·.2) = q.waiting ++ q.parked := by
  simp [holdings]

/-- There are as many places for a ticket as submissions. -/
theorem Run.length_places {use : Party → Prop} {t : List Event} {s : System} (run : Run use t s)
    (n : Nat) : (s.places t n).length = (s.submitted.map (·.ticket)).count n := by
  have valid := run.orderly.valid
  have inQueues : ∀ d, tickets d ((s.channel.receive.waiting ++ s.channel.receive.parked) ++
      (s.channel.send.waiting ++ s.channel.send.parked) ++
      (s.channel.connection.waiting ++ s.channel.connection.parked)) =
      tickets d (s.channel.line d) := by
    refine tickets_three (f := fun q => q.waiting ++ q.parked) fun d op hm => ?_
    rcases List.mem_append.mp hm with hm | hm
    · exact (valid d).waiting op hm
    · exact (valid d).parked op hm
  have each : ∀ d, (tickets d ((s.holdings t).map (·.2))).count n =
      (tickets d s.submitted).count n := by
    intro d
    have ha := run.accounted d n
    rw [System.holdings, List.map_append, List.map_append, List.map_append, List.map_append,
      ops_holdings, ops_holdings, ops_holdings, ops_placed, tickets_append, tickets_append,
      inQueues, List.count_append, List.count_append, count_parties]
    simp only [System.brought, System.inLine, tickets_append, List.count_append] at ha
    omega
  rw [System.places, length_placesOf, ← count_tickets, ← count_tickets, each, each, each]

/-- What a party has, no other party has, and no queue. -/
theorem Run.one_place {use : Party → Prop} {t : List Event} {c : Channel} {l₁ l₂ : List Party}
    {p : Party} (run : Run use t ⟨c, l₁ ++ p :: l₂⟩) {op : Operation}
    (ho : op ∈ p.brings ++ p.held) :
    (∀ o ∈ l₁ ++ l₂, ∀ op' ∈ o.brings ++ o.held, op'.ticket ≠ op.ticket) ∧
      ∀ d, ∀ op' ∈ (c.queue d).waiting, op'.ticket ≠ op.ticket := by
  have count : ∀ {l : List (Place × Operation)} {op' : Operation}, op' ∈ l.map (·.2) →
      op'.ticket = op.ticket → 0 < ((l.map (·.2)).map (·.ticket)).count op.ticket := by
    intro l op' hm ht
    exact List.count_pos_iff.mpr (ht ▸ List.mem_map_of_mem hm)
  have own : 0 < ((p.holdings.map (·.2)).map (·.ticket)).count op.ticket := by
    rw [p.ops_holdings]
    exact List.count_pos_iff.mpr (List.mem_map_of_mem ho)
  have le : (((System.holdings t ⟨c, l₁ ++ p :: l₂⟩).map (·.2)).map (·.ticket)).count
      op.ticket ≤ 1 := by
    rw [← length_placesOf]
    exact Nat.le_trans (Nat.le_of_eq (run.length_places op.ticket))
      (List.nodup_iff_count.mp run.submitted_nodup _)
  simp only [System.holdings, List.flatMap_append, List.flatMap_cons, List.map_append,
    List.count_append] at le
  constructor
  · intro o hm op' ho' ht
    have other : op' ∈ (l₁.flatMap (·.holdings)).map (·.2) ∨
        op' ∈ (l₂.flatMap (·.holdings)).map (·.2) := by
      rw [← o.ops_holdings] at ho'
      obtain ⟨h, hh, rfl⟩ := List.mem_map.mp ho'
      rcases List.mem_append.mp hm with hm | hm
      · exact .inl (List.mem_map_of_mem (List.mem_flatMap.mpr ⟨o, hm, hh⟩))
      · exact .inr (List.mem_map_of_mem (List.mem_flatMap.mpr ⟨o, hm, hh⟩))
    rcases other with hm | hm
    · have := count hm ht
      omega
    · have := count hm ht
      omega
  · intro d op' hw ht
    have waits : op' ∈ (holdings (c.queue d)).map (·.2) := by
      rw [ops_holdings]
      exact List.mem_append_left _ hw
    have := count waits ht
    cases d <;> simp only [queue] at this <;> omega

/-- Once every close has returned, and there was one, nothing is left in line. -/
theorem Run.nothing_left {use : Party → Prop} {t : List Event} {s : System} (run : Run use t s)
    (closing : ∃ k, .closing k ∈ s.parties)
    (returned : ∀ k, .closing k ∈ s.parties → (Party.closing k).HasReturned) :
    (∀ p ∈ s.parties, p.held = []) ∧ ∀ d, s.channel.line d = [] := by
  have order := run.orderly
  have control := run.controlled
  cases ha : s.channel.attached with
  | false =>
      obtain ⟨-, hq, hd⟩ := control.idle ha
      refine ⟨fun p hp => (hd p hp).held, fun d => ?_⟩
      rw [line, hq d]
      rfl
  | true =>
      have shut : s.channel.Shut := by
        obtain ⟨⟨b, phase⟩, hk⟩ := closing
        refine control.shut ha (.inr ⟨_, hk, ?_⟩)
        obtain ⟨result, hr⟩ := returned _ hk
        cases hr
        rfl
      have outside : ∀ d, .dispatch d ∈ s.parties → d.inside = false := by
        intro d hd
        have hl := order.lock
        rw [shut.dispatching] at hl
        have := List.countP_eq_zero.mp hl _ hd
        simpa [Party.inside] using this
      have idle : ∀ p ∈ s.parties, p.held = [] ∧ p.flushing = false := by
        intro p hp
        cases p with
        | submission _ _ => exact ⟨rfl, rfl⟩
        | attachment _ => exact ⟨rfl, rfl⟩
        | dispatch d =>
            have := outside d hp
            cases d <;> first | exact ⟨rfl, rfl⟩ | cases this
        | closing k =>
            obtain ⟨b, phase⟩ := k
            obtain ⟨result, hr⟩ := returned _ hp
            cases hr
            exact ⟨rfl, rfl⟩
      refine ⟨fun p hp => (idle p hp).1, fun d => ?_⟩
      have valid := order.valid d
      have waiting : (s.channel.queue d).waiting = [] := by
        rw [Queue.waiting, valid.emptied (shut.stopped d)]
        rfl
      have parked : (s.channel.queue d).parked = [] := by
        refine Decidable.byContradiction fun hp => ?_
        obtain ⟨p, hp, hf⟩ := control.flushing d (valid.parks hp)
        rw [(idle p hp).2] at hf
        cases hf
      rw [line, waiting, parked]
      rfl

/-- The step hands the operation with a ticket to the scheduler. -/
def Event.schedules (n : Nat) (e : Event) : Bool := e.scheduled?.any (·.ticket == n)

theorem countP_schedules (t : List Event) (n : Nat) :
    t.countP (·.schedules n) = ((scheduled t).map (·.ticket)).count n := by
  induction t with
  | nil => rfl
  | cons e rest ih =>
      rw [List.countP_cons, ih]
      cases he : e.scheduled? with
      | none => simp [Event.schedules, he, scheduled]
      | some op => simp [Event.schedules, he, scheduled, List.count_cons]

theorem count_submitted {use : Party → Prop} {t : List Event} {s : System} (run : Run use t s)
    {n : Nat} (h : ∃ p ∈ s.parties, p.Submits n) :
    (s.submitted.map (·.ticket)).count n = 1 := by
  obtain ⟨_, hp, op, sub, rfl, rfl⟩ := h
  have mem : op.ticket ∈ s.submitted.map (·.ticket) :=
    List.mem_map_of_mem (List.mem_filterMap.mpr ⟨_, hp, rfl⟩)
  rw [run.submitted_nodup.count, if_pos mem]

/-- A submission that holds the operation with a ticket is the one that submitted it. -/
theorem Run.submits_of_brings {use : Party → Prop} {t : List Event} {s : System}
    (run : Run use t s) {p : Party} (hp : p ∈ s.parties) {op : Operation} (ho : op ∈ p.brings) :
    p.Submits op.ticket ∧ ¬ p.HasReturned := by
  have intact := run.orderly.intact p hp
  cases p with
  | submission op' sub =>
      have ho : sub.phase.op? = some op := by simpa [Party.brings] using ho
      refine ⟨⟨op', sub, rfl, (Operation.ticket_eq_of_key (intact.2 op ho)).symm⟩, ?_⟩
      rintro ⟨answer, ha⟩
      rw [ha] at ho
      cases ho
  | _ => cases ho

/-- What was scheduled has a place of its own for every time. -/
theorem places_eq (t : List Event) (s : System) (n : Nat) :
    s.places t n = placesOf n (s.parties.flatMap (·.holdings)) ++
      placesOf n (holdings s.channel.receive ++ holdings s.channel.send ++
        holdings s.channel.connection) ++ List.replicate (t.countP (·.schedules n)) .scheduled := by
  rw [System.places, System.holdings, placesOf_append, placesOf_append, placesOf_placed,
    countP_schedules]

theorem Run.countP_schedules_le {use : Party → Prop} {t : List Event} {s : System}
    (run : Run use t s) (n : Nat) :
    t.countP (·.schedules n) ≤ (s.submitted.map (·.ticket)).count n := by
  have length := run.length_places n
  rw [places_eq] at length
  simp only [List.length_append, List.length_replicate] at length
  omega

/-- An operation is scheduled at most once. -/
theorem Run.scheduled_nodup {use : Party → Prop} {t : List Event} {s : System}
    (run : Run use t s) : ((scheduled t).map (·.ticket)).Nodup := by
  refine List.nodup_iff_count.mpr fun n => ?_
  rw [← countP_schedules]
  exact Nat.le_trans (run.countP_schedules_le n) (List.nodup_iff_count.mp run.submitted_nodup n)

theorem filter_of_countP_schedules {t : List Event} {n : Nat}
    (h : t.countP (·.schedules n) = 1) : ∃ op, (scheduled t).filter (·.ticket == n) = [op] := by
  rw [countP_schedules, List.count_eq_countP, List.countP_map, List.countP_eq_length_filter] at h
  exact List.length_eq_one_iff.mp h

/-- What was scheduled is the only thing that was scheduled under its ticket. -/
theorem Run.filter_scheduled {use : Party → Prop} {t : List Event} {s : System}
    (run : Run use t s) {op : Operation} (h : op ∈ scheduled t) :
    (scheduled t).filter (·.ticket == op.ticket) = [op] := by
  have once : t.countP (·.schedules op.ticket) = 1 := by
    rw [countP_schedules]
    exact run.scheduled_nodup.count.trans (if_pos (List.mem_map_of_mem h))
  obtain ⟨o, only⟩ := filter_of_countP_schedules once
  have mem : op ∈ (scheduled t).filter (·.ticket == op.ticket) :=
    List.mem_filter.mpr ⟨h, beq_self_eq_true _⟩
  rw [only, List.mem_singleton] at mem
  rw [only, mem]

/-- An operation that was submitted is in exactly one place, so it is scheduled at most once.  When
its submission has returned, and every close, of which there is one, then it has been scheduled. -/
theorem Run.exactly_once {use : Party → Prop} {t : List Event} {s : System} (run : Run use t s)
    {n : Nat} (submitted : ∃ p ∈ s.parties, p.Submits n) :
    (∃ place, s.places t n = [place]) ∧ t.countP (·.schedules n) ≤ 1 ∧
      ((∀ p ∈ s.parties, p.Submits n → p.HasReturned) → (∃ k, .closing k ∈ s.parties) →
        (∀ k, .closing k ∈ s.parties → (Party.closing k).HasReturned) →
          s.places t n = [.scheduled] ∧ t.countP (·.schedules n) = 1) := by
  have length : (s.places t n).length = 1 :=
    (run.length_places n).trans (count_submitted run submitted)
  have atMost : t.countP (·.schedules n) ≤ 1 :=
    count_submitted run submitted ▸ run.countP_schedules_le n
  refine ⟨List.length_eq_one_iff.mp length, atMost, ?_⟩
  intro returned closing closed
  obtain ⟨held, line⟩ := run.nothing_left closing closed
  have inParties : placesOf n (s.parties.flatMap (·.holdings)) = [] := by
    refine placesOf_eq_nil fun op ho ht => ?_
    obtain ⟨h, hm, rfl⟩ := List.mem_map.mp ho
    obtain ⟨p, hp, hm⟩ := List.mem_flatMap.mp hm
    have hm := List.mem_map_of_mem (f := (·.2)) hm
    rw [p.ops_holdings, held p hp, List.append_nil] at hm
    obtain ⟨hs, hr⟩ := run.submits_of_brings hp hm
    exact hr (returned p hp (ht ▸ hs))
  have inQueues : placesOf n (holdings s.channel.receive ++ holdings s.channel.send ++
      holdings s.channel.connection) = [] := by
    refine placesOf_eq_nil fun op ho _ => ?_
    have hr := line .receive
    have hs := line .send
    have hc := line .connection
    simp only [Channel.line, queue] at hr hs hc
    simp [ops_holdings, hr, hs, hc] at ho
  have only := places_eq t s n
  rw [inParties, inQueues, List.nil_append, List.nil_append] at only
  have once : t.countP (·.schedules n) = 1 := by
    rw [only, List.length_replicate] at length
    exact length
  rw [once] at only
  exact ⟨only, once⟩

/-- An accept that was not ready, and a close after it. -/
def acceptThenClose : List Choice :=
  [.join (.submission true (.accept 7 default)), .act 0 notReady, .act 0 notReady, .act 0 notReady,
    .act 0 notReady, .act 0 notReady, .join (.closing true), .act 1 notReady, .act 1 notReady,
    .act 1 notReady, .act 1 notReady, .act 1 notReady, .act 1 notReady]

theorem exactly_once_accept : ∃ t s, Run (fun _ => True) t s ∧ s.places t 7 = [.scheduled] ∧
    t.countP (·.schedules 7) = 1 := by
  have runs : (replay (fun _ => True) (ofSocket 10) acceptThenClose).isSome = true := by rfl
  have run := run_of_isSome (.socket 10) runs
  generalize hr : (replay (fun _ => True) (ofSocket 10) acceptThenClose).get runs = r at run
  have parties : r.2.parties = [.submission (.accept 7 default) ⟨true, .answered .pending⟩,
      .closing ⟨true, .ended (.ok ())⟩] := by
    rw [← hr]
    rfl
  refine ⟨r.1, r.2, run, ?_⟩
  refine (run.exactly_once ⟨_, by rw [parties]; exact .head _, _, _, rfl, rfl⟩).2.2 ?_ ?_ ?_
  · intro p hp hs
    rw [parties] at hp
    rcases List.mem_cons.mp hp with rfl | hp
    · exact ⟨_, rfl⟩
    · obtain ⟨op, sub, rfl, -⟩ := hs
      cases List.mem_singleton.mp hp
  · exact ⟨_, by rw [parties]; exact .tail _ (.head _)⟩
  · intro k hk
    rw [parties] at hk
    rcases List.mem_cons.mp hk with hk | hk
    · cases hk
    · cases List.mem_singleton.mp hk
      exact ⟨_, rfl⟩

end Proactor.Channel
