import Proactor.Proofs.Draining
/-! # Operations that are submitted in turn

Operations of one direction that are submitted one after another through a socket are attempted one
after another, too.

* **In turn** (`InTurn`).  A submission of the direction begins when those before it have returned.
  So at most one of them is under way (`Run.one_brought`), and past the gate it has nobody before it
  in the line (`Run.line_clear`).
* **Serving** (`Party.Serves`).  A party has an operation past the gate, or out of its queue.  At
  most one party serves operations of the direction (`Run.one_serves`). -/

namespace Proactor.Channel

def Submission.Phase.isAnswered : Submission.Phase → Bool
  | answered _ => true
  | _ => false

/-- Whoever submitted an operation of the direction has been answered. -/
def Party.idle (d : Direction) : Party → Bool
  | submission op s => op.direction != d || s.phase.isAnswered
  | _ => true

/-- A submission of the direction begins only when all earlier ones have been answered. -/
def Event.inTurn (d : Direction) : Event → Bool
  | joined s (.submission op _) => op.direction != d || s.parties.all (·.idle d)
  | _ => true

/-- The operations of the direction are submitted one after another. -/
def InTurn (d : Direction) (t : List Event) : Prop := ∀ e ∈ t, e.inTurn d = true

/-- The operation that a party has done and is about to schedule. -/
def Party.done? : Party → Option Operation
  | submission _ ⟨_, .complete op⟩ => some op
  | dispatch (.forced op _ _ _) | dispatch (.complete op _) => some op
  | _ => none

/-- The party completes what was handed out. -/
def Party.flush? : Party → Option Flush
  | dispatch (.flush f _ _) | closing ⟨_, .flush f _⟩ => some f
  | _ => none

/-- The operation that a party attempts, or that it has done. -/
def Party.current? (p : Party) : Option Operation := (p.attempt?.map (·.op)).or p.done?

/-- The party brings an operation past the gate, or it has carried it out of a queue. -/
inductive Party.Serves : Party → Operation → Prop
  | submission {o op : Operation} {sub : Submission} (held : sub.phase.op? = some op)
      (past : sub.phase.atGate = false) : Serves (.submission o sub) op
  | carrier {p : Party} {op : Operation} (carries : p.carries = true) (held : op ∈ p.held) :
      Serves p op

variable {c c' : Channel} {l₁ l₂ : List Party} {p p' : Party} {x : Option (Exchange Call)}
  {t newer older : List Event} {s : System} {d : Direction} {op o : Operation}

theorem InTurn.earlier (h : InTurn d (newer ++ older)) : InTurn d older :=
  fun e he => h e (List.mem_append_right _ he)

theorem InTurn.tail {e : Event} (h : InTurn d (e :: t)) : InTurn d t :=
  fun e' he => h e' (.tail _ he)

theorem InTurn.answered {o : Operation} {sub sub' : Submission}
    (h : InTurn d (.joined s (.submission op sub) :: t)) (hd : op.direction = d)
    (ho : o.direction = d) (hm : .submission o sub' ∈ s.parties) :
    sub'.phase.isAnswered = true := by
  have turn := h _ (.head _)
  simp only [Event.inTurn, hd, bne_self_eq_false, Bool.false_or, List.all_eq_true] at turn
  simpa [Party.idle, ho] using turn _ hm

theorem tickets_eq_nil_iff {ops : List Operation} :
    tickets d ops = [] ↔ ∀ op ∈ ops, op.direction ≠ d := by
  rw [tickets, List.filterMap_eq_nil_iff]
  refine forall₂_congr fun op _ => ?_
  by_cases h : op.direction = d <;> simp [Operation.ticketIn, h]

theorem Moves.brings_le {b l out b' l' : List Nat} (h : Moves b l out b' l') :
    b'.length ≤ b.length := by
  cases h <;> simp

/-- Whoever goes on bringing an operation leaves the line alone. -/
theorem Moves.of_brings {b l out b' l' : List Nat} (h : Moves b l out b' l') (hb : b' ≠ []) :
    b' = b ∧ l' = l := by
  cases h with
  | none _ _ => exact ⟨rfl, rfl⟩
  | joined _ _ | served _ _ | finished _ _ => exact absurd rfl hb

/-- An empty line stays empty unless somebody joins it. -/
theorem Moves.line_eq_nil {b l out b' l' : List Nat} (h : Moves b l out b' l') (hl : l = [])
    (hb : b = []) : l' = [] := by
  cases h with
  | none _ _ | finished _ _ => exact hl
  | joined _ _ => rw [hl, hb]; rfl
  | served _ _ => exact (List.append_eq_nil_iff.mp hl).2

/-! ### One submission at a time -/

/-- What a submission holds is of the direction of the operation that it brings. -/
theorem direction_of_held {sub : Submission} (intact : (Party.submission o sub).Intact)
    (held : sub.phase.op? = some op) : op.direction = o.direction :=
  Operation.direction_eq_of_key (intact.2 op held)

theorem tickets_brings {sub : Submission} (intact : (Party.submission o sub).Intact)
    (hd : o.direction = d) (held : sub.phase.op? = some op) :
    tickets d (Party.submission o sub).brings ≠ [] := by
  simp [Party.brings, held, tickets, Operation.ticketIn, direction_of_held intact held, hd]

/-- Where every submission of the direction was answered, none is under way. -/
theorem Run.brought_eq_nil (run : Run Party.ThroughSocket t s)
    (answered : ∀ o sub, o.direction = d → .submission o sub ∈ s.parties →
      sub.phase.isAnswered = true) : s.brought d = [] := by
  refine tickets_eq_nil_iff.mpr fun op ho hd => ?_
  obtain ⟨p, hp, hop⟩ := List.mem_flatMap.mp ho
  obtain ⟨⟨o, ⟨g, phase⟩, rfl, -⟩, -⟩ := run.submits_of_brings hp hop
  have held : phase.op? = some op := by simpa [Party.brings] using hop
  have same := (direction_of_held (run.orderly.intact _ hp) held).symm.trans hd
  have returned := answered o _ same hp
  cases phase with
  | answered a => cases held
  | _ => cases returned

/-- At most one submission of the direction is under way. -/
theorem Run.one_brought (run : Run Party.ThroughSocket t s) (inTurn : InTurn d t) :
    (s.brought d).length ≤ 1 := by
  induction run with
  | start first => simp [System.brought, first.parties]
  | @join t s run p begins allowed unused ih =>
      have before := ih inTurn.tail
      have split : System.brought ⟨s.channel, s.parties ++ [p]⟩ d =
          s.brought d ++ tickets d p.brings := by
        simp [System.brought, tickets_append]
      rw [split, List.length_append]
      have fresh : tickets d p.brings = [] ∨ s.brought d = [] := by
        cases begins with
        | socketSubmission op | submission op _ =>
            by_cases hd : op.direction = d
            · exact .inr (run.brought_eq_nil fun _ _ => inTurn.answered hd)
            · exact .inl (tickets_eq_nil_iff.mpr fun o ho => by
                cases List.mem_singleton.mp ho
                exact hd)
        | _ => exact .inl rfl
      have one : (tickets d p.brings).length ≤ 1 := by
        cases begins <;> first | exact length_tickets_toList d (some _) | exact Nat.zero_le 1
      rcases fresh with h | h
      · rw [h]
        exact before
      · rw [h]
        simpa using one
  | @act t c l₁ l₂ p run x turn yields ih =>
      have before := ih inTurn.tail
      have moves := run.moves (Party.step_of_yields yields) d
      have less := moves.brings_le
      simp only [System.brought, List.flatMap_append, List.flatMap_cons, tickets_append,
        List.length_append] at before ⊢
      omega

/-- Of two parties at most one brings an operation of the direction. -/
theorem brings_apart {q : Party} (h : (System.brought ⟨c, l₁ ++ p :: l₂⟩ d).length ≤ 1)
    (hq : q ∈ l₁ ++ l₂) (brings : tickets d q.brings ≠ []) : tickets d p.brings = [] := by
  have part : ∀ {l : List Party}, q ∈ l → 0 < (tickets d (l.flatMap (·.brings))).length := by
    intro l hl
    obtain ⟨a, b, rfl⟩ := List.append_of_mem hl
    have := List.length_pos_iff.mpr brings
    simp only [List.flatMap_append, List.flatMap_cons, tickets_append, List.length_append]
    omega
  simp only [System.brought, List.flatMap_append, List.flatMap_cons, tickets_append,
    List.length_append] at h
  refine List.eq_nil_of_length_eq_zero ?_
  rcases List.mem_append.mp hq with hl | hl
  · have := part hl
    omega
  · have := part hl
    omega

theorem Submission.Step.op? {s s' : Submission} (h : Submission.Step c s x c' s') :
    ∃ op, s.phase.op? = some op := by
  cases h <;> exact ⟨_, rfl⟩

/-- Nobody stands in line while a submission of the direction is past the gate. -/
theorem Run.line_clear (run : Run Party.ThroughSocket t s) (inTurn : InTurn d t) {sub : Submission}
    (hm : .submission o sub ∈ s.parties) (hd : o.direction = d) (held : sub.phase.op? = some op)
    (past : sub.phase.atGate = false) : s.inLine d = [] := by
  induction run generalizing sub op with
  | start first => simp [first.parties] at hm
  | @join t s run p begins allowed unused ih =>
      rw [System.inLine_joined begins]
      rcases List.mem_append.mp hm with hm | hm
      · exact ih inTurn.tail hm held past
      · cases List.mem_singleton.mp hm
        cases begins <;> cases past
  | @act t c l₁ l₂ p run x turn yields ih =>
      have step := Party.step_of_yields yields
      have moves := run.line_moves (run.act yields) step d
      rcases mem_middle.mp hm with hm | hm
      · -- The submission itself goes on bringing its operation, so it does not join the line.
        have intact := run.orderly.next step
        rw [← hm] at step moves intact ⊢
        rw [(moves.of_brings (tickets_brings intact hd held)).2]
        cases step with
        | @submission _ before _ _ _ h =>
            obtain ⟨op', held'⟩ := h.op?
            cases gate : before.phase.atGate with
            | false => exact ih inTurn.tail (by simp) held' gate
            | true =>
                have same := direction_of_held
                  (run.orderly.intact (.submission o before) (by simp)) held'
                rcases h.atGate gate held' with ⟨-, still | done⟩ | idle
                · rw [past] at still
                  cases still
                · rw [held] at done
                  cases done
                · exact run.inLine_of_idle (same.trans hd ▸ idle)
      · have clear := ih inTurn.tail (mem_middle.mpr (.inr hm)) held past
        have intact := run.orderly.intact _ (mem_middle.mpr (.inr hm))
        exact moves.line_eq_nil clear
          (brings_apart (run.one_brought inTurn.tail) hm (tickets_brings intact hd held))

/-! ### One operation at a time -/

theorem Dispatch.done?_route (events : Readiness) (pending : Option Status) :
    (Party.dispatch (route events pending)).done? = none := by
  rcases route_cases events pending with h | ⟨todo, h⟩ | ⟨todo, h⟩ <;> rw [h] <;> rfl

/-- What a party attempts or has done, it serves. -/
theorem Party.serves_of_current (h : p.current? = some op) : p.Serves op := by
  cases p with
  | submission o sub =>
      obtain ⟨g, phase⟩ := sub
      cases phase with
      | attempt a early =>
          cases h
          exact .submission rfl rfl
      | complete o' =>
          cases h
          exact .submission rfl rfl
      | _ => cases h
  | attachment a => cases h
  | dispatch k =>
      cases k with
      | forcing a ops _ _ | forced o ops _ _ | attempt a s | complete o s =>
          cases h
          exact .carrier rfl (.head _)
      | _ => cases h
  | closing k => cases h

theorem Party.serves_of_done (h : p.done? = some op) : p.Serves op := by
  refine serves_of_current ?_
  unfold current?
  rw [h]
  cases p with
  | submission o s =>
      obtain ⟨g, phase⟩ := s
      cases phase <;> first | rfl | cases h
  | dispatch k => cases k <;> first | rfl | cases h
  | _ => cases h

/-- Whoever completes what was handed out carries it, and has no head and nothing else. -/
theorem Party.carries_of_flush {f : Flush} (h : p.flush? = some f) :
    p.carries = true ∧ p.held = f.held ∧ p.done? = none ∧ ∀ d, p.out d = false := by
  cases p with
  | dispatch k =>
      cases k with
      | flush f' _ _ =>
          cases h
          exact ⟨rfl, rfl, rfl, fun _ => rfl⟩
      | _ => cases h
  | closing k =>
      obtain ⟨b, phase⟩ := k
      cases phase with
      | flush f' _ =>
          cases h
          exact ⟨rfl, rfl, rfl, fun _ => rfl⟩
      | _ => cases h
  | _ => cases h

/-- What is handed to the scheduler was done, or it was held and is turned away. -/
theorem Party.Step.serves (h : Party.Step c p x c' p') (hx : Channel.handedOver x = some op) :
    p.done? = some op ∨ ∃ o f, op = o.withStatus .shutdown ∧ p.flush? = some f ∧ o ∈ f.held := by
  have flush : ∀ {f f' : Flush}, Flush.Step c f x c' f' →
      ∃ o, op = o.withStatus .shutdown ∧ o ∈ f.held := by
    intro f f' hf
    cases hf with
    | completed =>
        cases hx
        exact ⟨_, rfl, .head _⟩
    | emptied | settled _ | parked _ => cases hx
  cases h with
  | submission h =>
      cases h with
      | completed =>
          cases hx
          exact .inl rfl
      | _ => cases hx
  | attachment h => cases h <;> cases hx
  | dispatch h =>
      cases h with
      | forced | completed =>
          cases hx
          exact .inl rfl
      | flushing hf =>
          obtain ⟨o, ho, held⟩ := flush hf
          exact .inr ⟨o, _, ho, rfl, held⟩
      | hungUp _ hl => cases hl <;> cases hx
      | _ => cases hx
  | closing h =>
      cases h with
      | flushing hf =>
          obtain ⟨o, ho, held⟩ := flush hf
          exact .inr ⟨o, _, ho, rfl, held⟩
      | stopped _ _ _ hl => cases hl <;> cases hx
      | _ => cases hx

/-- While a submission of the direction is past the gate, nobody holds anything of it. -/
theorem Run.not_held (run : Run Party.ThroughSocket t s) (inTurn : InTurn d t) {r b : Operation}
    {sub : Submission} (hm : .submission r sub ∈ s.parties) (hd : r.direction = d)
    (held : sub.phase.op? = some op) (past : sub.phase.atGate = false) {q : Party}
    (hq : q ∈ s.parties) (hb : b ∈ q.held) : b.direction ≠ d := by
  intro hdb
  have inLine : b.ticket ∈ s.inLine d :=
    System.mem_inLine hq (List.mem_filterMap.mpr ⟨b, hb, Operation.ticketIn_self hdb⟩)
  rw [run.line_clear inTurn hm hd held past] at inLine
  cases inLine

/-- At most one party serves operations of the direction. -/
theorem Run.one_serves (run : Run Party.ThroughSocket t ⟨c, l₁ ++ p :: l₂⟩) (inTurn : InTurn d t)
    (serves : p.Serves op) (hd : op.direction = d) {q : Party} (hq : q ∈ l₁ ++ l₂)
    (other : q.Serves o) : o.direction ≠ d := by
  intro ho
  have intact := run.orderly.intact
  have here : p ∈ l₁ ++ p :: l₂ := mem_middle.mpr (.inl rfl)
  have mem : q ∈ l₁ ++ p :: l₂ := mem_middle.mpr (.inr hq)
  have direction : ∀ {r : Operation} {sub : Submission} {a : Operation},
      .submission r sub ∈ l₁ ++ p :: l₂ → sub.phase.op? = some a → a.direction = d →
        r.direction = d :=
    fun hr held ha => (direction_of_held (intact _ hr) held).symm.trans ha
  cases serves with
  | submission held₁ past₁ =>
      cases other with
      | submission held₂ past₂ =>
          exact tickets_brings (intact _ here) (direction here held₁ hd) held₁
            (brings_apart (run.one_brought inTurn) hq
              (tickets_brings (intact _ mem) (direction mem held₂ ho) held₂))
      | carrier _ held₂ =>
          exact run.not_held inTurn here (direction here held₁ hd) held₁ past₁ mem held₂ ho
  | carrier carries₁ held₁ =>
      cases other with
      | submission held₂ past₂ =>
          exact run.not_held inTurn mem (direction mem held₂ ho) held₂ past₂ here held₁ hd
      | carrier carries₂ _ =>
          rw [run.alone carries₁ q hq] at carries₂
          cases carries₂

end Proactor.Channel
