import Proactor.Proofs.Order
/-! # What the kernel takes of the sends

The bytes that the kernel takes, in the order in which it takes them.

* **The stream** (`stream`).  Each byte with the ticket of its send; `Torn` if a byte of one send
  stands between two bytes of another.
* **Beside the line** (`System.Aside`).  A submission attempts its operation without a place in the
  line.  All others who send are first in line (`Run.taken`).
* **Meetings** (`System.Meet`).  One of two operations is attempted beside the line while the other
  one is attempted too, or stands in line.  A send that has begun is torn only by one that it meets;
  and if both are about to offer bytes, it can be. -/

namespace Proactor.Channel

/-! ### The stream -/

/-- The attempt that goes on with the next step of a party. -/
def Party.attempt? : Party → Option Attempt
  | submission _ ⟨_, .attempt a _⟩ => some a
  | dispatch (.attempt a _) | dispatch (.forcing a _ _ _) => some a
  | _ => none

/-- The bytes that the kernel takes in an event, each with the ticket of its operation. -/
def Event.taken : Event → List (Nat × UInt8)
  | acted _ p (some ⟨.system (.send _ pieces _ _), answer⟩) _ =>
    match p.attempt?, (answer : Except Int Nat) with
    | some a, .ok n => (pieces.flatten.take n).map fun byte => (a.op.ticket, byte)
    | _, _ => []
  | _ => []

/-- The bytes that the kernel took, the first one first. -/
def stream : List Event → List (Nat × UInt8)
  | [] => []
  | e :: older => stream older ++ e.taken

/-- The tickets to which the bytes belong. -/
def owners (t : List Event) : List Nat := (stream t).map (·.1)

/-- A byte of `b` stands between two bytes of `a`. -/
def Torn (a b : Nat) (t : List Event) : Prop := [a, b, a].Sublist (owners t)

instance (a b : Nat) (t : List Event) : Decidable (Torn a b t) :=
  inferInstanceAs (Decidable ([a, b, a].Sublist (owners t)))

theorem owners_cons (e : Event) (t : List Event) :
    owners (e :: t) = owners t ++ e.taken.map (·.1) := List.map_append

/-! ### Beside the line -/

/-- The submission attempts its operation, which has no place in the line. -/
def Submission.Phase.aside : Submission.Phase → Bool
  | attempt _ _ | attach _ true | enlist _ => true
  | _ => false

/-- The operation with ticket `n` is attempted by its own submission. -/
def System.Aside (s : System) (d : Direction) (n : Nat) : Prop :=
  ∃ op sub, .submission op sub ∈ s.parties ∧ op.ticketIn d = some n ∧ sub.phase.aside = true

/-- The operation with ticket `n` has passed the gate and is not finished. -/
def System.Admitted (s : System) (d : Direction) (n : Nat) : Prop := s.Aside d n ∨ n ∈ s.inLine d

/-- One of two operations is attempted beside the line while the other one is admitted. -/
def System.Meet (s : System) (d : Direction) (a b : Nat) : Prop :=
  (s.Aside d a ∧ s.Admitted d b) ∨ (s.Aside d b ∧ s.Admitted d a)

variable {c c' : Channel} {l₁ l₂ : List Party} {p p' : Party} {x : Option (Exchange Call)}
  {t : List Event} {s : System} {d : Direction} {a b n : Nat}

theorem Submission.Phase.atGate_or_aside {phase : Submission.Phase} {op : Operation}
    (h : phase.op? = some op) :
    phase.atGate = true ∨ phase.aside = true ∨ phase = .complete op := by
  cases phase with
  | enter _ | offer _ => exact .inl rfl
  | attach _ tried =>
      cases tried with
      | true => exact .inr (.inl rfl)
      | false => exact .inl rfl
  | attempt _ _ | enlist _ => exact .inr (.inl rfl)
  | complete _ => exact .inr (.inr (congrArg _ (Option.some.inj h)))
  | answered _ | broken _ => cases h

theorem Submission.Step.aside {s s' : Submission} (h : Submission.Step c s x c' s')
    (hs : s'.phase.aside = true) : s.phase.atGate = true ∨ s.phase.aside = true := by
  cases h with
  | enterJoined _ | enterClosed _ _ | enterEarly _ _ _ | enterFirst _ _ _ | offerIdle _ _
  | offerBusy _ _ | offerStopped _ _ | offerDraining _ _ => exact .inl rfl
  | @attachDone _ _ tried _ | @attachJoined _ _ tried _ | @attachFailed _ _ tried _ _ =>
      cases tried with
      | true => exact .inr rfl
      | false => exact .inl rfl
  | attempted _ | enlistHinted _ _ | enlistWaiting _ _ | enlistStopped _ _ | enlistDraining _ _ =>
      exact .inr rfl
  | completed => cases hs

/-- No way leads back before the gate. -/
theorem Submission.Step.pastGate {s s' : Submission} (h : Submission.Step c s x c' s')
    (hs : s.phase.atGate = false) : s'.phase.atGate = false := by
  have progress : ∀ (early : Bool) (r : Progress),
      (Submission.Phase.ofProgress early r).atGate = false := by
    intro early r
    cases r with
    | calling _ | ready _ => rfl
    | notReady _ => cases early <;> rfl
  cases h with
  | enterJoined _ | enterClosed _ _ | enterEarly _ _ _ | enterFirst _ _ _ | offerIdle _ _
  | offerBusy _ _ | offerStopped _ _ | offerDraining _ _ => cases hs
  | @attachDone _ _ tried _ | @attachJoined _ _ tried _ | @attachFailed _ _ tried _ _ =>
      cases tried with
      | true => rfl
      | false => cases hs
  | attempted _ | enlistHinted _ _ => exact progress _ _
  | enlistWaiting _ _ | enlistStopped _ _ | enlistDraining _ _ | completed => rfl

/-! ### Who sends -/

/-- A party that makes the next call of an attempt asks for it. -/
theorem Party.next_of_attempt {a : Attempt} (h : p.attempt? = some a) :
    ∃ resume, p.next c = .ask (.system (a.call c.fd).request) resume := by
  unfold attempt? at h
  split at h <;> cases h <;> exact ⟨_, rfl⟩

/-- Bytes are taken of the operation that a party attempts. -/
theorem Event.attempt_of_taken {turn : Turn Channel Party} {s : System} {byte : UInt8}
    (yields : (p.next c).Yields c x turn)
    (h : (n, byte) ∈ Event.taken (.acted s p x turn.phase)) :
    ∃ a, p.attempt? = some a ∧ a.op.ticketIn .send = some n := by
  unfold taken at h
  split at h
  · next heq =>
    cases heq
    split at h
    · next a k ha =>
      obtain ⟨resume, hn⟩ := Party.next_of_attempt (c := c) ha
      obtain ⟨byte, -, hb⟩ := List.mem_map.mp h
      cases hb
      rw [hn] at yields
      obtain ⟨answer, hx⟩ := yields.exchange
      have request := congrArg Exchange.request (Option.some.inj hx)
      obtain ⟨direction, -⟩ := Attempt.offered_of_send (Call.system.inj request).symm
      exact ⟨a, ha, Operation.ticketIn_self direction⟩
    · cases h
  · cases h

/-- Whoever is not attempted beside the line sends only as the first in it. -/
theorem Run.taken {turn : Turn Channel Party} {byte : UInt8}
    (run : Run Party.ThroughSocket t ⟨c, l₁ ++ p :: l₂⟩) (yields : (p.next c).Yields c x turn)
    (h : (n, byte) ∈ Event.taken (.acted ⟨c, l₁ ++ p :: l₂⟩ p x turn.phase)) :
    System.Aside ⟨c, l₁ ++ p :: l₂⟩ .send n ∨
      ∃ rest, System.inLine ⟨c, l₁ ++ p :: l₂⟩ .send = n :: rest := by
  obtain ⟨a, ha, hn⟩ := Event.attempt_of_taken yields h
  have head : ∀ {ops : List Operation}, p.carries = true → p.held = a.op :: ops →
      ∃ rest, System.inLine ⟨c, l₁ ++ p :: l₂⟩ .send = n :: rest := by
    intro ops hc hh
    have alone : ∀ o ∈ l₁ ++ l₂, o.held = [] :=
      fun o ho => Party.held_of_not_carries (run.alone hc o ho)
    refine ⟨tickets .send (ops ++ c.line .send), ?_⟩
    rw [inLine_alone c p alone, hh, List.cons_append, tickets, List.filterMap_cons, hn]
    rfl
  unfold Party.attempt? at ha
  split at ha <;> cases ha
  · next op g early =>
    have key := (run.orderly.intact (.submission op ⟨g, .attempt a early⟩) (by simp)).2 a.op rfl
    refine .inl ⟨op, ⟨g, .attempt a early⟩, by simp, ?_, rfl⟩
    rw [← hn, Operation.ticketIn_of_key key]
  · exact .inr (head rfl rfl)
  · exact .inr (head rfl rfl)

/-! ### Before and behind the gate -/

/-- The operation with ticket `n` has been submitted, and is before the gate. -/
def System.Outside (s : System) (n : Nat) : Prop :=
  ∃ op sub, .submission op sub ∈ s.parties ∧ op.ticket = n ∧ sub.phase.atGate = true

/-- The operation with ticket `n` has been submitted, and has passed the gate. -/
def System.Passed (s : System) (n : Nat) : Prop :=
  ∃ op sub, .submission op sub ∈ s.parties ∧ op.ticket = n ∧ sub.phase.atGate = false

theorem System.Aside.passed (h : s.Aside d n) : s.Passed n := by
  obtain ⟨op, ⟨g, phase⟩, hm, hn, ha⟩ := h
  refine ⟨op, _, hm, Operation.ticket_of_ticketIn hn, ?_⟩
  cases phase with
  | attach o tried => cases tried <;> first | rfl | cases ha
  | attempt _ _ | enlist _ => rfl
  | _ => cases ha

theorem Run.not_outside {use : Party → Prop} (run : Run use t s) (h : s.Passed n) :
    ¬ s.Outside n := by
  rintro ⟨op, sub, hm, ht, hg⟩
  obtain ⟨op', sub', hm', ht', hg'⟩ := h
  cases run.sole hm hm' ⟨op, sub, rfl, ht⟩ ⟨op', sub', rfl, ht'⟩
  rw [hg] at hg'
  cases hg'

theorem Run.passed_of_inLine {use : Party → Prop} (run : Run use t s) (h : n ∈ s.inLine d) :
    s.Passed n := by
  have inLine := List.count_pos_iff.mpr h
  have accounts := run.accounted d n
  have submitted : n ∈ tickets d s.submitted := List.count_pos_iff.mp (by omega)
  obtain ⟨op, ho, hn⟩ := List.mem_filterMap.mp submitted
  obtain ⟨p, hp, hop⟩ := List.mem_filterMap.mp ho
  cases p with
  | submission op' sub =>
      cases hop
      refine ⟨op, sub, hp, Operation.ticket_of_ticketIn hn, ?_⟩
      cases hg : sub.phase.atGate with
      | false => rfl
      | true =>
          obtain ⟨o, ho⟩ := Submission.Phase.op?_of_atGate hg
          have brought := List.count_pos_iff.mpr (run.brought_of_op? hp ho hn)
          have one := run.one_ticket d n
          omega
  | _ => cases hop

theorem Run.not_inLine_of_aside {use : Party → Prop} (run : Run use t s) (h : s.Aside d n) :
    n ∉ s.inLine d := by
  obtain ⟨op, ⟨g, phase⟩, hm, hn, ha⟩ := h
  have some : ∃ o, phase.op? = some o := by
    cases phase with
    | attach o _ | attempt o _ | enlist o => exact ⟨_, rfl⟩
    | _ => cases ha
  obtain ⟨o, ho⟩ := some
  have brought := List.count_pos_iff.mpr (run.brought_of_op? hm ho hn)
  have one := run.one_ticket d n
  exact List.count_eq_zero.mp (by omega)

/-! ### Steps -/

/-- Whoever has passed the gate stays past it. -/
theorem Party.Step.passed (h : Party.Step c p x c' p')
    (hp : System.Passed ⟨c, l₁ ++ p :: l₂⟩ n) : System.Passed ⟨c', l₁ ++ p' :: l₂⟩ n := by
  obtain ⟨op, sub, hm, hn, hg⟩ := hp
  rcases mem_middle.mp hm with rfl | hm
  · cases h with
    | submission h => exact ⟨op, _, by simp, hn, h.pastGate hg⟩
  · exact ⟨op, sub, mem_middle.mpr (.inr hm), hn, hg⟩

theorem Party.Step.aside (h : Party.Step c p x c' p')
    (ha : System.Aside ⟨c', l₁ ++ p' :: l₂⟩ d n) :
    System.Aside ⟨c, l₁ ++ p :: l₂⟩ d n ∨ System.Outside ⟨c, l₁ ++ p :: l₂⟩ n := by
  obtain ⟨op, sub, hm, hn, ha⟩ := ha
  rcases mem_middle.mp hm with rfl | hm
  · cases h with
    | @submission _ sub₀ _ _ _ h =>
        rcases h.aside ha with hg | ha
        · exact .inr ⟨op, sub₀, by simp, Operation.ticket_of_ticketIn hn, hg⟩
        · exact .inl ⟨op, sub₀, by simp, hn, ha⟩
  · exact .inl ⟨op, sub, mem_middle.mpr (.inr hm), hn, ha⟩

theorem Moves.line {b l out b' l' : List Nat} (h : Moves b l out b' l') :
    l'.Sublist l ∨ (b ≠ [] ∧ out = [] ∧ b' = [] ∧ l' = l ++ b) := by
  cases h with
  | none _ _ | finished _ _ => exact .inl (List.Sublist.refl _)
  | served _ _ => exact .inl (List.sublist_append_right _ _)
  | joined _ _ =>
      by_cases hb : b = []
      · rw [hb, List.append_nil]
        exact .inl (List.Sublist.refl _)
      · exact .inr ⟨hb, rfl, rfl, rfl⟩

/-- Whoever comes to stand in line joins it at its end, from beside it or from before the gate, and
without a call. -/
theorem Run.joins {e : Event} (run : Run Party.ThroughSocket t ⟨c, l₁ ++ p :: l₂⟩)
    (run' : Run Party.ThroughSocket (e :: t) ⟨c', l₁ ++ p' :: l₂⟩) (h : p.Step c x c' p') :
    (System.inLine ⟨c', l₁ ++ p' :: l₂⟩ d).Sublist (System.inLine ⟨c, l₁ ++ p :: l₂⟩ d) ∨
      ∃ n, System.inLine ⟨c', l₁ ++ p' :: l₂⟩ d = System.inLine ⟨c, l₁ ++ p :: l₂⟩ d ++ [n] ∧
        x = none ∧
          (System.Aside ⟨c, l₁ ++ p :: l₂⟩ d n ∨ System.Outside ⟨c, l₁ ++ p :: l₂⟩ n) := by
  rcases (run.line_moves run' h d).line with sublist | ⟨hb, hx, hb', joined⟩
  · exact .inl sublist
  obtain ⟨n, mem⟩ := List.exists_mem_of_ne_nil _ hb
  obtain ⟨o, ho, hn⟩ := List.mem_filterMap.mp mem
  cases h with
  | @submission op sub _ _ _ h =>
      have hop : sub.phase.op? = some o := Option.mem_toList.mp ho
      have key := (run.orderly.intact (.submission op sub) (by simp)).2 o hop
      have ticket : op.ticketIn d = some n := by rw [← hn, Operation.ticketIn_of_key key]
      have brings : tickets d (Party.submission op sub).brings = [n] := by
        rw [Party.brings, hop, Option.toList_some, tickets, List.filterMap_cons, hn]
        rfl
      have silent : x = none := by
        cases h with
        | @attempted _ a early reply =>
            rw [Party.brings, Submission.op?_ofProgress] at hb'
            exact absurd ((tickets_of_key d (Attempt.key_resume a c.fd reply)).symm.trans hb') hb
        | attachDone _ =>
            rw [Party.brings, Submission.op?_joined] at hb'
            exact absurd hb' hb
        | attachFailed _ => exact absurd hb' hb
        | completed => exact absurd hx hb
        | _ => rfl
      refine .inr ⟨n, by rw [joined, brings], silent, ?_⟩
      rcases Submission.Phase.atGate_or_aside hop with hg | ha | hc
      · exact .inr ⟨op, sub, by simp, Operation.ticket_of_ticketIn ticket, hg⟩
      · exact .inl ⟨op, sub, by simp, ticket, ha⟩
      · -- a finished operation is handed to the scheduler instead
        obtain ⟨g, phase⟩ := sub
        cases hc
        cases h with
        | completed => exact absurd hx hb
  | _ => cases ho

/-! ### Meetings -/

/-- The send with ticket `a` is whole as far as the one with ticket `b` is concerned, and stays so
until the two meet. -/
structure Unbroken (a b : Nat) (t : List Event) (s : System) : Prop where
  whole : ¬ Torn a b t
  /-- Once a byte of `b` has followed one of `a`, no more bytes of `a` will come. -/
  finished : [a, b].Sublist (owners t) → ¬ s.Admitted .send a
  /-- Whoever stands in line behind `b` has not begun. -/
  behind : [b, a].Sublist (s.inLine .send) → a ∉ owners t

theorem mem_owners_cons {e : Event} :
    a ∈ owners (e :: t) ↔ a ∈ owners t ∨ ∃ byte, (a, byte) ∈ e.taken := by
  rw [owners_cons, List.mem_append, List.mem_map]
  refine or_congr_right ⟨?_, ?_⟩
  · rintro ⟨⟨_, byte⟩, hm, rfl⟩
    exact ⟨byte, hm⟩
  · rintro ⟨byte, hm⟩
    exact ⟨_, hm, rfl⟩

/-- All bytes that are taken at once belong to one operation. -/
theorem Event.taken_same (e : Event) :
    ∀ i ∈ e.taken.map (·.1), ∀ j ∈ e.taken.map (·.1), i = j := by
  have same : ∃ n, ∀ i ∈ e.taken.map (·.1), i = n := by
    unfold taken
    split
    · split
      · next a _ _ =>
        refine ⟨a.op.ticket, fun i hi => ?_⟩
        rw [List.map_map] at hi
        obtain ⟨_, -, rfl⟩ := List.mem_map.mp hi
        rfl
      · exact ⟨0, nofun⟩
    · exact ⟨0, nofun⟩
  obtain ⟨n, same⟩ := same
  intro i hi j hj
  rw [same i hi, same j hj]

/-- If `r` is all the same, at most the last of `l ++ [x, m]` comes from it. -/
theorem sublist_or_last {l w r : List Nat} {x m : Nat} (differ : x ≠ m)
    (same : ∀ i ∈ r, ∀ j ∈ r, i = j) (h : (l ++ [x] ++ [m]).Sublist (w ++ r)) :
    (l ++ [x] ++ [m]).Sublist w ∨ ((l ++ [x]).Sublist w ∧ m ∈ r) := by
  obtain ⟨l₁, l₂, hl, h₁, h₂⟩ := List.sublist_append_iff.mp h
  rcases List.eq_nil_or_concat l₂ with rfl | ⟨front, last, rfl⟩
  · rw [List.append_nil] at hl
    exact .inl (hl ▸ h₁)
  · rw [List.concat_eq_append] at hl h₂
    rw [← List.append_assoc] at hl
    obtain ⟨hf, hm⟩ := List.append_inj' hl rfl
    cases hm
    have hm : m ∈ r := h₂.subset (by simp)
    rcases List.eq_nil_or_concat front with rfl | ⟨front, last, rfl⟩
    · rw [List.append_nil] at hf
      exact .inr ⟨hf ▸ h₁, hm⟩
    · rw [List.concat_eq_append] at hf h₂
      rw [← List.append_assoc] at hf
      obtain ⟨-, hx⟩ := List.append_inj' hf rfl
      cases hx
      exact absurd (same x (h₂.subset (by simp)) m hm) differ

/-- A send of which bytes were taken has passed the gate. -/
theorem Run.passed_of_owner (run : Run Party.ThroughSocket t s) (h : n ∈ owners t) :
    s.Passed n := by
  induction run with
  | start _ => cases h
  | @join t s run p begins allowed unused ih =>
      rcases mem_owners_cons.mp h with h | ⟨_, h⟩
      · obtain ⟨op, sub, hm, hn, hg⟩ := ih h
        exact ⟨op, sub, List.mem_append_left _ hm, hn, hg⟩
      · cases h
  | @act t c l₁ l₂ p run x turn yields ih =>
      have hs := Party.step_of_yields yields
      rcases mem_owners_cons.mp h with h | ⟨_, h⟩
      · exact hs.passed (ih h)
      · rcases run.taken yields h with ha | ⟨rest, hl⟩
        · exact hs.passed ha.passed
        · exact hs.passed (run.passed_of_inLine (d := .send) (by rw [hl]; exact .head _))

section step
variable {turn : Turn Channel Party} {e : Event}

/-- Whose bytes are taken is beside the line, or the first in it. -/
theorem Run.place_of_taken (run : Run Party.ThroughSocket t ⟨c, l₁ ++ p :: l₂⟩)
    (yields : (p.next c).Yields c x turn)
    (he : e = .acted ⟨c, l₁ ++ p :: l₂⟩ p x turn.phase) (h : n ∈ e.taken.map (·.1)) :
    System.Aside ⟨c, l₁ ++ p :: l₂⟩ .send n ∨
      ∃ rest, System.inLine ⟨c, l₁ ++ p :: l₂⟩ .send = n :: rest := by
  obtain ⟨⟨_, byte⟩, hm, rfl⟩ := List.mem_map.mp h
  rw [he] at hm
  exact run.taken yields hm

/-- Whoever has begun and is admitted after a step was so before it. -/
theorem Run.admitted_before (run : Run Party.ThroughSocket t ⟨c, l₁ ++ p :: l₂⟩)
    (run' : Run Party.ThroughSocket (e :: t) ⟨c', l₁ ++ p' :: l₂⟩) (h : p.Step c x c' p')
    (ha : a ∈ owners t) (now : System.Admitted ⟨c', l₁ ++ p' :: l₂⟩ .send a) :
    System.Admitted ⟨c, l₁ ++ p :: l₂⟩ .send a := by
  have begun : ¬ System.Outside ⟨c, l₁ ++ p :: l₂⟩ a := run.not_outside (run.passed_of_owner ha)
  rcases now with aside | line
  · exact .inl ((h.aside aside).resolve_right begun)
  · rcases run.joins (d := .send) run' h with sublist | ⟨n, joined, -, place⟩
    · exact .inr (sublist.subset line)
    · rw [joined] at line
      rcases List.mem_append.mp line with line | own
      · exact .inr line
      · rw [← List.mem_singleton.mp own] at place
        exact .inl (place.resolve_right begun)

namespace Unbroken

theorem step_finished (u : Unbroken a b t ⟨c, l₁ ++ p :: l₂⟩)
    (run : Run Party.ThroughSocket t ⟨c, l₁ ++ p :: l₂⟩) (yields : (p.next c).Yields c x turn)
    (he : e = .acted ⟨c, l₁ ++ p :: l₂⟩ p x turn.phase) (differ : a ≠ b)
    (apart : a ∈ owners t → ¬ System.Meet ⟨c, l₁ ++ p :: l₂⟩ .send a b)
    (h : [a, b].Sublist (owners (e :: t))) :
    ¬ System.Admitted ⟨turn.state, l₁ ++ turn.phase :: l₂⟩ .send a := by
  intro now
  rw [owners_cons] at h
  have cut := sublist_or_last (l := []) differ e.taken_same h
  have ha : a ∈ owners t := by
    rcases cut with h | ⟨h, -⟩
    · exact h.subset (.head _)
    · exact h.subset (.head _)
  have before := run.admitted_before (run.act yields) (Party.step_of_yields yields) ha now
  rcases cut with h | ⟨-, hb⟩
  · exact u.finished h before
  · -- `b` sends while `a` is admitted
    rcases run.place_of_taken yields he hb with aside | ⟨rest, hl⟩
    · exact apart ha (.inr ⟨aside, before⟩)
    · rcases before with aside | line
      · exact apart ha (.inl ⟨aside, .inr (by rw [hl]; exact .head _)⟩)
      · rw [hl] at line
        have further := (List.mem_cons.mp line).resolve_left differ
        refine u.behind ?_ ha
        rw [hl]
        exact (List.singleton_sublist.mpr further).cons_cons b

/-- Whoever stands behind another one in line sends nothing. -/
theorem not_taken_behind (run : Run Party.ThroughSocket t ⟨c, l₁ ++ p :: l₂⟩)
    (yields : (p.next c).Yields c x turn) (he : e = .acted ⟨c, l₁ ++ p :: l₂⟩ p x turn.phase)
    (differ : a ≠ b) (h : [b, a].Sublist (System.inLine ⟨c, l₁ ++ p :: l₂⟩ .send)) :
    a ∉ e.taken.map (·.1) := by
  intro ha
  have line : a ∈ System.inLine ⟨c, l₁ ++ p :: l₂⟩ .send := h.subset (by simp)
  rcases run.place_of_taken yields he ha with aside | ⟨rest, hl⟩
  · exact run.not_inLine_of_aside aside line
  · -- it would stand in line twice
    have one := run.one_ticket .send a
    rw [hl] at h one
    rcases List.sublist_cons_iff.mp h with h | ⟨r, hr, -⟩
    · have twice := List.count_pos_iff.mpr (h.subset (by simp : a ∈ [b, a]))
      rw [List.count_cons_self] at one
      omega
    · exact differ (List.cons.inj hr).1.symm

theorem step_behind (u : Unbroken a b t ⟨c, l₁ ++ p :: l₂⟩)
    (run : Run Party.ThroughSocket t ⟨c, l₁ ++ p :: l₂⟩) (yields : (p.next c).Yields c x turn)
    (he : e = .acted ⟨c, l₁ ++ p :: l₂⟩ p x turn.phase) (differ : a ≠ b)
    (apart : a ∈ owners t → ¬ System.Meet ⟨c, l₁ ++ p :: l₂⟩ .send a b)
    (h : [b, a].Sublist (System.inLine ⟨turn.state, l₁ ++ turn.phase :: l₂⟩ .send)) :
    a ∉ owners (e :: t) := by
  rw [owners_cons, List.mem_append, not_or]
  have stood : [b, a].Sublist (System.inLine ⟨c, l₁ ++ p :: l₂⟩ .send) →
      a ∉ owners t ∧ a ∉ e.taken.map (·.1) :=
    fun h => ⟨u.behind h, not_taken_behind run yields he differ h⟩
  rcases run.joins (d := .send) (run.act yields) (Party.step_of_yields yields) with
    sublist | ⟨n, joined, silent, place⟩
  · exact stood (h.trans sublist)
  · rw [joined] at h
    rcases sublist_or_last (l := []) differ.symm (by simp) h with h | ⟨hb, ha⟩
    · exact stood h
    · -- `a` itself has just joined behind `b`
      rw [← List.mem_singleton.mp ha] at place
      refine ⟨fun ha => ?_, ?_⟩
      · rcases place with aside | outside
        · exact apart ha (.inl ⟨aside, .inr (hb.subset (.head _))⟩)
        · exact run.not_outside (run.passed_of_owner ha) outside
      · rw [he, silent]
        exact List.not_mem_nil

/-- A step keeps a send whole, unless it has begun and meets the other one. -/
theorem step (u : Unbroken a b t ⟨c, l₁ ++ p :: l₂⟩)
    (run : Run Party.ThroughSocket t ⟨c, l₁ ++ p :: l₂⟩) (yields : (p.next c).Yields c x turn)
    (he : e = .acted ⟨c, l₁ ++ p :: l₂⟩ p x turn.phase) (differ : a ≠ b)
    (apart : a ∈ owners t → ¬ System.Meet ⟨c, l₁ ++ p :: l₂⟩ .send a b) :
    Unbroken a b (e :: t) ⟨turn.state, l₁ ++ turn.phase :: l₂⟩ where
  whole := by
    intro torn
    rw [Torn, owners_cons] at torn
    rcases sublist_or_last (l := [a]) differ.symm e.taken_same torn with torn | ⟨h, ha⟩
    · exact u.whole torn
    · rcases run.place_of_taken yields he ha with aside | ⟨rest, hl⟩
      · exact u.finished h (.inl aside)
      · exact u.finished h (.inr (by rw [hl]; exact .head _))
  finished := u.step_finished run yields he differ apart
  behind := u.step_behind run yields he differ apart

end Unbroken

end step

theorem Run.unbroken (run : Run Party.ThroughSocket t s) (differ : a ≠ b)
    (apart : ∀ newer e older, t = newer ++ e :: older → a ∈ owners older →
      ¬ e.system.Meet .send a b) : Unbroken a b t s := by
  induction run with
  | @start s h =>
      refine ⟨nofun, nofun, fun _ => nofun⟩
  | @join t s run p begins allowed unused ih =>
      have ih := ih fun newer e older ht => apart (_ :: newer) e older (by rw [ht]; rfl)
      have same : owners (.joined s p :: t) = owners t := by
        rw [owners_cons]
        exact List.append_nil _
      have line := System.inLine_joined begins .send
      have aside : System.Aside ⟨s.channel, s.parties ++ [p]⟩ .send a → s.Aside .send a := by
        rintro ⟨op, sub, hm, hn, ha⟩
        rcases List.mem_append.mp hm with hm | hm
        · exact ⟨op, sub, hm, hn, ha⟩
        · rw [← List.mem_singleton.mp hm] at begins
          cases begins <;> cases ha
      refine ⟨?_, ?_, ?_⟩
      · rw [Torn, same]
        exact ih.whole
      · rw [same, System.Admitted, line]
        exact fun h ha => ih.finished h (ha.imp aside id)
      · rw [same, line]
        exact ih.behind
  | @act t c l₁ l₂ p run x turn yields ih =>
      have ih := ih fun newer e older ht => apart (_ :: newer) e older (by rw [ht]; rfl)
      exact ih.step run yields rfl differ (apart [] _ t rfl)

/-! ### What can happen when both send -/

/-- With its next step a party offers bytes of the operation with ticket `n`. -/
def Party.Offers (p : Party) (n : Nat) : Prop :=
  ∃ a, p.attempt? = some a ∧ a.op.ticket = n ∧ a.offered ≠ []

/-- The kernel may take one byte of what is offered. -/
theorem Run.takes_one {use : Party → Prop} (run : Run use t s) {i : Nat}
    (hp : s.parties[i]? = some p) (h : p.Offers n) :
    ∃ e c' p', Run use (e :: t) ⟨c', s.parties.set i p'⟩ ∧ e.taken.map (·.1) = [n] := by
  obtain ⟨a, ha, rfl, offered⟩ := h
  obtain ⟨⟨ticket, status, work⟩, readable⟩ := a
  cases work with
  | send transfer =>
      obtain ⟨resume, next⟩ := Party.next_of_attempt (c := s.channel) ha
      have yields := @Next.Yields.ask _ _ _ _ s.channel _ resume (Except.ok (1 : Nat))
      rw [← next] at yields
      refine ⟨_, _, _, run.act_set hp yields, ?_⟩
      obtain ⟨byte, rest, hb⟩ := List.exists_cons_of_ne_nil offered
      simp only [Attempt.offered] at hb
      simp only [Event.taken, Attempt.call, ha, hb]
      rfl
  | _ => exact absurd rfl offered

/-- A send that has begun can be torn by another one as soon as both are about to offer bytes. -/
theorem Run.can_tear {use : Party → Prop} (run : Run use t s) (differ : a ≠ b)
    (begun : a ∈ owners t) (ha : ∃ p ∈ s.parties, p.Offers a) (hb : ∃ p ∈ s.parties, p.Offers b) :
    ∃ newer s', Run use (newer ++ t) s' ∧ Torn a b (newer ++ t) := by
  obtain ⟨p, hp, offersA⟩ := ha
  obtain ⟨q, hq, offersB⟩ := hb
  obtain ⟨i, hi⟩ := List.getElem?_of_mem hp
  obtain ⟨j, hj⟩ := List.getElem?_of_mem hq
  have apart : j ≠ i := by
    rintro rfl
    cases hi.symm.trans hj
    obtain ⟨x, hx, rfl, -⟩ := offersA
    obtain ⟨y, hy, rfl, -⟩ := offersB
    cases hx.symm.trans hy
    exact differ rfl
  obtain ⟨e, c', q', run', he⟩ := run.takes_one hj offersB
  have hi' : (s.parties.set j q')[i]? = some p := by rw [List.getElem?_set_ne apart, hi]
  obtain ⟨e', c'', p', run'', he'⟩ := run'.takes_one hi' offersA
  refine ⟨[e', e], _, run'', ?_⟩
  show [a, b, a].Sublist (owners (e' :: e :: t))
  rw [owners_cons, owners_cons, he, he']
  exact ((List.singleton_sublist.mpr begun).append (List.Sublist.refl [b])).append
    (List.Sublist.refl [a])

/-- The kernel takes two bytes of every send. -/
def takesTwo : (request : Call) → Protocol.Answer request
  | .system (.send ..) => Except.ok (2 : Nat)
  | request => notReady request

/-- A send of four bytes of which two are taken, and another send that has passed the gate
meanwhile. -/
def twoSends : List Choice :=
  [.join (.submission true (.send 7 (.single (.whole [1, 2, 3, 4])) 0 none)), .act 0 notReady,
    .act 0 notReady, .act 0 notReady, .act 0 takesTwo,
    .join (.submission true (.send 8 (.single (.whole [5, 6])) 0 none)), .act 1 notReady,
    .act 1 notReady]

end Proactor.Channel
