import Proactor.Proofs.Glances
/-! # Edges of readiness

Readiness is reported once.  A dispatch that reports it begins to sweep with a snapshot; whoever
waits afterwards must have been attempted since then, or the reactor must have been asked again.

* **Since the snapshot** (`since`).  What happened after the latest snapshot of a direction: an
  operation was attempted and is not ready (`attended`), the reactor was asked again (`rearmed`),
  or a submission used up the hint while an operation that was last attempted before the snapshot
  had yet to queue up (`overtaken`).
* **Watch** (`Watched`).  Whoever waits at the head, or is about to queue up, is covered by one of
  these.  Every step keeps this.
* **Lost edges.**  In the end the head was attempted, or the reactor was asked again, unless the
  head was overtaken.  It can be. -/

namespace Proactor.Channel

/-! ### Since the snapshot -/

/-- `f` holds of some event, and what came before it, since the latest snapshot. -/
def since (d : Direction) (f : Event → List Event → Bool) : List Event → Bool
  | [] => false
  | e :: t => f e t || (!e.snapshots d && since d f t)

/-- The operation with ticket `n` was attempted since the latest snapshot, and was not ready. -/
def attended (d : Direction) (n : Nat) (t : List Event) : Bool :=
  since d (fun e _ => e.findsNotReady n) t

/-- The reactor was asked to report again since the latest snapshot. -/
def rearmed (d : Direction) (t : List Event) : Bool := since d (fun e _ => e.rearms) t

/-- Since the latest snapshot, another submission used up the hint while the operation with ticket
`n`, not attempted since then, had yet to queue up. -/
def overtaken (d : Direction) (n : Nat) (t : List Event) : Bool :=
  since d (fun e t => e.takesHint d n && e.system.parties.any (·.enlists d == some n) &&
    !attended d n t) t

section since
variable {d : Direction} {f : Event → List Event → Bool} {e : Event} {t : List Event}

theorem since_now (h : f e t = true) : since d f (e :: t) = true := by
  rw [since, h]
  rfl

theorem since_before (h : since d f t = true) (he : e.snapshots d = false) :
    since d f (e :: t) = true := by
  rw [since, h, he, Bool.not_false, Bool.and_self, Bool.or_true]

theorem since_cons (h : since d f (e :: t) = true) :
    f e t = true ∨ (e.snapshots d = false ∧ since d f t = true) := by
  rw [since, Bool.or_eq_true, Bool.and_eq_true, Bool.not_eq_true'] at h
  exact h

end since

/-! ### Watch -/

/-- Whoever waits for readiness in the queue `q` of a direction is taken care of. -/
structure Watched (d : Direction) (t : List Event) (q : Queue) (parties : List Party) : Prop where
  /-- What a sweep attempts was there when it began. -/
  bounds : ∀ p ∈ parties, ∀ b, p.sweeps d = some b → b ≤ q.next
  restores : ∀ p ∈ parties, ∀ n, p.restores d = some n → attended d n t = true
  /-- A submission that has yet to queue up will find the hint, or somebody waiting. -/
  enlists : ∀ p ∈ parties, ∀ n, p.enlists d = some n →
    attended d n t = true ∨ overtaken d n t = true ∨ q.state = .set ∨
      (q.entries ≠ [] ∧ ∀ o ∈ parties, o.sweeps d = none)
  /-- The head that a finished sweep leaves behind. -/
  head : ∀ k op rest, q.entries = ⟨k, some op⟩ :: rest → (∀ p ∈ parties, p.sweeps d = none) →
    attended d op.ticket t = true ∨ overtaken d op.ticket t = true ∨ rearmed d t = true ∨
      ∃ p ∈ parties, p.willRearm = true
  /-- Whoever was overtaken stays unattended until the next snapshot. -/
  overtaken : ∀ n, overtaken d n t = true →
    q.state ≠ .set ∧ attended d n t = false ∧
      ((∃ p ∈ parties, p.enlists d = some n) ∨
        ∃ k op, ⟨k, some op⟩ ∈ q.entries ∧ op.ticket = n ∧
          ∀ p ∈ parties, ∀ b, p.sweeps d = some b → b ≤ k)

theorem Party.inside_of_sweeps {d : Direction} {p : Party} {b : Nat} (h : p.sweeps d = some b) :
    p.inside = true := by
  cases p with
  | dispatch v => cases v <;> first | rfl | cases h
  | _ => cases h

theorem Party.sweeps_of_restores {d : Direction} {p : Party} {n : Nat}
    (h : p.restores d = some n) : ∃ b, p.sweeps d = some b := by
  unfold Party.restores at h
  split at h
  · next op s =>
    split at h
    · next hs => exact ⟨s.bound, if_pos hs⟩
    · cases h
  · cases h

theorem Party.enlists_of_sweeps {d : Direction} {p : Party} {b : Nat} (h : p.sweeps d = some b) :
    p.enlists d = none := by
  cases p with
  | dispatch v => rfl
  | _ => cases h

section glance
variable {d : Direction} {q q' : Queue} {e : Event} {p p' : Party}

theorem Glance.next_le (h : Glance d q e p p' q') : q.next ≤ q'.next := by
  cases h with
  | joined => exact Nat.le_succ _
  | _ => exact Nat.le_refl _

/-- A party that sweeps after a step did so before, or has just taken the snapshot. -/
theorem Glance.sweeps (h : Glance d q e p p' q') {b : Nat} (hb : p'.sweeps d = some b) :
    (p.sweeps d = some b ∧ e.snapshots d = false) ∨ (b = q.next ∧ e.snapshots d = true) := by
  cases h with
  | aside sweeps snapshot => exact .inl ⟨sweeps ▸ hb, snapshot⟩
  | unreadyHead sweeps snapshot => exact .inl ⟨sweeps ▸ hb, snapshot⟩
  | unready _ sweeps' | emptied _ sweeps' | beyond _ sweeps' | restored _ sweeps' =>
      rw [sweeps'] at hb
      cases hb
  | hinted _ hp' | joined _ hp' =>
      rw [hp'] at hb
      cases hb
  | snapped sweeps snapshot =>
      rw [sweeps] at hb
      exact .inr ⟨(Option.some.inj hb).symm, snapshot⟩
  | checkedOut sweeps sweeps' snapshot | retired sweeps sweeps' snapshot =>
      rw [sweeps'] at hb
      exact .inl ⟨sweeps.trans hb, snapshot⟩

/-- Slots that hold their operation stay, but for a head that a sweep checks out. -/
theorem Glance.entry (g : Glance d q e p p' q') {k : Nat} {op : Operation}
    (h : ⟨k, some op⟩ ∈ q.entries) :
    ⟨k, some op⟩ ∈ q'.entries ∨ ∃ b, p.sweeps d = some b ∧ k < b := by
  cases g with
  | aside | unready | unreadyHead | hinted | snapped | emptied | beyond => exact .inl h
  | joined => exact .inl (List.mem_append_left _ h)
  | checkedOut sweeps _ _ _ he hb =>
      rw [he] at h
      rcases List.mem_cons.mp h with h | h
      · cases h
        exact .inr ⟨_, sweeps, hb⟩
      · exact .inl (List.mem_cons_of_mem _ h)
  | restored _ _ _ _ _ he =>
      rw [he] at h
      rcases List.mem_cons.mp h with h | h
      · cases h
      · exact .inl (List.mem_cons_of_mem _ h)
  | retired _ _ _ _ he =>
      rw [he] at h
      rcases List.mem_cons.mp h with h | h
      · cases h
      · exact .inl h

/-- Only a snapshot sets the hint. -/
theorem Glance.state (g : Glance d q e p p' q') (he : e.snapshots d = false)
    (hs : q.state ≠ .set) : q'.state ≠ .set := by
  cases g with
  | snapped _ snapshot =>
      rw [he] at snapshot
      cases snapshot
  | hinted | restored => nofun
  | _ => exact hs

/-- A submission that was about to queue up has done so, if it found no hint. -/
theorem Glance.queued (g : Glance d q e p p' q') (hs : q.state ≠ .set) {n : Nat}
    (hn : p.enlists d = some n) : p'.sweeps d = none ∧
      ∃ op : Operation, op.ticket = n ∧ ⟨q.next, some op⟩ ∈ q'.entries := by
  cases g with
  | aside _ _ before | unready _ _ _ before | unreadyHead _ _ before | snapped _ _ before =>
      rw [before] at hn
      cases hn
  | hinted _ _ _ before =>
      rcases before with before | before
      · rw [before] at hn
        cases hn
      · exact absurd before hs
  | @joined op o sub _ hp hp' _ _ key _ _ =>
      subst hp hp'
      refine ⟨rfl, o, ?_, by simp [Queue.pushed]⟩
      rw [Operation.ticket_eq_of_key key]
      unfold Party.enlists at hn
      split at hn
      · next heq =>
        cases heq
        exact Operation.ticket_of_ticketIn hn
      · cases hn
  | emptied sweeps | beyond sweeps | checkedOut sweeps | restored sweeps | retired sweeps =>
      rw [Party.enlists_of_sweeps sweeps] at hn
      cases hn

end glance

section step
variable {use : Party → Prop} {d : Direction} {t : List Event} {c c' : Channel}
  {q q' : Queue} {l₁ l₂ : List Party} {p p' : Party} {x : Option (Exchange Call)} {e : Event}

/-- While a party sweeps, no other one does. -/
theorem Orderly.sweeps_alone (order : Orderly ⟨c, l₁ ++ p :: l₂⟩) {b : Nat}
    (h : p.sweeps d = some b) : ∀ o ∈ l₁ ++ l₂, o.sweeps d = none := by
  intro o ho
  cases hs : o.sweeps d with
  | none => rfl
  | some b' =>
      have := Orderly.others_outside order.lock (.inl (Party.inside_of_sweeps h)) o ho
      rw [Party.inside_of_sweeps hs] at this
      cases this

namespace Watched

theorem step_bounds (w : Watched d t q (l₁ ++ p :: l₂)) (g : Glance d q e p p' q') :
    ∀ o ∈ l₁ ++ p' :: l₂, ∀ b, o.sweeps d = some b → b ≤ q'.next := by
  intro o ho b hb
  have le := g.next_le
  rcases mem_middle.mp ho with rfl | ho
  · rcases g.sweeps hb with ⟨hp, -⟩ | ⟨rfl, -⟩
    · exact Nat.le_trans (w.bounds p (by simp) b hp) le
    · exact le
  · exact Nat.le_trans (w.bounds o (mem_middle.mpr (.inr ho)) b hb) le

theorem step_restores (w : Watched d t q (l₁ ++ p :: l₂)) (g : Glance d q e p p' q')
    (order : Orderly ⟨c', l₁ ++ p' :: l₂⟩) :
    ∀ o ∈ l₁ ++ p' :: l₂, ∀ n, o.restores d = some n → attended d n (e :: t) = true := by
  intro o ho n hn
  obtain ⟨b, hb⟩ := Party.sweeps_of_restores hn
  rcases mem_middle.mp ho with rfl | ho
  · cases g with
    | unreadyHead _ _ _ _ restores found =>
        rw [restores] at hn
        cases hn
        exact since_now found
    | aside _ _ _ _ restores | snapped _ _ _ _ restores | checkedOut _ _ _ restores
    | retired _ _ _ restores =>
        rw [restores] at hn
        cases hn
    | unready _ sweeps' | emptied _ sweeps' | beyond _ sweeps' | restored _ sweeps' =>
        rw [sweeps'] at hb
        cases hb
    | hinted _ hp' | joined _ hp' =>
        rw [hp'] at hb
        cases hb
  · apply since_before (w.restores o (mem_middle.mpr (.inr ho)) n hn)
    -- the party that snaps would sweep beside this one
    cases g with
    | snapped sweeps =>
        rw [order.sweeps_alone sweeps o ho] at hb
        cases hb
    | _ => assumption

/-- What covers an operation before a step covers it afterwards, unless the step is a snapshot. -/
theorem covered {n : Nat} {r r' : Prop} (he : e.snapshots d = false)
    (h : attended d n t = true ∨ Channel.overtaken d n t = true ∨ r)
    (hr : r → attended d n (e :: t) = true ∨ Channel.overtaken d n (e :: t) = true ∨ r') :
    attended d n (e :: t) = true ∨ Channel.overtaken d n (e :: t) = true ∨ r' := by
  rcases h with h | h | h
  · exact .inl (since_before h he)
  · exact .inr (.inl (since_before h he))
  · exact hr h

/-- Whoever takes the hint overtakes the others that have yet to queue up. -/
theorem covered_of_takesHint {n : Nat} {r : Prop} {o : Party} (he : e.snapshots d = false)
    (takes : e.takesHint d n = true) (ho : o ∈ e.system.parties) (hn : o.enlists d = some n) :
    attended d n (e :: t) = true ∨ Channel.overtaken d n (e :: t) = true ∨ r := by
  cases ha : attended d n t with
  | true => exact .inl (since_before ha he)
  | false =>
      refine .inr (.inl (since_now ?_))
      have any : e.system.parties.any (·.enlists d == some n) = true :=
        List.any_eq_true.mpr ⟨o, ho, by simp [hn]⟩
      simp [takes, any, ha]

theorem step_enlists (w : Watched d t q (l₁ ++ p :: l₂)) (g : Glance d q e p p' q')
    (order : Orderly ⟨c, l₁ ++ p :: l₂⟩) (system : e.system.parties = l₁ ++ p :: l₂)
    (distinct : ∀ o ∈ l₁ ++ l₂, ∀ op sub, p = .submission op sub →
      o.enlists d ≠ some op.ticket) :
    ∀ o ∈ l₁ ++ p' :: l₂, ∀ n, o.enlists d = some n →
      attended d n (e :: t) = true ∨ Channel.overtaken d n (e :: t) = true ∨ q'.state = .set ∨
        (q'.entries ≠ [] ∧ ∀ o ∈ l₁ ++ p' :: l₂, o.sweeps d = none) := by
  intro o ho n hn
  rcases mem_middle.mp ho with rfl | ho
  · cases g with
    | unready _ _ _ _ enlists found _ =>
        rw [enlists] at hn
        cases hn
        exact .inl (since_now found)
    | aside _ _ _ enlists | unreadyHead _ _ _ enlists | hinted _ _ _ _ enlists
    | joined _ _ _ enlists | snapped _ _ _ enlists | emptied _ _ _ enlists
    | beyond _ _ _ enlists | restored _ _ _ enlists =>
        rw [enlists] at hn
        cases hn
    | checkedOut _ sweeps' | retired _ sweeps' =>
        rw [Party.enlists_of_sweeps sweeps'] at hn
        cases hn
  · have ho' : o ∈ l₁ ++ p :: l₂ := mem_middle.mpr (.inr ho)
    have before := w.enlists o ho' n hn
    have sweeping : ∀ {b r}, p.sweeps d = some b →
        (∀ o ∈ l₁ ++ p :: l₂, o.sweeps d = none) → r := by
      intro b r hb h
      rw [h p (by simp)] at hb
      cases hb
    have replaced : p'.sweeps d = none → (∀ o ∈ l₁ ++ p :: l₂, o.sweeps d = none) →
        ∀ o ∈ l₁ ++ p' :: l₂, o.sweeps d = none := fun hp' h => forall_replaced h hp'
    cases g with
    | snapped => exact .inr (.inr (.inl rfl))
    | aside sweeps snapshot | unreadyHead sweeps snapshot =>
        refine covered snapshot before fun h => .inr (.inr (h.imp id fun ⟨hne, hs⟩ => ⟨hne, ?_⟩))
        exact replaced (sweeps.trans (hs p (by simp))) hs
    | unready _ sweeps' snapshot =>
        refine covered snapshot before fun h => .inr (.inr (h.imp id fun ⟨hne, hs⟩ => ⟨hne, ?_⟩))
        exact replaced sweeps' hs
    | @hinted op sub _ hp _ snapshot _ _ he takes =>
        refine covered snapshot before fun h => ?_
        rcases h with hs | ⟨hne, -⟩
        · have ht : op.ticket ≠ n := fun ht => distinct o ho op sub hp (ht ▸ hn)
          exact covered_of_takesHint snapshot (takes n hs ht) (system ▸ ho') hn
        · exact absurd he hne
    | joined _ hp' snapshot =>
        refine covered snapshot before fun h => .inr (.inr (h.imp id fun ⟨hne, hs⟩ => ⟨?_, ?_⟩))
        · simp [Queue.pushed]
        · exact replaced (by rw [hp']; rfl) hs
    | emptied sweeps _ snapshot | beyond sweeps _ snapshot | checkedOut sweeps _ snapshot
    | retired sweeps _ snapshot =>
        exact covered snapshot before fun h =>
          .inr (.inr (h.imp id fun ⟨_, hs⟩ => sweeping sweeps hs))
    | restored sweeps sweeps' snapshot =>
        refine covered snapshot before fun h => ?_
        rcases h with - | ⟨-, hs⟩
        · refine .inr (.inr (.inr ⟨List.cons_ne_nil _ _, fun o ho => ?_⟩))
          rcases mem_middle.mp ho with rfl | ho
          · exact sweeps'
          · exact order.sweeps_alone sweeps o ho
        · exact sweeping sweeps hs

theorem step_head (w : Watched d t q (l₁ ++ p :: l₂)) (g : Glance d q e p p' q') :
    ∀ k op rest, q'.entries = ⟨k, some op⟩ :: rest → (∀ o ∈ l₁ ++ p' :: l₂, o.sweeps d = none) →
      attended d op.ticket (e :: t) = true ∨ Channel.overtaken d op.ticket (e :: t) = true ∨
        rearmed d (e :: t) = true ∨ ∃ o ∈ l₁ ++ p' :: l₂, o.willRearm = true := by
  intro k op rest hq hs'
  have own : p'.sweeps d = none := hs' p' (by simp)
  -- the head was there before, and no sweep was in progress
  have kept : ∀ {rest}, e.snapshots d = false → q.entries = ⟨k, some op⟩ :: rest →
      p.sweeps d = none →
      (p.willRearm = true → p'.willRearm = true ∨ e.rearms = true) →
      attended d op.ticket (e :: t) = true ∨ Channel.overtaken d op.ticket (e :: t) = true ∨
        rearmed d (e :: t) = true ∨ ∃ o ∈ l₁ ++ p' :: l₂, o.willRearm = true := by
    intro rest snapshot he hs rearm
    have none := forall_replaced (P := fun o : Party => o.sweeps d = none) hs' hs
    refine covered snapshot (w.head k op rest he none) fun h => .inr (.inr ?_)
    rcases h with h | ⟨o, ho, hr⟩
    · exact .inl (since_before h snapshot)
    · rcases mem_middle.mp ho with rfl | ho
      · rcases rearm hr with hr | hr
        · exact .inr ⟨p', by simp, hr⟩
        · exact .inl (since_now hr)
      · exact .inr ⟨o, mem_middle.mpr (.inr ho), hr⟩
  cases g with
  | aside sweeps snapshot _ _ _ rearm => exact kept snapshot hq (sweeps ▸ own) rearm
  | unready sweeps _ snapshot _ _ _ rearm =>
      exact kept snapshot hq sweeps fun h => by rw [rearm] at h; cases h
  | unreadyHead _ _ _ _ restores =>
      obtain ⟨b, hb⟩ := Party.sweeps_of_restores restores
      rw [own] at hb
      cases hb
  | hinted _ _ _ _ _ he =>
      rw [Queue.hinted, he] at hq
      cases hq
  | @joined op' o sub _ hp hp' snapshot _ key waits came =>
      subst hp
      cases he : q.entries with
      | cons entry tail =>
          rw [Queue.pushed, he] at hq
          obtain ⟨rfl, -⟩ := List.cons.inj hq
          exact kept snapshot he rfl fun h => absurd h Bool.false_ne_true
      | nil =>
          rw [Queue.pushed, he] at hq
          cases hq
          rw [Operation.ticket_eq_of_key key]
          refine covered snapshot (w.enlists _ (by simp) _ (came he)) fun h => ?_
          rcases h with hs | ⟨hne, -⟩
          · exact absurd ⟨hs, he⟩ waits
          · exact absurd he hne
  | emptied _ _ _ _ he =>
      rw [he] at hq
      cases hq
  | beyond _ _ _ _ rearm => exact .inr (.inr (.inr ⟨p', by simp, rearm⟩))
  | snapped sweeps =>
      rw [own] at sweeps
      cases sweeps
  | checkedOut _ sweeps' | retired _ sweeps' =>
      rw [own] at sweeps'
      cases sweeps'
  | restored _ _ snapshot _ restores =>
      cases hq
      exact .inl (since_before (w.restores p (by simp) _ restores) snapshot)

theorem step_overtaken (w : Watched d t q (l₁ ++ p :: l₂)) (g : Glance d q e p p' q')
    (system : e.system.parties = l₁ ++ p :: l₂)
    (unfound : ∀ n, (∃ o ∈ l₁ ++ p :: l₂, o.enlists d = some n) ∨
      (∃ k op, ⟨k, some op⟩ ∈ q.entries ∧ op.ticket = n) → e.findsNotReady n = false)
    (takes : ∀ n, e.takesHint d n = true → q'.state ≠ .set ∧ p.enlists d ≠ some n) :
    ∀ n, Channel.overtaken d n (e :: t) = true →
      q'.state ≠ .set ∧ attended d n (e :: t) = false ∧
        ((∃ o ∈ l₁ ++ p' :: l₂, o.enlists d = some n) ∨
          ∃ k op, ⟨k, some op⟩ ∈ q'.entries ∧ op.ticket = n ∧
            ∀ o ∈ l₁ ++ p' :: l₂, ∀ b, o.sweeps d = some b → b ≤ k) := by
  intro n hn
  have unattended : attended d n t = false → e.findsNotReady n = false →
      attended d n (e :: t) = false := by
    intro ha hf
    cases h : attended d n (e :: t) with
    | false => rfl
    | true =>
        rcases since_cons h with h | ⟨-, h⟩
        · rw [hf] at h
          cases h
        · have := ha.symm.trans h
          cases this
  rcases since_cons hn with now | ⟨snapshot, before⟩
  · -- the step itself takes the hint
    simp only [Bool.and_eq_true, Bool.not_eq_true'] at now
    obtain ⟨⟨hint, any⟩, ha⟩ := now
    obtain ⟨o, ho, hon⟩ := List.any_eq_true.mp any
    have hon : o.enlists d = some n := by simpa using hon
    rw [system] at ho
    obtain ⟨hs, hp⟩ := takes n hint
    refine ⟨hs, unattended ha (unfound n (.inl ⟨o, ho, hon⟩)), .inl ⟨o, ?_, hon⟩⟩
    rcases mem_middle.mp ho with rfl | ho
    · exact absurd hon hp
    · exact mem_middle.mpr (.inr ho)
  · obtain ⟨hs, ha, place⟩ := w.overtaken n before
    have kept : ∀ {k}, (∀ o ∈ l₁ ++ p :: l₂, ∀ b, o.sweeps d = some b → b ≤ k) →
        ∀ o ∈ l₁ ++ p' :: l₂, ∀ b, o.sweeps d = some b → b ≤ k := by
      intro k hk
      refine forall_replaced hk fun b hb => ?_
      rcases g.sweeps hb with ⟨hp, -⟩ | ⟨-, he⟩
      · exact hk p (by simp) b hp
      · rw [snapshot] at he
        cases he
    have found : e.findsNotReady n = false := by
      refine unfound n (place.imp id ?_)
      rintro ⟨k, op, hm, ht, -⟩
      exact ⟨k, op, hm, ht⟩
    refine ⟨g.state snapshot hs, unattended ha found, ?_⟩
    rcases place with ⟨o, ho, hon⟩ | ⟨k, op, hm, ht, hk⟩
    · rcases mem_middle.mp ho with rfl | ho
      · obtain ⟨hp', op, ht, hm⟩ := g.queued hs hon
        refine .inr ⟨q.next, op, hm, ht, ?_⟩
        exact kept w.bounds
      · exact .inl ⟨o, mem_middle.mpr (.inr ho), hon⟩
    · rcases g.entry hm with hm | ⟨b, hb, lt⟩
      · exact .inr ⟨k, op, hm, ht, kept hk⟩
      · have := hk p (by simp) b hb
        omega

/-- A step keeps everybody watched. -/
theorem step (w : Watched d t q (l₁ ++ p :: l₂)) (g : Glance d q e p p' q')
    (order : Orderly ⟨c, l₁ ++ p :: l₂⟩) (order' : Orderly ⟨c', l₁ ++ p' :: l₂⟩)
    (system : e.system.parties = l₁ ++ p :: l₂)
    (distinct : ∀ o ∈ l₁ ++ l₂, ∀ op sub, p = .submission op sub →
      o.enlists d ≠ some op.ticket)
    (unfound : ∀ n, (∃ o ∈ l₁ ++ p :: l₂, o.enlists d = some n) ∨
      (∃ k op, ⟨k, some op⟩ ∈ q.entries ∧ op.ticket = n) → e.findsNotReady n = false)
    (takes : ∀ n, e.takesHint d n = true → q'.state ≠ .set ∧ p.enlists d ≠ some n) :
    Watched d (e :: t) q' (l₁ ++ p' :: l₂) where
  bounds := w.step_bounds g
  restores := w.step_restores g order'
  enlists := w.step_enlists g order system distinct
  head := w.step_head g
  overtaken := w.step_overtaken g system unfound takes

end Watched

theorem ticket_of_enlists {n : Nat} (h : p.enlists d = some n) : p.Submits n := by
  unfold Party.enlists at h
  split at h
  · next op _ _ => exact ⟨op, _, rfl, Operation.ticket_of_ticketIn h⟩
  · cases h

theorem brings_of_enlists (intact : p.Intact) {n : Nat} (h : p.enlists d = some n) :
    ∃ op ∈ p.brings, op.ticket = n := by
  unfold Party.enlists at h
  split at h
  · next op g o =>
    refine ⟨o, .head _, ?_⟩
    rw [Operation.ticket_eq_of_key (intact.2 o rfl)]
    exact Operation.ticket_of_ticketIn h
  · cases h

/-- Whoever is found not ready is in the hands of the party that finds out. -/
theorem Party.Step.findsNotReady (intact : p.Intact) {n : Nat} {s : System}
    (h : Event.findsNotReady n (.acted s p x p') = true) :
    p.enlists d = none ∧ ∃ op ∈ p.brings ++ p.held, op.ticket = n := by
  unfold Event.findsNotReady at h
  split at h
  · next op g a early _ op' g' o heq =>
    cases heq
    refine ⟨rfl, a.op, .head _, ?_⟩
    rw [Operation.ticket_eq_of_key (intact.2 a.op rfl)]
    simpa using h
  · next a w _ o w' heq =>
    cases heq
    exact ⟨rfl, a.op, .head _, by simpa using h⟩
  · cases h

/-- Whoever takes the hint leaves none behind. -/
theorem Party.Step.takesHint (h : Step c p x c' p') (intact : p.Intact)
    (unstopped : ∀ e, (c.queue e).isStopped = false) {n : Nat} {l : List Party}
    (ht : Event.takesHint d n (.acted ⟨c, l⟩ p x p') = true) :
    (c'.queue d).state ≠ .set ∧ p.enlists d ≠ some n := by
  have asks : ∃ op sub o, p = .submission op sub ∧ sub.phase.op? = some o ∧
      (sub.phase = .offer o ∨ sub.phase = .enlist o) ∧ op.direction = d ∧ op.ticket ≠ n ∧
        (c.queue d).state = .set ∧ (c.queue d).entries = [] := by
    unfold Event.takesHint at ht
    split at ht
    · next op g o _ _ heq =>
      cases heq
      simp only [Bool.and_eq_true, decide_eq_true_eq, List.isEmpty_iff] at ht
      exact ⟨op, _, o, rfl, rfl, .inl rfl, ht.1.1.1, ht.1.1.2, ht.1.2, ht.2⟩
    · next op g o _ _ heq =>
      cases heq
      simp only [Bool.and_eq_true, decide_eq_true_eq, List.isEmpty_iff] at ht
      exact ⟨op, _, o, rfl, rfl, .inr rfl, ht.1.1.1, ht.1.1.2, ht.1.2, ht.2⟩
    · cases ht
  obtain ⟨op, ⟨g, ph⟩, o, rfl, ho, phase, rfl, hn, hs, he⟩ := asks
  have direction : o.direction = op.direction :=
    Operation.direction_eq_of_key (intact.2 o ho)
  constructor
  · rw [← direction] at hs he ⊢
    have hinted : ((c.withQueue o.direction (c.queue o.direction).hinted).queue o.direction).state ≠
        .set := by
      rw [queue_withQueue]
      nofun
    cases h with
    | submission h =>
        rcases phase with rfl | rfl
        · cases h with
          | offerIdle _ _ => exact hinted
          | offerBusy _ hne => exact absurd he hne
          | offerStopped h _ | offerDraining h _ =>
              rw [unstopped] at h
              cases h
        · cases h with
          | enlistHinted _ _ => exact hinted
          | enlistWaiting _ hw => exact absurd ⟨hs, he⟩ hw
          | enlistStopped h _ | enlistDraining h _ =>
              rw [unstopped] at h
              cases h
  · intro h
    obtain ⟨op', _, heq, hop⟩ := ticket_of_enlists h
    cases heq
    exact hn hop

end step

/-- The parties of a plain run are plain, no queue is stopped, and no dispatch is inside unless the
reactor knows the channel. -/
theorem Run.plain {t : List Event} {s : System} (run : Run Party.Plain t s) :
    (∀ p ∈ s.parties, p.Plain) ∧ (∀ d, (s.channel.queue d).isStopped = false) ∧
      ∀ p ∈ s.parties, p.inside = true → s.channel.registered.isEmpty = false := by
  induction run with
  | @start s h =>
      refine ⟨by simp [h.parties], fun d => ?_, by simp [h.parties]⟩
      rw [h.queue]
      rfl
  | @join t s run p begins allowed unused ih =>
      obtain ⟨plain, unstopped, registered⟩ := ih
      have outside : p.inside = false := by cases begins <;> rfl
      refine ⟨forall_joined plain allowed, unstopped, forall_joined registered fun hi => ?_⟩
      rw [outside] at hi
      cases hi
  | @act t c l₁ l₂ p run x turn yields ih =>
      obtain ⟨plain, unstopped, registered⟩ := ih
      have mem : p ∈ l₁ ++ p :: l₂ := by simp
      have h := Party.step_of_yields yields
      have order := run.orderly
      have intact := order.next h
      obtain ⟨hr, hs⟩ := h.unstopped (plain p mem) (order.intact p mem)
        (run.controlled.proper p mem) intact unstopped
      refine ⟨forall_replaced plain (h.plain (plain p mem)), hs, ?_⟩
      rw [hr]
      refine forall_replaced registered fun hi => ?_
      cases hp : p.inside with
      | true => exact registered p mem hp
      | false => exact h.enters hp hi

/-- Whoever joins has yet to wait for anything. -/
theorem Watched.join {s : System} {t : List Event} {p : Party} {d : Direction} {q : Queue}
    (w : Watched d t q s.parties) (begins : p.Begins s.channel.attached) :
    Watched d (.joined s p :: t) q (s.parties ++ [p]) := by
  obtain ⟨sweeps, restores, enlists⟩ :
      p.sweeps d = none ∧ p.restores d = none ∧ p.enlists d = none := by
    cases begins <;> exact ⟨rfl, rfl, rfl⟩
  have still : ∀ {P : Party → Prop}, (∀ o ∈ s.parties ++ [p], P o) → ∀ o ∈ s.parties, P o :=
    fun h o ho => h o (List.mem_append_left _ ho)
  have member : ∀ {P : Party → Prop}, (∃ o ∈ s.parties, P o) → ∃ o ∈ s.parties ++ [p], P o :=
    fun ⟨o, ho, h⟩ => ⟨o, List.mem_append_left _ ho, h⟩
  refine ⟨forall_joined w.bounds ?_, forall_joined w.restores ?_, forall_joined ?_ ?_, ?_, ?_⟩
  · rw [sweeps]
    nofun
  · rw [restores]
    nofun
  · intro o ho n hn
    rcases w.enlists o ho n hn with h | h | h | ⟨hne, hs⟩
    · exact .inl h
    · exact .inr (.inl h)
    · exact .inr (.inr (.inl h))
    · exact .inr (.inr (.inr ⟨hne, forall_joined hs sweeps⟩))
  · rw [enlists]
    nofun
  · intro k op rest he hs
    rcases w.head k op rest he (still hs) with h | h | h | h
    · exact .inl h
    · exact .inr (.inl h)
    · exact .inr (.inr (.inl h))
    · exact .inr (.inr (.inr (member h)))
  · intro n hn
    obtain ⟨hs, ha, place⟩ := w.overtaken n hn
    refine ⟨hs, ha, place.imp member ?_⟩
    rintro ⟨k, op, hm, ht, hk⟩
    refine ⟨k, op, hm, ht, forall_joined hk ?_⟩
    rw [sweeps]
    nofun

theorem Run.watched {t : List Event} {s : System} (run : Run Party.Plain t s) {d : Direction}
    (hd : d ≠ .connection) : Watched d t (s.channel.queue d) s.parties := by
  induction run with
  | @start s h =>
      rw [h.queue, h.parties]
      constructor <;> simp [overtaken, since]
  | join _ begins _ _ ih => exact ih.join begins
  | @act t c l₁ l₂ p run x turn yields ih =>
      have mem : p ∈ l₁ ++ p :: l₂ := by simp
      have h := Party.step_of_yields yields
      have order := run.orderly
      have order' := order.step h
      obtain ⟨plain, unstopped, registered⟩ := run.plain
      have intact := order.intact p mem
      have g := h.glance (l := l₁ ++ p :: l₂) hd (plain p mem) (run.controlled.proper p mem) intact
        (order'.intact turn.phase (by simp)) unstopped (registered p mem)
      refine ih.step g order order' rfl ?_ ?_ fun n ht => h.takesHint intact unstopped ht
      · rintro o ho op sub rfl hn
        exact run.others_differ ⟨op, sub, rfl, rfl⟩ o ho (ticket_of_enlists hn)
      · intro n place
        cases hf : Event.findsNotReady n (.acted ⟨c, l₁ ++ p :: l₂⟩ p x turn.phase) with
        | false => rfl
        | true =>
            obtain ⟨hn, op, ho, rfl⟩ := Party.Step.findsNotReady intact hf
            obtain ⟨others, queues⟩ := run.one_place ho
            rcases place with ⟨o, hm, he⟩ | ⟨k, op', hm, ht⟩
            · rcases mem_middle.mp hm with rfl | hm
              · rw [hn] at he
                cases he
              · have io := order.intact o (mem_middle.mpr (.inr hm))
                obtain ⟨op', hb, ht⟩ := brings_of_enlists io he
                exact absurd ht (others o hm op' (List.mem_append_left _ hb))
            · exact absurd ht (queues d op' (List.mem_filterMap.mpr ⟨_, hm, rfl⟩))

/-- A receive of two bytes. -/
def receiveTwo (ticket : Nat) : Operation :=
  .receive ticket (.single (.whole [0, 0])) 0 none

/-- The descriptor has two bytes to read, which are `there` when they are asked for or gone. -/
def bytesToRead (there : Bool) : (request : Call) → Protocol.Answer request
  | .system (.available _) => Except.ok (2 : Int)
  | .system (.receive ..) =>
      if there then Except.ok (⟨[1, 2], 0, default⟩ : Received) else Except.error 11
  | request => notReady request

/-- A receive that is not ready and queues up; then readiness is reported, and it is attempted again
in vain. -/
def sweptReceive : List Choice :=
  [.join (.submission false (receiveTwo 7)), .act 0 notReady, .act 0 (bytesToRead false),
    .act 0 (bytesToRead false), .act 0 notReady, .join (.dispatch .readable)] ++
  List.replicate 7 (.act 1 (bytesToRead false)) ++ [.act 1 notReady, .act 1 notReady]

/-- A receive is not ready; before it queues up, readiness is reported to an empty queue, and
another receive takes what can be read. -/
def overtakenReceive : List Choice :=
  [.join (.submission false (receiveTwo 7)), .act 0 notReady, .act 0 (bytesToRead false),
    .act 0 (bytesToRead false), .join (.dispatch .readable)] ++
  List.replicate 6 (.act 1 notReady) ++
  [.join (.submission false (receiveTwo 8)), .act 2 notReady, .act 2 (bytesToRead true),
    .act 2 (bytesToRead true), .act 2 notReady, .act 0 notReady]

end Proactor.Channel
