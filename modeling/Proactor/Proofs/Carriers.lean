import Proactor.Proofs.Accounts
/-! # One carrier at a time

On a channel that is used through its socket only, at most one party at a time carries operations
out of the queues, be it a dispatch or a close.

* **Carriers** (`Party.carries`).  A dispatch that is inside, or a close past its stop.
* **Draining** (`Carried`).  While a carrier holds operations of a direction, its queue is
  draining or its head is checked out.  So an idle queue means that the line is empty
  (`Run.inLine_of_idle`).
* **The line moves as a whole** (`Run.line_moves`).  What a step does to the line of its party is
  what it does to the line of everybody. -/

namespace Proactor.Channel

/-- The close still has something to complete. -/
def Party.closes : Party → Bool
  | closing ⟨_, .release _⟩ | closing ⟨_, .flush _ _⟩ => true
  | _ => false

/-- The party takes operations out of the queues. -/
def Party.carries (p : Party) : Bool := p.inside || p.closes

variable {c c' : Channel} {l₁ l₂ : List Party} {p p' : Party} {x : Option (Exchange Call)}
  {t : List Event} {s : System}

/-! ### Carriers -/

theorem Party.Step.throughSocket (h : Step c p x c' p') (hp : p.ThroughSocket) :
    p'.ThroughSocket := by
  cases h with
  | submission h => cases h <;> exact hp
  | attachment h => trivial
  | dispatch h => trivial
  | closing h => exact h.ofSocket.trans hp

theorem Run.throughSocket (run : Run Party.ThroughSocket t s) :
    ∀ p ∈ s.parties, p.ThroughSocket := by
  induction run with
  | start h => simp [h.parties]
  | join _ _ allowed _ ih => exact forall_joined ih allowed
  | act _ yields ih =>
      exact forall_replaced ih
        ((Party.step_of_yields yields).throughSocket (ih _ (by simp)))

theorem Party.hasShut_of_closes (h : p.closes = true) : p.hasShut = true := by
  unfold closes at h
  split at h
  · rfl
  · rfl
  · cases h

/-- Once a close has stopped the queues, the socket is closed. -/
theorem Run.closed_of_hasShut (run : Run Party.ThroughSocket t s) (hp : p ∈ s.parties)
    (hs : p.hasShut = true) : s.channel.isOpen = false := by
  cases p with
  | closing k => exact run.controlled.socket k hp (run.throughSocket _ hp) hs
  | _ => cases hs

/-- A party comes to close only when it is the first close. -/
theorem Party.Step.closes (h : Step c p x c' p') (hs : p.ThroughSocket) (hp' : p'.Intact)
    (hc : p'.closes = true) : p.closes = true ∨ c.isOpen = true := by
  cases h with
  | submission h => cases hc
  | attachment h => cases hc
  | dispatch h => cases hc
  | @closing k k' _ _ h =>
      obtain ⟨b, phase⟩ := k
      have hb : b = true := hs
      subst hb
      cases phase with
      | stop =>
          rcases h.shuts hp' with ⟨-, -, rfl⟩ | ⟨free, -⟩
          · cases hc
          · exact .inr (free.isOpen rfl)
      | release _ => exact .inl rfl
      | flush _ _ => exact .inl rfl
      | ended _ => cases h
      | broken _ => cases h

/-- At most one close is past its stop and not at its end. -/
theorem Run.one_closes (run : Run Party.ThroughSocket t s) : s.parties.countP (·.closes) ≤ 1 := by
  induction run with
  | start h => simp [h.parties]
  | @join t s run p begins allowed unused ih =>
      have hp : p.closes = false := by cases begins <;> rfl
      rw [List.countP_append]
      simpa [hp] using ih
  | @act t c l₁ l₂ p run x turn yields ih =>
      have hs := Party.step_of_yields yields
      have intact := run.orderly.next hs
      have through := run.throughSocket
      simp only [List.countP_append, List.countP_cons] at ih ⊢
      cases hc : turn.phase.closes with
      | false =>
          simp only [Bool.false_eq_true, if_false]
          omega
      | true =>
          rcases hs.closes (through p (by simp)) intact hc with hp | ho
          · rw [hp] at ih
            exact ih
          · -- the socket is open, so no other close got past its stop
            have none : ∀ o ∈ l₁ ++ p :: l₂, o.closes = false := by
              intro o hm
              cases hoc : o.closes with
              | false => rfl
              | true =>
                  rw [run.closed_of_hasShut hm (Party.hasShut_of_closes hoc)] at ho
                  cases ho
            have h₁ : l₁.countP (·.closes) = 0 :=
              List.countP_eq_zero.mpr fun o ho => by simp [none o (by simp [ho])]
            have h₂ : l₂.countP (·.closes) = 0 :=
              List.countP_eq_zero.mpr fun o ho => by simp [none o (by simp [ho])]
            simp [h₁, h₂]

/-- While one party carries, no other one does. -/
theorem Run.alone (run : Run Party.ThroughSocket t ⟨c, l₁ ++ p :: l₂⟩) (hp : p.carries = true) :
    ∀ o ∈ l₁ ++ l₂, o.carries = false := by
  have order := run.orderly
  have control := run.controlled
  -- a close past its stop keeps every dispatch outside
  have apart : ∀ q ∈ l₁ ++ p :: l₂, ∀ o ∈ l₁ ++ p :: l₂, q.closes = true → o.inside = false := by
    intro q hq o ho hc
    have hs := Party.hasShut_of_closes hc
    cases ha : c.attached with
    | false =>
        have hd := (control.idle ha).2.2 o ho
        cases o with
        | dispatch d => exact hd
        | _ => rfl
    | true =>
        have shut := control.shut ha (.inr ⟨q, hq, hs⟩)
        have hl := order.lock
        rw [shut.dispatching] at hl
        simpa using List.countP_eq_zero.mp hl o ho
  intro o ho
  have ho' : o ∈ l₁ ++ p :: l₂ := mem_middle.mpr (.inr ho)
  rw [Party.carries, Bool.or_eq_false_iff]
  rcases Bool.or_eq_true_iff.mp hp with hi | hc
  · refine ⟨Orderly.others_outside order.lock (.inl hi) o ho, ?_⟩
    cases hoc : o.closes with
    | false => rfl
    | true =>
        rw [apart o ho' p (by simp) hoc] at hi
        cases hi
  · refine ⟨apart p (by simp) o ho' hc, ?_⟩
    have hl := run.one_closes
    simp only [List.countP_append, List.countP_cons, hc, if_true] at hl
    have h0 : (l₁ ++ l₂).countP (·.closes) = 0 := by
      rw [List.countP_append]
      omega
    simpa using List.countP_eq_zero.mp h0 o ho

/-! ### Draining -/

theorem Party.held_of_not_carries (h : p.carries = false) : p.held = [] := by
  obtain ⟨hi, hc⟩ := Bool.or_eq_false_iff.mp h
  cases p with
  | submission _ _ => rfl
  | attachment _ => rfl
  | dispatch d => cases d <;> first | rfl | cases hi
  | closing k =>
      obtain ⟨b, phase⟩ := k
      cases phase <;> first | rfl | cases hc

/-- What a party holds of a direction was checked out, or its queue drains. -/
def Carried (c : Channel) (p : Party) : Prop :=
  ∀ d, tickets d p.held ≠ [] → p.out d = true ∨ (c.queue d).draining = true

theorem draining_halted {d : Direction} {q : Queue} (h : tickets d q.waiting ≠ []) :
    q.halted.draining = true := by
  have hw : q.waiting ≠ [] := fun hw => h (by rw [hw]; rfl)
  simp [Queue.halted, hw]

theorem Flush.Step.carried {f f' : Flush} (h : Flush.Step c f x c' f')
    (valid : ∀ e, (c.queue e).Valid e) {d : Direction}
    (hf : tickets d f.held ≠ [] → (c.queue d).draining = true) (hf' : tickets d f'.held ≠ []) :
    (c'.queue d).draining = true := by
  cases h with
  | emptied => exact absurd rfl hf'
  | completed =>
      refine hf fun hn => hf' ?_
      rw [held, tickets_cons, List.append_eq_nil_iff] at hn
      exact hn.2
  | settled _ => exact absurd rfl hf'
  | parked _ =>
      have hp : tickets d c.settle.2 = tickets d (c.queue d).parked :=
        tickets_three (f := Queue.parked) (fun e => (valid e).parked) d
      have hn : (c.queue d).parked ≠ [] := fun hn => hf' (by rw [held, hp, hn]; rfl)
      rw [queue_settle, Queue.settle]
      simp [(valid d).parks hn, hn]

theorem Closing.Step.carried {k k' : Closing} (h : Closing.Step c k x c' k')
    (valid : ∀ e, (c.queue e).Valid e) (hk : Carried c (.closing k)) :
    Carried c' (.closing k') := by
  intro d hd
  apply Or.inr
  cases h with
  | again _ => exact absurd rfl hd
  | unattached _ _ => exact absurd rfl hd
  | stopped _ _ _ hl =>
      rw [hl.queue, queue_halted, queue_shut]
      have hw : tickets d c.waiting = tickets d (c.queue d).waiting :=
        tickets_three (f := Queue.waiting) (fun e => (valid e).waiting) d
      exact draining_halted (hw ▸ hd)
  | stopBroken _ _ => exact absurd rfl hd
  | released _ => exact (hk d hd).resolve_left Bool.false_ne_true
  | releasedUnattached _ => exact absurd rfl hd
  | flushing hf => exact hf.carried valid (fun h => (hk d h).resolve_left Bool.false_ne_true) hd
  | flushed => exact absurd rfl hd

theorem Dispatch.Step.carried {d d' : Dispatch} (h : Dispatch.Step c d x c' d')
    (fits : d.Fits) (valid : ∀ e, (c.queue e).Valid e) (hd : Carried c (.dispatch d)) :
    Carried c' (.dispatch d') := by
  intro e he
  rw [Party.held] at he
  have swept : ∀ {s : Sweep} {r : Progress}, r.op.direction = s.stage.direction →
      tickets e (ofSwept s r).held ≠ [] → (ofSwept s r).out e = true := by
    intro s r hr he
    rw [tickets_ofSwept] at he
    rw [out_ofSwept, beq_iff_eq]
    refine Decidable.byContradiction fun hn => he ?_
    exact tickets_eq_nil e (e := s.stage.direction) (by simpa using hr) (Ne.symm hn)
  cases h with
  | hungUp _ hl =>
      rw [hl.queue, queue_halted]
      have hw : tickets e c.waiting = tickets e (c.queue e).waiting :=
        tickets_three (f := Queue.waiting) (fun e => (valid e).waiting) e
      exact .inr (draining_halted (hw ▸ he))
  | inputEnded _ =>
      by_cases hr : e = .receive
      · subst hr
        rw [queue_withQueue]
        exact .inr (draining_halted he)
      · exact absurd (tickets_eq_nil e (valid .receive).waiting hr) he
  | @forceNext op ops rest pending =>
      refine .inr ((hd e ?_).resolve_left Bool.false_ne_true)
      rwa [tickets_ofForced, tickets_of_key e (Attempt.key_start op), ← tickets_cons] at he
  | @forcing a ops rest pending reply =>
      refine .inr ((hd e ?_).resolve_left Bool.false_ne_true)
      rwa [tickets_ofForced, tickets_of_key e (Attempt.key_resume _ _ reply), ← tickets_cons] at he
  | @forced op ops rest pending =>
      refine .inr ((hd e fun hn => he ?_).resolve_left Bool.false_ne_true)
      rw [Party.held, Dispatch.held, tickets_cons, List.append_eq_nil_iff] at hn
      exact hn.2
  | flushing hf => exact .inr (hf.carried valid (fun h => (hd e h).resolve_left Bool.false_ne_true) he)
  | @checkOutReady s n op rest hq hb hw =>
      have ho := (valid s.stage.direction).waiting op (by simp [Queue.waiting, hq])
      have hs := (Operation.direction_eq_of_key (Attempt.key_start op)).trans ho
      exact .inl (swept hs he)
  | @attempted a s reply =>
      have hs := (Operation.direction_eq_of_key (Attempt.key_resume _ _ reply)).trans fits
      exact .inl (swept hs he)
  | enterReady _ _ _ | queried _ =>
      rw [held_route] at he
      exact absurd rfl he
  | _ => exact absurd rfl he

/-- What a party holds stays carried by its own steps. -/
theorem Party.Step.carried (h : Step c p x c' p') (hp : p.Intact)
    (valid : ∀ e, (c.queue e).Valid e) (hc : Carried c p) : Carried c' p' := by
  cases h with
  | submission h => exact fun _ hd => absurd rfl hd
  | attachment h => exact fun _ hd => absurd rfl hd
  | dispatch h => exact h.carried hp.2 valid hc
  | closing h => exact h.carried valid hc

/-- Only a carrier brings the draining of a queue to its end. -/
theorem Party.Step.draining (h : Step c p x c' p') (hp' : p'.Intact) (hc : p.carries = false)
    {d : Direction} (hd : (c.queue d).draining = true) : (c'.queue d).draining = true := by
  obtain ⟨hi, hk⟩ := Bool.or_eq_false_iff.mp hc
  cases h with
  | submission h => rwa [h.draining d]
  | attachment h => rwa [h.queue d]
  | dispatch h =>
      cases h with
      | enterIgnored _ _ => exact hd
      | enterFailed _ _ _ | enterReady _ _ _ => rwa [queue_update rfl rfl rfl d]
      | _ => cases hi
  | closing h =>
      cases h with
      | again _ => exact hd
      | unattached _ _ => rwa [Closing.queue_shut]
      | stopped _ _ _ hl =>
          rw [hl.queue, queue_halted, Closing.queue_shut]
          simp [Queue.halted, hd]
      | stopBroken _ _ => exact absurd rfl (hp' _)
      | _ => cases hk

theorem Run.carried (run : Run Party.ThroughSocket t s) : ∀ p ∈ s.parties, Carried s.channel p := by
  induction run with
  | start h => simp [h.parties]
  | @join t s run p begins allowed unused ih =>
      refine forall_joined ih fun d hd => ?_
      rw [begins.held] at hd
      exact absurd rfl hd
  | @act t c l₁ l₂ p run x turn yields ih =>
      have hs := Party.step_of_yields yields
      have order := run.orderly
      have intact := order.next hs
      intro o ho
      by_cases own : o = turn.phase
      · rw [own]
        exact hs.carried (order.intact p (by simp)) order.valid (ih p (by simp))
      · have ho : o ∈ l₁ ++ l₂ := (mem_middle.mp ho).resolve_left own
        intro d hd
        have carries : o.carries = true := by
          cases hc : o.carries with
          | true => rfl
          | false =>
              rw [Party.held_of_not_carries hc] at hd
              exact absurd rfl hd
        have hc : p.carries = false := by
          cases hc : p.carries with
          | false => rfl
          | true =>
              rw [run.alone hc o ho] at carries
              cases carries
        have ho' : o ∈ l₁ ++ p :: l₂ := mem_middle.mpr (.inr ho)
        exact (ih o ho' d hd).imp id (hs.draining intact hc)

/-! ### The line -/

/-- Nobody of this direction waits, as far as the channel knows. -/
def Idle (c : Channel) (d : Direction) : Prop :=
  c.attached = false ∨ ((c.queue d).isStopped = false ∧ (c.queue d).entries = []) ∨
    ((c.queue d).isStopped = true ∧ (c.queue d).draining = false)

theorem tickets_flatMap_eq_nil {d : Direction} {l : List Party}
    (h : ∀ o ∈ l, tickets d o.held = []) : tickets d (l.flatMap (·.held)) = [] := by
  induction l with
  | nil => rfl
  | cons o rest ih =>
      rw [List.flatMap_cons, tickets_append, h o (by simp), ih fun q hq => h q (by simp [hq])]
      rfl

/-- If the channel is idle in a direction, nobody stands in its line. -/
theorem Run.inLine_of_idle (run : Run Party.ThroughSocket t s) {d : Direction}
    (h : s.channel.Idle d) : s.inLine d = [] := by
  have order := run.orderly
  have valid := order.valid d
  -- no head is checked out and nothing drains
  have free : s.channel.attached = true →
      (s.channel.queue d).entries = [] ∧ (s.channel.queue d).draining = false := by
    intro ha
    rcases h with hn | ⟨hs, he⟩ | ⟨hs, hd⟩
    · rw [ha] at hn
      cases hn
    · exact ⟨he, valid.not_draining hs⟩
    · exact ⟨valid.emptied hs, hd⟩
  have parts : (∀ p ∈ s.parties, tickets d p.held = []) ∧ s.channel.line d = [] := by
    cases ha : s.channel.attached with
    | false =>
        obtain ⟨-, hq, hd⟩ := run.controlled.idle ha
        refine ⟨fun p hp => by rw [(hd p hp).held]; rfl, ?_⟩
        rw [line, hq d]
        rfl
    | true =>
        obtain ⟨he, hd⟩ := free ha
        refine ⟨fun p hp => Decidable.byContradiction fun hn => ?_, ?_⟩
        · rcases run.carried p hp d hn with ho | hd'
          · have hh := order.heads d
            rw [List.any_eq_true.mpr ⟨p, hp, ho⟩] at hh
            obtain ⟨n, rest, hq, -⟩ := hh
            rw [he] at hq
            cases hq
          · rw [hd] at hd'
            cases hd'
        · have hp : (s.channel.queue d).parked = [] := Decidable.byContradiction fun hp => by
            have := valid.parks hp
            rw [hd] at this
            cases this
          rw [line, Queue.waiting, he, hp]
          rfl
  rw [System.inLine, tickets_append, tickets_flatMap_eq_nil parts.1, parts.2]
  rfl

/-- What happens to a part of the line at its end happens to all of it, unless the first is
served. -/
theorem Moves.behind {b l out b' l' : List Nat} (h : Moves b l out b' l') (front : List Nat)
    (hf : front = [] ∨ out = [] ∨ b ≠ []) : Moves b (front ++ l) out b' (front ++ l') := by
  cases h with
  | none _ _ => exact .none _ _
  | joined _ _ =>
      rw [← List.append_assoc]
      exact .joined _ _
  | finished _ _ => exact .finished _ _
  | served _ _ =>
      rcases hf with rfl | rfl | hb
      · rw [List.nil_append, List.nil_append]
        exact .served _ _
      · exact .none _ _
      · exact absurd rfl hb

/-- A party that carries nothing schedules only what it brings. -/
theorem Party.Step.handedOver (h : Step c p x c' p') (hp' : p'.Intact) (hc : p.carries = false)
    (d : Direction) : tickets d (handedOver x).toList = [] ∨ tickets d p.brings ≠ [] := by
  obtain ⟨hi, hk⟩ := Bool.or_eq_false_iff.mp hc
  cases h with
  | submission h =>
      cases h with
      | @completed g op =>
          by_cases hn : tickets d [op] = []
          · exact .inl hn
          · exact .inr hn
      | _ => exact .inl rfl
  | attachment h => cases h <;> exact .inl rfl
  | dispatch h =>
      cases h with
      | enterIgnored _ _ | enterFailed _ _ _ | enterReady _ _ _ => exact .inl rfl
      | _ => cases hi
  | closing h =>
      cases h with
      | stopped _ _ _ hl => cases hl <;> exact .inl rfl
      | stopBroken _ _ => exact absurd rfl (hp' _)
      | again _ | unattached _ _ => exact .inl rfl
      | _ => cases hk

theorem inLine_alone (c : Channel) (p : Party) {d : Direction}
    (h : ∀ o ∈ l₁ ++ l₂, o.held = []) :
    System.inLine ⟨c, l₁ ++ p :: l₂⟩ d = tickets d (p.held ++ c.line d) := by
  have h₁ : l₁.flatMap (·.held) = [] :=
    List.flatMap_eq_nil_iff.mpr fun o ho => h o (List.mem_append_left _ ho)
  have h₂ : l₂.flatMap (·.held) = [] :=
    List.flatMap_eq_nil_iff.mpr fun o ho => h o (List.mem_append_right _ ho)
  simp [System.inLine, h₁, h₂]

theorem inLine_behind (c : Channel) {p : Party} (d : Direction) (h : p.held = []) :
    System.inLine ⟨c, l₁ ++ p :: l₂⟩ d =
      tickets d ((l₁ ++ l₂).flatMap (·.held)) ++ tickets d (p.held ++ c.line d) := by
  simp [System.inLine, h]

/-- What a step does to the line of everybody. -/
theorem Run.line_moves {e : Event} (run : Run Party.ThroughSocket t ⟨c, l₁ ++ p :: l₂⟩)
    (run' : Run Party.ThroughSocket (e :: t) ⟨c', l₁ ++ p' :: l₂⟩) (h : p.Step c x c' p')
    (d : Direction) :
    Moves (tickets d p.brings) (System.inLine ⟨c, l₁ ++ p :: l₂⟩ d)
      (tickets d (handedOver x).toList) (tickets d p'.brings)
      (System.inLine ⟨c', l₁ ++ p' :: l₂⟩ d) := by
  have own := run.moves h d
  by_cases carries : p.carries = true ∨ p'.carries = true
  · have alone : ∀ o ∈ l₁ ++ l₂, o.held = [] := by
      intro o ho
      apply Party.held_of_not_carries
      rcases carries with hc | hc
      · exact run.alone hc o ho
      · exact run'.alone hc o ho
    rw [inLine_alone c p alone, inLine_alone c' p' alone]
    exact own
  · have hp : p.carries = false := by simpa using fun h => carries (.inl h)
    have hp' : p'.carries = false := by simpa using fun h => carries (.inr h)
    rw [inLine_behind c d (Party.held_of_not_carries hp),
      inLine_behind c' d (Party.held_of_not_carries hp')]
    have intact := run.orderly.next h
    exact own.behind _ (.inr (h.handedOver intact hp d))

end Proactor.Channel
