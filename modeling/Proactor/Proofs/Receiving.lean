import Proactor.Proofs.Fates
import Proactor.Proofs.Wire
/-! # Receiving from a stream

A socket whose other side is a stream, which nobody closes and which is never reported as hung up or
failed (`Party.Calm`), while the peer goes on as it likes (`Fed`).

* **Hands** (`Party.hand`).  What an operation has received, from the call that took it until the
  operation is scheduled.
* **Conservation** (`Run.conserved`).  What was delivered, what is in somebody's hands and what is
  unread is, in this order, what the peer has sent, if the receives were submitted in turn. -/

namespace Proactor.Channel

/-! ### Sockets that stay open -/

/-- The report says nothing of a hang-up or an error, and no error is carried along. -/
def Dispatch.calm : Dispatch → Bool
  | enter events => !events.contains .failed && !events.contains .hangUp
  | query _ | hangUp _ => false
  | force _ rest pending | forcing _ _ rest pending | forced _ _ rest pending
  | flush _ rest pending => rest.isSome && pending.isNone
  | k => k.pending.isNone

/-- A party on a socket that is not closed.  Receives have room. -/
def Party.calm : Party → Bool
  | submission op s => s.guarded && op.roomy
  | attachment _ => true
  | dispatch k => k.calm
  | closing _ => false

def Party.Calm (p : Party) : Prop := p.calm = true

instance : DecidablePred Party.Calm := fun p => inferInstanceAs (Decidable (p.calm = true))

/-- The kernel answers as a stream does; `wire n` is the wire when `n` things have happened. -/
def Fed (wire : Nat → Wire) : List Event → Prop
  | [] => (wire 0).sent = (wire 0).unread
  | e :: older =>
    Fed wire older ∧ (wire older.length).Answers e.exchange? ∧
      ((wire older.length).after e.exchange?).Grows (wire (older.length + 1))

instance decidableFed (wire : Nat → Wire) : (t : List Event) → Decidable (Fed wire t)
  | [] => inferInstanceAs (Decidable ((wire 0).sent = (wire 0).unread))
  | e :: older =>
    have := decidableFed wire older
    inferInstanceAs (Decidable (Fed wire older ∧ (wire older.length).Answers e.exchange? ∧
      ((wire older.length).after e.exchange?).Grows (wire (older.length + 1))))

variable {use use' : Party → Prop} {c c' : Channel} {l₁ l₂ : List Party} {p p' : Party}
  {x : Option (Exchange Call)} {t newer older : List Event} {s : System} {op : Operation}
  {σ : Standing} {wire : Nat → Wire} {w : Wire} {e : Event}

theorem Fed.earlier (h : Fed wire (newer ++ older)) : Fed wire older := by
  induction newer with
  | nil => exact h
  | cons e newer ih => exact ih h.1

theorem Run.imp (run : Run use t s) (h : ∀ p, use p → use' p) : Run use' t s := by
  induction run with
  | start first => exact .start first
  | join run begins allowed unused ih => exact ih.join begins (h _ allowed) unused
  | act run yields ih => exact ih.act yields

theorem Party.Calm.throughSocket (h : p.Calm) : p.ThroughSocket := by
  cases p with
  | submission op s => exact (Bool.and_eq_true_iff.mp h).1
  | attachment a => trivial
  | dispatch k => trivial
  | closing k => cases h

theorem Run.through (run : Run Party.Calm t s) : Run Party.ThroughSocket t s :=
  run.imp fun _ => Party.Calm.throughSocket

/-! ### No error is carried along -/

theorem Dispatch.takePending_none (op : Operation) : takePending op none = (op, none) := by
  unfold takePending
  split <;> rfl

theorem Dispatch.ofForced_none (ops : List Operation) (rest : Option (List Stage)) (r : Progress) :
    ofForced ops rest none r =
      match r with
      | .calling a => forcing a ops rest none
      | .ready op => forced op ops rest none
      | .notReady op => forced (op.withStatus .shutdown) ops rest none := by
  cases r with
  | calling a => rfl
  | ready op => simp only [ofForced, takePending_none]
  | notReady op => rfl

theorem Dispatch.ofSwept_none {sw : Sweep} (h : sw.pending = none) (r : Progress) :
    ofSwept sw r =
      match r with
      | .calling a => attempt a sw
      | .ready op => complete op sw
      | .notReady op => restore op sw := by
  obtain ⟨stage, bound, rest, again, pending⟩ := sw
  cases h
  cases r with
  | calling a => rfl
  | ready op => simp only [ofSwept, takePending_none]
  | notReady op => rfl

theorem Dispatch.calm_ofForced (ops : List Operation) {rest : Option (List Stage)}
    (h : rest.isSome = true) (r : Progress) : (ofForced ops rest none r).calm = true := by
  rw [ofForced_none]
  cases r <;> simp [calm, h]

theorem Dispatch.calm_ofSwept {sw : Sweep} (h : sw.pending = none) (r : Progress) :
    (ofSwept sw r).calm = true := by
  rw [ofSwept_none h]
  cases r <;> simp [calm, pending, h]

theorem Dispatch.Step.calm {k k' : Dispatch} (h : Dispatch.Step c k x c' k')
    (hk : k.calm = true) : k'.calm = true := by
  cases h with
  | enterReady _ _ _ =>
      simp only [Dispatch.calm, Bool.and_eq_true, Bool.not_eq_true'] at hk
      unfold route
      rw [hk.2]
      simp only [Bool.false_eq_true, if_false]
      split <;> rfl
  | enterFailed _ _ hf => simp [Dispatch.calm, hf] at hk
  | queried _ | hungUp _ _ => cases hk
  | forceNext =>
      simp only [Dispatch.calm, Bool.and_eq_true, Option.isNone_iff_eq_none] at hk
      rw [hk.2]
      exact calm_ofForced _ hk.1 _
  | forcing reply =>
      simp only [Dispatch.calm, Bool.and_eq_true, Option.isNone_iff_eq_none] at hk
      rw [hk.2]
      exact calm_ofForced _ hk.1 _
  | checkOutReady _ _ _ => exact calm_ofSwept (Option.isNone_iff_eq_none.mp hk) _
  | attempted reply => exact calm_ofSwept (Option.isNone_iff_eq_none.mp hk) _
  | forceNone | forced | flushing _ => exact hk
  | flushedInput => simpa [Dispatch.calm, pending] using hk
  | inputEnded _ => exact hk
  | enterIgnored _ _ | flushedAll | swept | rearmSkipped _ | rearmed _ _ | hangUpBroken _
  | endInputBroken _ | checkOutBroken _ | restoreBroken _ | retireBroken _ => rfl
  | _ => exact hk

theorem Party.Step.calm (h : Step c p x c' p') (hp : p.Calm) : p'.Calm := by
  cases h with
  | submission h =>
      have guarded := Party.Step.throughSocket (.submission h) hp.throughSocket
      exact Bool.and_eq_true_iff.mpr ⟨guarded, (Bool.and_eq_true_iff.mp hp).2⟩
  | attachment h => rfl
  | dispatch h => exact h.calm hp
  | closing h => cases hp

theorem Run.calm (run : Run Party.Calm t s) : ∀ p ∈ s.parties, p.Calm := by
  induction run with
  | start first => simp [first.parties]
  | join run begins allowed unused ih => exact forall_joined ih allowed
  | act run yields ih =>
      have calm := ih _ (mem_middle.mpr (.inl rfl))
      exact forall_replaced ih ((Party.step_of_yields yields).calm calm)

/-- Nobody closes the socket. -/
theorem Run.stays_open (run : Run Party.Calm t s) : s.channel.isOpen = true := by
  induction run with
  | start first => cases first <;> rfl
  | join run begins allowed unused ih => exact ih
  | @act t c l₁ l₂ p run x turn yields ih =>
      have step := Party.step_of_yields yields
      have intact := run.orderly.next step
      have same : turn.state.isOpen = c.isOpen := by
        have calm := run.calm p (by simp)
        generalize turn.phase = p' at step intact
        cases step with
        | submission h => exact h.attached.1
        | attachment h => exact h.attached.1
        | dispatch h => exact (h.attached intact.1).1
        | closing h => cases calm
      exact same.trans ih

/-! ### Receives have room -/

/-- Every receive has room, until it was attempted to the end. -/
theorem Run.roomy (run : Run Party.Calm t s) (h : σ ∈ s.standings t) : σ.roomy = true := by
  obtain ⟨op, sub, submitted, same⟩ := run.submission_of_standing h
  have room : op.roomy = true := (Bool.and_eq_true_iff.mp (run.calm _ submitted)).2
  refine run.standing_lasts (P := fun _ σ => σ.roomy = true) ?_ ?_ ?_ submitted h same.symm
  · intro _ _ _ _
    exact room
  · intro _ _ _ _ before
    exact before
  · intro t c l₁ l₂ p x turn σ' _ _ _ _ fate
    cases fate with
    | wentOn ha before reply hx became => exact became.roomy (Attempt.roomy_resume _ _ reply before)
    | began hb hx before became => exact became.roomy (Attempt.roomy_start before)
    | untried hn before onward => exact onward.roomy before

/-! ### Hands -/

/-- What a party has received and has not passed on. -/
def Party.hand (p : Party) : Bytes :=
  match p.done? with
  | some op => op.received
  | none => []

/-- What is received and not passed on. -/
def System.hands (s : System) : Bytes := s.parties.flatMap (·.hand)

/-- What was handed to the scheduler with an operation. -/
def given (x : Option (Exchange Call)) : Bytes :=
  match handedOver x with
  | some op => op.received
  | none => []

/-- The bytes that were delivered, in order. -/
def delivered (t : List Event) : Bytes := (scheduled t).reverse.flatMap (·.received)

theorem Party.serves_of_hand (h : p.hand ≠ []) :
    ∃ op, p.done? = some op ∧ p.Serves op ∧ op.direction = .receive := by
  unfold hand at h
  split at h
  · next op hop =>
    refine ⟨op, hop, serves_of_done hop, ?_⟩
    by_contra hd
    exact h (Operation.received_of_direction hd)
  · exact absurd rfl h

theorem Submission.hand_ofProgress (o : Operation) (g early : Bool) (r : Progress) :
    (Party.submission o ⟨g, .ofProgress early r⟩).hand = r.received := by
  cases r with
  | calling a => rfl
  | ready op => rfl
  | notReady op => cases early <;> rfl

theorem Dispatch.hand_ofForced (ops : List Operation) (rest : Option (List Stage))
    (r : Progress) : (Party.dispatch (ofForced ops rest none r)).hand = r.received := by
  rw [ofForced_none]
  cases r with
  | calling a => rfl
  | ready op => rfl
  | notReady op => exact Operation.received_of_status (by rw [Operation.status_withStatus]; nofun)

theorem Dispatch.hand_ofSwept {sw : Sweep} (h : sw.pending = none) (r : Progress) :
    (Party.dispatch (ofSwept sw r)).hand = r.received := by
  rw [ofSwept_none h]
  cases r <;> rfl

theorem Dispatch.hand_route (events : Readiness) (pending : Option Status) :
    (Party.dispatch (route events pending)).hand = [] := by
  rw [Party.hand, done?_route]

theorem Flush.Step.passes_on {f f' : Flush} (h : Flush.Step c f x c' f') :
    w.taken x = [] ∧ given x = [] := by
  cases h with
  | completed =>
      refine ⟨rfl, Operation.received_of_status ?_⟩
      rw [Operation.status_withStatus]
      nofun
  | emptied | settled _ | parked _ => exact ⟨rfl, rfl⟩

theorem Dispatch.pending_of_calm {k : Dispatch} (h : k.calm = true) : k.pending = none := by
  cases k <;> simp_all [calm, pending]

/-- What a party takes comes into its hands, and what is in its hands is passed on. -/
theorem Party.Step.passes_on (h : Step c p x c' p') (calm : p.Calm)
    (roomy : ∀ σ ∈ p.standings, σ.roomy = true) (answers : w.Answers x) :
    p.hand ++ w.taken x = given x ++ p'.hand := by
  cases h with
  | submission h =>
      cases h with
      | enterClosed _ _ | offerStopped _ _ | enlistStopped _ _ =>
          exact (Operation.received_withStatus (roomy _ (.head _)) _).symm
      | attachFailed _ => exact (Operation.received_withStatus (roomy _ (.head _)) _).symm
      | offerIdle _ _ | enlistHinted _ _ =>
          rw [Submission.hand_ofProgress, Attempt.received_start]
          rfl
      | attempted reply =>
          rw [Submission.hand_ofProgress, answers.received]
          rfl
      | attachJoined _ => cases ‹Bool› <;> rfl
      | attachDone _ => cases ‹Bool› <;> rfl
      | _ => rfl
  | attachment h => cases h <;> rfl
  | @dispatch k _ _ _ h =>
      have pending : k.pending = none := Dispatch.pending_of_calm calm
      cases h with
      | enterReady _ _ _ | queried _ => exact (Dispatch.hand_route _ _).symm
      | forceNext =>
          cases pending
          rw [Dispatch.hand_ofForced, Attempt.received_start]
          rfl
      | forcing reply =>
          cases pending
          rw [Dispatch.hand_ofForced, answers.received]
          rfl
      | checkOutReady _ _ _ =>
          rw [Dispatch.hand_ofSwept pending, Attempt.received_start]
          rfl
      | attempted reply =>
          rw [Dispatch.hand_ofSwept pending, answers.received]
          rfl
      | hungUp _ _ => cases calm
      | flushing hf =>
          obtain ⟨taken, given⟩ := hf.passes_on (w := w)
          rw [taken, given]
          rfl
      | _ => rfl
  | closing h => cases calm

/-! ### Conservation -/

theorem delivered_acted (s : System) (p p' : Party) (x : Option (Exchange Call)) (t : List Event) :
    delivered (.acted s p x p' :: t) = delivered t ++ given x := by
  rw [delivered, scheduled_acted, given]
  cases handedOver x with
  | none => rw [List.append_nil]; rfl
  | some op => simp [delivered]

/-- While somebody serves a receive, nobody else has anything in his hands. -/
theorem Run.hands_of_serves (run : Run Party.Calm t ⟨c, l₁ ++ p :: l₂⟩) (inTurn : InTurn .receive t)
    (serves : p.Serves op) (hd : op.direction = .receive) :
    l₁.flatMap (·.hand) = [] ∧ l₂.flatMap (·.hand) = [] := by
  have none : ∀ q ∈ l₁ ++ l₂, q.hand = [] := by
    intro q hq
    by_contra hand
    obtain ⟨o, -, other, ho⟩ := q.serves_of_hand hand
    exact run.through.one_serves inTurn serves hd hq other ho
  constructor <;> refine List.flatMap_eq_nil_iff.mpr fun q hq => none q ?_
  · exact List.mem_append_left _ hq
  · exact List.mem_append_right _ hq

theorem Party.Step.done_of_given (h : Step c p x c' p') (given : given x ≠ []) : p.hand ≠ [] := by
  unfold Channel.given at given
  split at given
  · next op hx =>
    rcases h.serves hx with done | ⟨o, f, rfl, -, -⟩
    · unfold hand
      rw [done]
      exact given
    · refine absurd (Operation.received_of_status ?_) given
      rw [Operation.status_withStatus]
      nofun
  · exact absurd rfl given

/-- What is taken comes into the hands of all, and what is in their hands is passed on. -/
theorem Run.passes_on (run : Run Party.Calm t ⟨c, l₁ ++ p :: l₂⟩) (step : p.Step c x c' p')
    (run' : Run Party.Calm (e :: t) ⟨c', l₁ ++ p' :: l₂⟩) (inTurn : InTurn .receive (e :: t))
    (answers : w.Answers x) :
    System.hands ⟨c, l₁ ++ p :: l₂⟩ ++ w.taken x =
      given x ++ System.hands ⟨c', l₁ ++ p' :: l₂⟩ := by
  have passes := step.passes_on (run.calm p (by simp))
    (fun σ hσ => run.roomy (Party.Has.mem (.own hσ))) answers
  have alone : given x ++ p'.hand = [] ∨
      l₁.flatMap (·.hand) = [] ∧ l₂.flatMap (·.hand) = [] := by
    by_cases hand' : p'.hand = []
    · by_cases hx : given x = []
      · exact .inl (by rw [hx, hand', List.nil_append])
      · obtain ⟨op, -, serves, hd⟩ := p.serves_of_hand (step.done_of_given hx)
        exact .inr (run.hands_of_serves inTurn.tail serves hd)
    · obtain ⟨op, -, serves, hd⟩ := p'.serves_of_hand hand'
      exact .inr (run'.hands_of_serves inTurn serves hd)
  simp only [System.hands, List.flatMap_append, List.flatMap_cons]
  rcases alone with nothing | ⟨left, right⟩
  · rw [nothing] at passes
    obtain ⟨hand, taken⟩ := List.append_eq_nil_iff.mp passes
    obtain ⟨hx, hand'⟩ := List.append_eq_nil_iff.mp nothing
    rw [hand, taken, hx, hand', List.append_nil, List.nil_append, List.nil_append]
  · rw [left, right, List.nil_append, List.append_nil, List.nil_append, List.append_nil]
    exact passes

/-- What was delivered, what is in somebody's hands and what is unread is what was sent. -/
theorem Run.conserved (run : Run Party.Calm t s) (inTurn : InTurn .receive t)
    (fed : Fed wire t) :
    (wire t.length).sent = delivered t ++ s.hands ++ (wire t.length).unread := by
  induction run with
  | start first =>
      rw [System.hands, first.parties]
      exact fed
  | @join t s run p begins allowed unused ih =>
      obtain ⟨before, -, grows⟩ := fed
      obtain ⟨more, sent, unread⟩ := grows.unread
      have hand : p.hand = [] := by cases begins <;> rfl
      rw [List.length_cons, sent, unread]
      simp only [Wire.after, Wire.taken, Event.exchange?, List.length_nil, List.drop_zero,
        System.hands, List.flatMap_append, List.flatMap_singleton, hand, List.append_nil,
        ih inTurn.tail before, List.append_assoc]
      rfl
  | @act t c l₁ l₂ p run x turn yields ih =>
      obtain ⟨before, answers, grows⟩ := fed
      obtain ⟨more, sent, unread⟩ := grows.unread
      have passes := run.passes_on (Party.step_of_yields yields) (run.act yields) inTurn answers
      rw [List.length_cons, sent, unread, delivered_acted]
      calc (wire t.length).sent ++ more
          = delivered t ++ (System.hands ⟨c, l₁ ++ p :: l₂⟩ ++ (wire t.length).taken x) ++
              ((wire t.length).after x).unread ++ more := by
            rw [ih inTurn.tail before, ← (wire t.length).taken_append x]
            simp only [List.append_assoc]
        _ = delivered t ++ given x ++ System.hands ⟨turn.state, l₁ ++ turn.phase :: l₂⟩ ++
              (((wire t.length).after x).unread ++ more) := by
            rw [passes]
            simp only [List.append_assoc]

end Proactor.Channel
