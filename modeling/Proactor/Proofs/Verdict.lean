import Proactor.Proofs.Fates
/-! # Where a status comes from

The status with which an operation is completed is decided by the last request that was made for it,
whoever made it and whatever has happened since.

* **Trials** (`Trial`).  A call of an attempt, with the number of its error if it failed, or a
  refusal of the reactor.  `lastTrial` is the newest one of an operation.
* **Waiting** (`Attempt.WaitsFor`).  The errors after which an operation waits.  After any other
  error it is ready, with the status that `Attempt.reports`.
* **Verdicts** (`verdict`).  What the last trial says about an operation.  One that waits, for which
  there was no trial, or that is turned away ends with `shutdown`; a send with nothing to send
  succeeds without a trial.
* **The law** (`Run.status_eq_verdict`).  Every completion reports the verdict. -/

namespace Proactor

/-! ### Errors of calls -/

/-- Only a number without a meaning is not recognised. -/
theorem Errno.ofRaw_eq_unknown_iff (n : Int) :
    Errno.ofRaw n = .unknown ↔ ¬ Errno.Meaningful n := by
  refine ⟨fun h hn => ?_, Errno.ofRaw_of_not_meaningful⟩
  rw [Errno.ofRaw_of_meaningful hn] at h
  have zero : n = 0 := congrArg Errno.number h
  exact absurd hn.1 (by omega)

/-- Only the error that was not recognised reads as a success. -/
theorem Status.ofError_eq_success_iff (e : Errno) : Status.ofError e = .success ↔ e = .unknown := by
  rw [Status.ofError, Status.ofErrno_eq_success]
  refine ⟨fun h => ?_, fun h => congrArg Errno.number h⟩
  obtain ⟨number⟩ := e
  exact congrArg Errno.mk h

/-- The error says that the descriptor was not ready, or that a handshake has not ended. -/
def Errno.Transient (e : Errno) : Prop := e = .again ∨ e = .inProgress ∨ e = .already

namespace Attempt

/-- The errors of the next call after which the operation waits for the descriptor. -/
def WaitsFor (a : Attempt) (e : Errno) : Prop :=
  match a.op.work with
  | .accept .. | .send _ => e = .again
  | .connect _ false => e = .inProgress
  | .connect _ true => e = .already ∨ e = .inProgress ∨ e = .again
  | .receive _ => a.readable.isSome = true ∧ e = .again

instance : (a : Attempt) → (e : Errno) → Decidable (a.WaitsFor e)
  | ⟨⟨_, _, .accept ..⟩, _⟩, e | ⟨⟨_, _, .send _⟩, _⟩, e =>
    inferInstanceAs (Decidable (e = .again))
  | ⟨⟨_, _, .connect _ false⟩, _⟩, e => inferInstanceAs (Decidable (e = .inProgress))
  | ⟨⟨_, _, .connect _ true⟩, _⟩, e =>
    inferInstanceAs (Decidable (e = .already ∨ e = .inProgress ∨ e = .again))
  | ⟨⟨_, _, .receive _⟩, readable⟩, e =>
    inferInstanceAs (Decidable (readable.isSome = true ∧ e = .again))

/-- The next call repeats a connect, and its error says that the socket is connected. -/
def Connected (a : Attempt) (e : Errno) : Prop :=
  match a.op.work with
  | .connect _ true => e = .isConnected
  | _ => False

instance : (a : Attempt) → (e : Errno) → Decidable (a.Connected e)
  | ⟨⟨_, _, .connect _ true⟩, _⟩, e => inferInstanceAs (Decidable (e = .isConnected))
  | ⟨⟨_, _, .connect _ false⟩, _⟩, _ | ⟨⟨_, _, .accept ..⟩, _⟩, _
  | ⟨⟨_, _, .receive _⟩, _⟩, _ | ⟨⟨_, _, .send _⟩, _⟩, _ => isFalse id

/-- The status of an operation whose call has failed, if it does not wait. -/
def reports (a : Attempt) (e : Errno) : Status :=
  if a.Connected e then .success else .ofError e

variable {op : Operation} {a : Attempt} {e : Errno} {raw : Int}

theorem WaitsFor.transient (h : a.WaitsFor e) : e.Transient := by
  unfold WaitsFor at h
  split at h
  · exact .inl h
  · exact .inl h
  · exact .inr (.inl h)
  · rcases h with h | h | h
    · exact .inr (.inr h)
    · exact .inr (.inl h)
    · exact .inl h
  · exact .inl h.2

theorem Connected.eq (h : a.Connected e) : e = .isConnected := by
  unfold Connected at h
  split at h
  · exact h
  · cases h

theorem reports_eq_success_iff : a.reports e = .success ↔ a.Connected e ∨ e = .unknown := by
  unfold reports
  split_ifs with h
  · simp [h]
  · simp [h, Status.ofError_eq_success_iff]

theorem WaitsFor.reports_ne_success (h : a.WaitsFor e) : a.reports e ≠ .success := by
  intro hs
  have number : e = .isConnected ∨ e = .unknown := (reports_eq_success_iff.mp hs).imp_left (·.eq)
  rcases h.transient with rfl | rfl | rfl <;> revert number <;> decide

/-- What is left of an operation after a call that failed. -/
inductive Fails (a : Attempt) (e : Errno) : Progress → Prop
  | waits {op : Operation} (h : a.WaitsFor e) (hs : op.spent = a.op.spent) :
      Fails a e (.notReady op)
  | ends {op : Operation} (h : ¬ a.WaitsFor e) (hs : op.status = a.reports e) :
      Fails a e (.ready op)

/-- What is left of an operation after a call that succeeded. -/
inductive Succeeds : Progress → Prop
  | goesOn {a : Attempt} (hs : a.op.spent = false) : Succeeds (.calling a)
  | ends {op : Operation} (hs : op.status = .success) : Succeeds (.ready op)

/-- The operation waits after the errors after which it should. -/
theorem Fails.of_ite {P : Prop} [Decidable P] {op o : Operation} {work : Work}
    (waits : P ↔ a.WaitsFor e) (spent : op.spent = a.op.spent) (connected : ¬ a.Connected e) :
    a.Fails e (if P then .notReady op else failed o work e) := by
  split_ifs with h
  · exact .waits (waits.mp h) spent
  · exact .ends (fun hw => h (waits.mpr hw)) (if_neg connected).symm

theorem fails_afterConnect {ticket : Nat} {status : Status} {address : Address} {started : Bool}
    {readable : Option Nat} :
    Fails ⟨⟨ticket, status, .connect address started⟩, readable⟩ (.ofRaw raw)
      (afterConnect ⟨ticket, status, .connect address started⟩ address started (.error raw)) := by
  cases started with
  | false => exact .of_ite Iff.rfl rfl id
  | true =>
      unfold afterConnect
      dsimp only
      rw [if_pos rfl]
      by_cases connected : Errno.ofRaw raw = .isConnected
      · rw [if_pos connected]
        refine .ends (fun waits => ?_) (if_pos connected).symm
        rcases connected ▸ waits.transient with h | h | h <;> cases h
      · rw [if_neg connected]
        exact .of_ite Iff.rfl rfl connected

/-- After a call that failed, the operation waits, or it is ready. -/
theorem fails_of_error (a : Attempt) (fd : Descriptor) (raw : Int) :
    a.Fails (.ofRaw raw) ((a.call fd).resume (.error raw)) := by
  obtain ⟨⟨ticket, status, work⟩, readable⟩ := a
  cases work with
  | accept address n => exact .of_ite Iff.rfl rfl id
  | connect address started => exact fails_afterConnect
  | receive t =>
      cases readable with
      | none => exact .ends (fun waits => Bool.false_ne_true waits.1) rfl
      | some bytes => exact .of_ite (and_iff_right rfl).symm rfl id
  | send t => exact .of_ite Iff.rfl rfl id

/-- After a call that succeeded, another call is next, or the operation has succeeded. -/
theorem succeeds_of_ok (a : Attempt) (fd : Descriptor) (v : (a.call fd).request.Value) :
    Succeeds ((a.call fd).resume (.ok v)) := by
  obtain ⟨⟨ticket, status, work⟩, readable⟩ := a
  cases work with
  | accept _ _ | connect _ _ => exact .ends rfl
  | receive t =>
      cases readable with
      | none => exact .goesOn rfl
      | some bytes => exact .ends rfl
  | send t =>
      cases v with
      | zero => exact .ends rfl
      | succ n =>
          -- what is sent next is a part of the same attempt
          have next : (call ⟨⟨ticket, status, .send t⟩, readable⟩ fd).resume (.ok (n + 1)) =
              start ⟨ticket, status, .send { t with
                transferred := t.transferred + (n + 1)
                cursor := t.cursor.advance t.buffer.windows (n + 1) }⟩ := rfl
          rw [next]
          rcases start_cases _ with ⟨-, h⟩ | ⟨hs, h⟩
          · exact h ▸ .ends rfl
          · exact h ▸ .goesOn hs

end Attempt

namespace Channel

/-- Something that was asked for an operation, and how it went. -/
inductive Trial where
  /-- A call of an attempt, with the number of its error if it failed, by a party that has this
  pending error to hand out. -/
  | call (attempt : Attempt) (failure : Option Int) (pending : Option Status)
  /-- The reactor refused the channel. -/
  | refused (error : Errno)

/-- The pending error that a failure of a trial is reported as. -/
def Trial.pending : Trial → Option Status
  | call _ _ pending => pending
  | refused _ => none

/-- What a trial says about its operation. -/
def Trial.verdict : Trial → Status
  | call _ none _ => .success
  | call a (some raw) pending =>
    if a.reports (.ofRaw raw) = .success then .success
    else pending.getD (if a.WaitsFor (.ofRaw raw) then .shutdown else a.reports (.ofRaw raw))
  | refused e => .ofError e

/-- What a step asks for the operation with this ticket. -/
def Party.trial? (n : Nat) (x : Option (Exchange Call)) (p : Party) : Option Trial :=
  match p.attempt? with
  | some a =>
    if a.op.ticket = n then
      match x with
      | some ⟨.system _, .ok _⟩ => some (.call a none p.pending)
      | some ⟨.system _, .error raw⟩ => some (.call a (some raw) p.pending)
      | _ => none
    else none
  | none =>
    match p, x with
    | submission _ ⟨_, .attach op _⟩, some ⟨.register _ _, .error e⟩ =>
      if op.ticket = n then some (.refused e) else none
    | _, _ => none

namespace Event

/-- What was asked in an event for the operation with this ticket. -/
def trial? (n : Nat) : Event → Option Trial
  | acted _ p x _ => p.trial? n x
  | joined _ _ => none

/-- An attempt of the send with this ticket found nothing left. -/
def spends (n : Nat) : Event → Bool
  | acted s p _ _ => (p.begins? s.channel).any fun op => op.ticket == n && op.spent
  | joined _ _ => false

end Event

/-- The last thing that was asked for the operation with this ticket. -/
def lastTrial (n : Nat) (t : List Event) : Option Trial := t.findSome? (·.trial? n)

/-- The status that the operation with this ticket ends with, unless it is tried again. -/
def verdict (n : Nat) (t : List Event) : Status :=
  match lastTrial n t with
  | some trial => trial.verdict
  | none => if t.any (·.spends n) then .success else .shutdown

/-- How an operation stands says what the verdict is. -/
inductive Judged (n : Nat) (t : List Event) : Standing → Prop
  | waiting {op : Operation} (hv : verdict n t = .shutdown)
      (hs : lastTrial n t ≠ none → op.spent = false) : Judged n t (.waiting op)
  | trying {a : Attempt} (hs : a.op.spent = false) : Judged n t (.trying a)
  | done {op : Operation} (hv : op.status = verdict n t) : Judged n t (.done op)

variable {use : Party → Prop} {c c' : Channel} {l₁ l₂ : List Party} {p p' : Party}
  {x : Option (Exchange Call)} {t : List Event} {s : System} {e : Event} {n : Nat}
  {op : Operation} {trial : Trial} {σ σ' : Standing}

/-! ### The last trial -/

theorem lastTrial_cons_some (h : e.trial? n = some trial) : lastTrial n (e :: t) = some trial :=
  List.findSome?_cons_of_isSome (by rw [h]; rfl) |>.trans h

theorem lastTrial_cons_none (h : e.trial? n = none) : lastTrial n (e :: t) = lastTrial n t :=
  List.findSome?_cons_of_isNone (by rw [h]; rfl)

theorem verdict_of_trial (h : lastTrial n t = some trial) : verdict n t = trial.verdict := by
  rw [verdict, h]

theorem verdict_cons_none (h : e.trial? n = none) (hs : e.spends n = false) :
    verdict n (e :: t) = verdict n t := by
  rw [verdict, verdict, lastTrial_cons_none h, List.any_cons, hs, Bool.false_or]

/-- What an answered call asked. -/
theorem Party.trial?_of_ok {a : Attempt} {request : SystemCall} {v : request.Value}
    (ha : p.attempt? = some a) (hn : a.op.ticket = n) :
    p.trial? n (some ⟨.system request, .ok v⟩) = some (.call a none p.pending) := by
  unfold trial?
  rw [ha]
  exact if_pos hn

theorem Party.trial?_of_error {a : Attempt} {request : SystemCall} {raw : Int}
    (ha : p.attempt? = some a) (hn : a.op.ticket = n) :
    p.trial? n (some ⟨.system request, .error raw⟩) = some (.call a (some raw) p.pending) := by
  unfold trial?
  rw [ha]
  exact if_pos hn

/-- A trial is an answered call of an attempt, or a refusal. -/
theorem Party.trial?_cases (h : p.trial? n x = some trial) :
    (∃ a failure, p.attempt? = some a ∧ a.op.ticket = n ∧ trial = .call a failure p.pending) ∨
      ∃ o g op tried fd interest e, p = .submission o ⟨g, .attach op tried⟩ ∧ op.ticket = n ∧
        x = some ⟨.register fd interest, .error e⟩ ∧ trial = .refused e := by
  unfold trial? at h
  split at h
  · next a ha =>
    split_ifs at h with hn
    split at h
    · exact .inl ⟨a, none, ha, hn, (Option.some.inj h).symm⟩
    · next raw => exact .inl ⟨a, some raw, ha, hn, (Option.some.inj h).symm⟩
    · cases h
  · split at h
    · next hp hx =>
      split_ifs at h with hn
      cases h
      exact .inr ⟨_, _, _, _, _, _, _, rfl, hn, rfl, rfl⟩
    · cases h

theorem Party.trial?_none (p : Party) : p.trial? n none = none := by
  unfold trial?
  split
  · exact ite_self none
  · split
    · contradiction
    · rfl

theorem Party.trial?_of_refused {o : Operation} {g tried : Bool} {fd : Descriptor}
    {interest : Readiness} {error : Errno} (hn : op.ticket = n) :
    (submission o ⟨g, .attach op tried⟩).trial? n (some ⟨.register fd interest, .error error⟩) =
      some (.refused error) :=
  if_pos hn

/-! ### What a trial leaves -/

/-- A success stays one; a failure is reported as the pending error if there is one. -/
theorem Dispatch.status_takePending (op : Operation) (pending : Option Status) :
    (takePending op pending).1.status =
      if op.status = .success then .success else pending.getD op.status := by
  unfold takePending
  by_cases hs : op.status = .success
  · simp [hs]
  · have failed : op.status.isSuccess = false := by simp [Status.isSuccess, hs]
    rw [failed, if_neg hs]
    cases pending <;> rfl

theorem Judged.of_succeeds {r : Progress} {pending : Option Status} {last : Bool}
    (h : Attempt.Succeeds r) (hv : verdict n t = .success) :
    Judged n t (.after pending last r) := by
  cases h with
  | goesOn hs => exact .trying hs
  | ends hs =>
      refine .done ?_
      rw [Dispatch.status_takePending, if_pos hs, hv]

theorem Judged.of_fails {a : Attempt} {raw : Int} {r : Progress} {pending : Option Status}
    {last : Bool} (h : a.Fails (.ofRaw raw) r) (hs : a.op.spent = false)
    (hv : verdict n t = (Trial.call a (some raw) pending).verdict) :
    Judged n t (.after pending last r) := by
  cases h with
  | waits waits same =>
      rw [Trial.verdict, if_neg waits.reports_ne_success, if_pos waits] at hv
      cases pending with
      | some status => exact .done hv.symm
      | none =>
          cases last with
          | true => exact .done hv.symm
          | false => exact .waiting hv fun _ => same.trans hs
  | ends waits reported =>
      rw [Trial.verdict, if_neg waits] at hv
      refine .done ?_
      rw [Dispatch.status_takePending, reported, hv]

/-- A call leaves its operation as the verdict says. -/
theorem Judged.of_call {a : Attempt} {fd : Descriptor} {reply : (a.call fd).request.Reply}
    {last : Bool} (ha : p.attempt? = some a) (hn : a.op.ticket = n) (hs : a.op.spent = false)
    (he : e.trial? n = p.trial? n (some ⟨.system (a.call fd).request, reply⟩)) :
    Judged n (e :: t) (.after p.pending last ((a.call fd).resume reply)) := by
  cases reply with
  | ok v =>
      have trial := he.trans (Party.trial?_of_ok ha hn)
      exact .of_succeeds (a.succeeds_of_ok fd v) (verdict_of_trial (lastTrial_cons_some trial))
  | error raw =>
      have trial := he.trans (Party.trial?_of_error ha hn)
      exact .of_fails (a.fails_of_error fd raw) hs (verdict_of_trial (lastTrial_cons_some trial))

theorem Judged.later (h : Judged n t σ) (ht : e.trial? n = none) (hs : e.spends n = false) :
    Judged n (e :: t) σ := by
  have verdict := verdict_cons_none (t := t) ht hs
  cases h with
  | waiting hv hs =>
      exact .waiting (verdict.trans hv) (by rwa [lastTrial_cons_none ht])
  | trying hs => exact .trying hs
  | done hv => exact .done (hv.trans verdict.symm)

/-- Where an attempt begins, the operation is ready only if nothing is left of it. -/
theorem Judged.of_start (before : Judged n t (.waiting op)) (became : Became (Attempt.start op) σ)
    (ht : e.trial? n = none) (hs : e.spends n = op.spent) : Judged n (e :: t) σ := by
  have last := lastTrial_cons_none (t := t) ht
  cases before with
  | waiting hv unspent =>
      rcases Attempt.start_cases op with ⟨spent, h⟩ | ⟨left, h⟩ <;> rw [h] at became
      · have none : lastTrial n t = none := by
          refine Classical.byContradiction fun some => ?_
          rw [unspent some] at spent
          cases spent
        cases became with
        | itself _ =>
            refine .done ?_
            rw [verdict, last, none, List.any_cons, hs, spent]
            rfl
        | instead failed _ => exact absurd rfl failed
      · cases became with
        | itself _ => exact .trying left

/-- Who is not tried stands as before, or is turned away. -/
theorem Judged.onward (before : Judged n t σ) (onward : Onward c p x σ σ')
    (hn : σ'.op.ticket = n) (ht : (Event.acted s p x p').trial? n = none)
    (hs : (Event.acted s p x p').spends n = false) : Judged n (.acted s p x p' :: t) σ' := by
  cases onward with
  | same _ => exact before.later ht hs
  | stopped op =>
      cases before with
      | waiting hv _ => exact Judged.later (.done hv.symm) ht hs
  | @refused o op g tried error ha hp hx =>
      subst hp hx
      have ticket : op.ticket = n := hn
      rw [Event.trial?, Party.trial?_of_refused ticket] at ht
      cases ht

/-! ### Runs -/

/-- Whoever does not try an operation asks nothing for it, unless it brings the operation and the
reactor refuses. -/
theorem Party.trial?_of_untried (h : ∀ op, p.tries c = some op → op.ticket ≠ n)
    (ht : p.trial? n x = some trial) :
    ∃ o g op tried fd interest e, p = .submission o ⟨g, .attach op tried⟩ ∧ op.ticket = n ∧
      x = some ⟨.register fd interest, .error e⟩ ∧ trial = .refused e := by
  rcases trial?_cases ht with ⟨a, failure, ha, hn, -⟩ | refusal
  · exact absurd hn (h a.op (by rw [tries, ha]; rfl))
  · exact refusal

theorem Event.spends_of_untried (p' : Party) (h : ∀ op, p.tries s.channel = some op →
    op.ticket ≠ n) : (Event.acted s p x p').spends n = false := by
  cases hb : p.begins? s.channel with
  | none => simp [spends, hb]
  | some op =>
      have other := h op (Party.tries_of_begins hb)
      simp [spends, hb, other]

/-- Whoever took a step in a run was there. -/
theorem Run.mem_parties {newer older : List Event} {s₀ : System}
    (run : Run use (newer ++ .acted s₀ p x p' :: older) s) : p ∈ s₀.parties := by
  obtain ⟨s', run⟩ := run.earlier
  cases run with
  | act _ _ => simp

/-- Nothing was asked for what was not submitted. -/
theorem Run.trial?_of_unused (run : Run use t s) (unused : s.Unused n) (he : e ∈ t) :
    e.trial? n = none := by
  refine Option.eq_none_iff_forall_ne_some.mpr fun trial ht => ?_
  cases e with
  | joined _ _ => cases ht
  | acted s₀ p x p' =>
      obtain ⟨o, g, op, tried, fd, interest, e, rfl, hn, -, -⟩ :=
        Party.trial?_of_untried (fun op => run.untried unused he) ht
      obtain ⟨newer, older, rfl⟩ := List.append_of_mem he
      have hm := run.mem_parties
      have key := (run.before.orderly.intact _ hm).2 op rfl
      obtain ⟨sub, hs⟩ := run.submission_since hm
      exact unused _ hs ⟨o, sub, rfl, (Operation.ticket_eq_of_key key).symm.trans hn⟩

theorem Judged.fresh (run : Run use t s) (unused : s.Unused n) : Judged n t (.waiting op) := by
  have none : lastTrial n t = none :=
    List.findSome?_eq_none_iff.mpr fun e he => run.trial?_of_unused unused he
  have spent : t.any (·.spends n) = false := by
    refine List.any_eq_false.mpr fun e he => ?_
    cases e with
    | joined _ _ => exact Bool.false_ne_true
    | acted s₀ p x p' =>
        exact Bool.eq_false_iff.mp (Event.spends_of_untried p' fun op => run.untried unused he)
  refine .waiting ?_ fun h => absurd none h
  rw [verdict, none, spent]
  rfl

theorem Party.Step.refused {o : Operation} {g tried : Bool} {fd : Descriptor}
    {interest : Readiness} {error : Errno}
    (h : Party.Step c (.submission o ⟨g, .attach op tried⟩)
      (some ⟨.register fd interest, .error error⟩) c' p') :
    .done (op.withStatus (.ofError error)) ∈ p'.standings := by
  cases h with
  | submission h =>
      cases h with
      | attachFailed _ => exact .head _

/-- What a step makes of an operation, the verdict says. -/
theorem Judged.fate {turn : Turn Channel Party} (run : Run use t ⟨c, l₁ ++ p :: l₂⟩)
    (yields : (p.next c).Yields c x turn)
    (h : σ' ∈ System.standings (.acted ⟨c, l₁ ++ p :: l₂⟩ p x turn.phase :: t)
      ⟨turn.state, l₁ ++ turn.phase :: l₂⟩)
    (hn : σ'.op.ticket = n) (fate : Fate c p x (Judged n t) σ') :
    Judged n (.acted ⟨c, l₁ ++ p :: l₂⟩ p x turn.phase :: t) σ' := by
  have step := Party.step_of_yields yields
  -- whoever has this ticket after the step is the one that the step left
  have only : ∀ {σ : Standing}, σ ∈ turn.phase.standings → σ.op.ticket = n → σ' = σ := fun hσ ht =>
    (run.act yields).one_standing h (Party.Has.own hσ).mem (hn.trans ht.symm)
  cases fate with
  | @wentOn a _ ha before _ _ became =>
      obtain ⟨-, reply, hx, after⟩ := step.answered ha
      have key := became.key.trans (a.key_resume c.fd _)
      have ticket : a.op.ticket = n := (Operation.ticket_eq_of_key key).symm.trans hn
      have pends := (run.pends p (by simp)).pending
      have key := (became_after pends p.last _).key.trans (a.key_resume c.fd reply)
      cases only after ((Operation.ticket_eq_of_key key).trans ticket)
      cases before with
      | trying hs => exact .of_call ha ticket hs (congrArg (Party.trial? n · p) hx)
  | @began op _ hb hx before became =>
      subst hx
      have key := became.key.trans (Attempt.key_start op)
      have ticket : op.ticket = n := (Operation.ticket_eq_of_key key).symm.trans hn
      exact .of_start before became p.trial?_none (by simp [Event.spends, hb, ticket])
  | untried hne before onward =>
      have untried : ∀ op, p.tries c = some op → op.ticket ≠ n := fun op ho => hn ▸ hne op ho
      cases ht : p.trial? n x with
      | none => exact before.onward onward hn ht (Event.spends_of_untried turn.phase untried)
      | some trial =>
          have last := lastTrial_cons_some (t := t)
            (e := .acted ⟨c, l₁ ++ p :: l₂⟩ p x turn.phase) ht
          obtain ⟨o, g, op, tried, fd, interest, e, rfl, ticket, rfl, rfl⟩ :=
            Party.trial?_of_untried untried ht
          cases only step.refused ticket
          exact .done (verdict_of_trial last).symm

/-- How an operation stands is what its last trial says. -/
theorem Run.judged (run : Run use t s) (h : σ ∈ s.standings t) : Judged σ.op.ticket t σ := by
  obtain ⟨op, sub, submitted, same⟩ := run.submission_of_standing h
  rw [← same]
  refine run.standing_lasts (P := Judged op.ticket) ?_ ?_ ?_ submitted h same.symm
  · intro t s run unused
    exact .fresh run unused
  · intro t s p σ before
    exact before.later rfl rfl
  · intro t c l₁ l₂ p x turn σ' run yields h hn fate
    exact .fate run yields h hn fate

/-- No trial is made with a success to hand out as an error. -/
theorem Run.pending_ne_success (run : Run use t s) (h : lastTrial n t = some trial) :
    trial.pending ≠ some .success := by
  obtain ⟨e, he, ht⟩ := List.exists_of_findSome?_eq_some h
  cases e with
  | joined _ _ => cases ht
  | acted s₀ p x p' =>
      obtain ⟨newer, older, rfl⟩ := List.append_of_mem he
      have pends := (run.before.pends p run.mem_parties).pending
      rcases Party.trial?_cases ht with ⟨a, failure, -, -, rfl⟩ |
        ⟨o, g, op, tried, fd, interest, e, -, -, -, rfl⟩
      · exact pends
      · nofun

/-- Every completion reports what the last trial of its operation says. -/
theorem Run.status_eq_verdict (run : Run use t s) (h : op ∈ scheduled t) :
    op.status = verdict op.ticket t := by
  have judged := run.judged (mem_standings_of_scheduled h)
  cases judged with
  | done hv => exact hv

end Channel

end Proactor
