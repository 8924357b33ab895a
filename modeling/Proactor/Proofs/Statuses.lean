import Proactor.Proofs.Verdict
/-! # Success and errors that say "not yet"

Which completions report a success, and which report an error that only says that the descriptor was
not ready.

* **Success** (`Run.success_iff`).  A completion reports success where its operation has earned it
  (`Earned`), and where the last thing that was asked failed with a number without a meaning
  (`Trial.Misread`): such a number is recognised as `0`, which is the number of success.
* **Not yet** (`Run.transient_iff`).  Attempts wait for the error that they expect.  The errors that
  get through (`Trial.Leaks`) are those that no attempt of this kind waits for
  (`Attempt.Mistakes`), the pending error of a socket, and the error of a registration. -/

namespace Proactor

/-- The status says that the descriptor was not ready, or that a handshake has not ended. -/
def Status.isTransient : Status → Bool
  | wouldBlock | inProgress | alreadyInProgress => true
  | _ => false

theorem Status.isTransient_ofError (e : Errno) :
    (Status.ofError e).isTransient = true ↔ e.Transient := by
  constructor
  · intro h
    obtain ⟨number⟩ := e
    unfold ofError ofErrno at h
    dsimp only at h
    split at h <;> try cases h
    · exact .inl rfl
    · exact .inr (.inl rfl)
    · exact .inr (.inr rfl)
  · rintro (rfl | rfl | rfl) <;> rfl

/-- What the caller is given carries the status of the operation. -/
theorem Operation.status_completion (op : Operation) :
    op.completion.outcome.status = op.status := by
  unfold completion
  cases op.work <;> rfl

/-- The errors of the next call that the operation takes for its end, though they say that it is not
ready. -/
def Attempt.Mistakes (a : Attempt) (e : Errno) : Prop :=
  match a.op.work with
  | .accept .. | .send _ => e = .inProgress ∨ e = .already
  | .connect _ false => e = .again ∨ e = .already
  | .connect _ true => False
  | .receive _ => e = .inProgress ∨ e = .already ∨ a.readable = none ∧ e = .again

theorem Attempt.mistakes_iff (a : Attempt) (e : Errno) :
    a.Mistakes e ↔ e.Transient ∧ ¬ a.WaitsFor e := by
  obtain ⟨⟨ticket, status, work⟩, readable⟩ := a
  have apart : Errno.again ≠ .inProgress ∧ Errno.again ≠ .already ∧
      Errno.inProgress ≠ .already := by decide
  cases work with
  | accept _ _ | send _ =>
      show (e = .inProgress ∨ e = .already) ↔ e.Transient ∧ ¬ e = .again
      grind [Errno.Transient]
  | connect _ started =>
      cases started with
      | false =>
          show (e = .again ∨ e = .already) ↔ e.Transient ∧ ¬ e = .inProgress
          grind [Errno.Transient]
      | true =>
          show False ↔ e.Transient ∧ ¬ (e = .already ∨ e = .inProgress ∨ e = .again)
          grind [Errno.Transient]
  | receive _ =>
      show (e = .inProgress ∨ e = .already ∨ readable = none ∧ e = .again) ↔
        e.Transient ∧ ¬ (readable.isSome = true ∧ e = .again)
      cases readable <;> grind [Errno.Transient]

theorem Attempt.isTransient_reports (a : Attempt) {e : Errno} :
    (a.reports e).isTransient = true ↔ e.Transient := by
  unfold reports
  split_ifs with connected
  · refine iff_of_false Bool.false_ne_true fun h => ?_
    cases connected.eq
    revert h
    unfold Errno.Transient
    decide
  · exact Status.isTransient_ofError e

namespace Channel

namespace Trial

/-- What was asked for was done: the call succeeded, or it repeated a connect and the socket is
connected. -/
def Succeeds : Trial → Prop
  | call _ none _ => True
  | call a (some raw) _ => a.Connected (.ofRaw raw)
  | refused _ => False

/-- It failed, and the number of the error has no meaning. -/
def Misread : Trial → Prop
  | call _ none _ => False
  | call _ (some raw) _ => ¬ Errno.Meaningful raw
  | refused e => e = .unknown

/-- The ways in which an error that says "not yet" gets to a caller. -/
def Leaks : Trial → Prop
  | call _ none _ => False
  -- the operation does not wait for it
  | call a (some raw) none => a.Mistakes (.ofRaw raw)
  -- it was the pending error of the socket, which any failure hands out
  | call a (some raw) (some status) =>
    a.reports (.ofRaw raw) ≠ .success ∧ status.isTransient = true
  -- the reactor refused the channel with it
  | refused e => e.Transient

variable {trial : Trial}

theorem getD_ne_success {pending : Option Status} {status : Status}
    (hp : pending ≠ some .success) (hs : status ≠ .success) : pending.getD status ≠ .success := by
  cases pending with
  | none => exact hs
  | some _ => exact fun h => hp (congrArg some h)

theorem verdict_eq_success_iff (hp : trial.pending ≠ some .success) :
    trial.verdict = .success ↔ trial.Succeeds ∨ trial.Misread := by
  cases trial with
  | refused e => exact (Status.ofError_eq_success_iff e).trans (iff_of_eq (false_or _)).symm
  | call a failure pending =>
      cases failure with
      | none => exact ⟨fun _ => .inl trivial, fun _ => rfl⟩
      | some raw =>
          refine Iff.trans ?_ (Attempt.reports_eq_success_iff.trans
            (or_congr_right (Errno.ofRaw_eq_unknown_iff raw)))
          rw [verdict]
          split_ifs with reported waits
          · exact iff_of_true rfl reported
          · exact iff_of_false (getD_ne_success hp (by decide)) reported
          · exact iff_of_false (getD_ne_success hp reported) reported

theorem isTransient_verdict_iff : trial.verdict.isTransient = true ↔ trial.Leaks := by
  cases trial with
  | refused e => exact Status.isTransient_ofError e
  | call a failure pending =>
      cases failure with
      | none => exact iff_of_false Bool.false_ne_true id
      | some raw =>
          cases pending with
          | some status =>
              rw [verdict, Leaks]
              split_ifs with reported
              · exact iff_of_false Bool.false_ne_true fun h => h.1 reported
              all_goals exact (and_iff_right reported).symm
          | none =>
              rw [verdict, Leaks, a.mistakes_iff]
              split_ifs with reported waits
              · refine iff_of_false Bool.false_ne_true fun h => ?_
                have leaks := a.isTransient_reports.mpr h.1
                rw [reported] at leaks
                cases leaks
              · exact iff_of_false Bool.false_ne_true fun h => h.2 waits
              · exact a.isTransient_reports.trans (and_iff_left waits).symm

end Trial

/-- What was asked last for an operation was done, or it was a send with nothing to send. -/
def Earned (n : Nat) (t : List Event) : Prop :=
  (∃ trial, lastTrial n t = some trial ∧ trial.Succeeds) ∨
    lastTrial n t = none ∧ ∃ e ∈ t, e.spends n = true

variable {use : Party → Prop} {t : List Event} {s : System} {op : Operation}

/-- The answers while every call fails with the same number. -/
def failing (raw : Int) : (request : Call) → Protocol.Answer request
  | .system _ => Except.error raw
  | request => notReady request

/-- A handshake is begun, and when the descriptor is writable the connect is repeated. -/
def connectedMeanwhile : List Choice :=
  [.join (.submission false (.connect 7 default)), .act 0 notReady, .act 0 (failing 115),
    .act 0 notReady, .join (.dispatch .writable), .act 1 notReady, .act 1 notReady,
    .act 1 notReady, .act 1 (failing 106), .act 1 notReady]

/-- An accept that fails with a number without a meaning. -/
def misreadAccept : List Choice :=
  [.join (.submission false (.accept 7 default)), .act 0 notReady, .act 0 (failing 524),
    .act 0 notReady]

/-- A connect whose first call would have to wait. -/
def hastyConnect : List Choice :=
  [.join (.submission true (.connect 7 default)), .act 0 notReady, .act 0 (failing 11),
    .act 0 notReady]

end Channel

end Proactor
