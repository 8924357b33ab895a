import Proactor.Host
import Proactor.Proofs.Interleaving
/-! # Transcripts of programs

What a program asks for, and what it comes to, depends on the answers that it gets.

* **Transcripts** (`Program.Transcript`).  The requests of a program with their answers, oldest
  first, and the value in which it ends.
* **Records** (`Program.record`).  A program is run by somebody who answers every request as he
  likes, and writes down what was asked.  Such a run always ends, and what was written down is a
  transcript.
* **Parts** (`transcript_bind_iff`, `interpret_bind`).  The transcript of programs that follow each
  other is made of theirs, also where their requests are answered by other programs. -/

namespace Proactor

/-- Somebody who answers requests.  An answer may depend on all that was asked before, oldest
first. -/
abbrev Responder (ε : Type) [Protocol ε] : Type :=
  List (Exchange ε) → (r : ε) → Protocol.Answer r

namespace Program

variable {ε δ : Type} [Protocol ε] [Protocol δ] {α β : Type}

/-- What a program asks, with the answers that it gets, and the value in which it ends then. -/
inductive Transcript : Program ε α → List (Exchange ε) → α → Prop
  | done (a : α) : Transcript (done a) [] a
  | ask {r : ε} {next : Protocol.Answer r → Program ε α} (answer : Protocol.Answer r)
      {t : List (Exchange ε)} {a : α} (rest : Transcript (next answer) t a) :
      Transcript (ask r next) (⟨r, answer⟩ :: t) a
  | note (entry : Log.Entry) {next : Program ε α} {t : List (Exchange ε)} {a : α}
      (rest : Transcript next t a) : Transcript (note entry next) t a

/-! ### Records -/

/-- Answer a request, and write it down. -/
def answerAndWrite (respond : Responder ε) (r : ε) :
    StateM (List (Exchange ε)) (Protocol.Answer r) := do
  let answer := respond (← get) r
  modify (· ++ [⟨r, answer⟩])
  return answer

/-- The value of a program that is answered by `respond`, and what was asked. -/
def record (respond : Responder ε) (p : Program ε α) : α × List (Exchange ε) :=
  (p.run (answerAndWrite respond) fun _ => return ()).run []

/-- What is written down, after whatever was written down before, is a transcript. -/
theorem exists_transcript_run (respond : Responder ε) (p : Program ε α)
    (asked : List (Exchange ε)) : ∃ t a,
      (p.run (answerAndWrite respond) fun _ => return ()).run asked = (a, asked ++ t) ∧
        p.Transcript t a := by
  induction p generalizing asked with
  | done a => exact ⟨[], a, by rw [List.append_nil]; rfl, .done a⟩
  | ask r next ih =>
      obtain ⟨t, a, ran, told⟩ := ih (respond asked r) (asked ++ [⟨r, respond asked r⟩])
      refine ⟨⟨r, respond asked r⟩ :: t, a, ?_, .ask _ told⟩
      rw [← List.singleton_append, ← List.append_assoc]
      exact ran
  | note entry next ih =>
      obtain ⟨t, a, ran, told⟩ := ih asked
      exact ⟨t, a, ran, .note entry told⟩

theorem transcript_record (respond : Responder ε) (p : Program ε α) :
    p.Transcript (p.record respond).2 (p.record respond).1 := by
  obtain ⟨t, a, ran, told⟩ := exists_transcript_run respond p []
  rw [record, ran]
  exact told

/-! ### Parts -/

instance : LawfulMonad (Program ε) :=
  .mk' _ (fun p => bind_done p) (fun _ _ => rfl) fun p f g => bind_assoc p f g

theorem transcript_pure_iff {a b : α} {t : List (Exchange ε)} :
    (pure a : Program ε α).Transcript t b ↔ t = [] ∧ b = a := by
  constructor
  · intro h
    cases h
    exact ⟨rfl, rfl⟩
  · rintro ⟨rfl, rfl⟩
    exact .done b

theorem transcript_log_iff {entry : Log.Entry} {t : List (Exchange ε)} {u : Unit} :
    (log entry : Program ε Unit).Transcript t u ↔ t = [] := by
  constructor
  · intro h
    cases h with
    | note _ rest =>
        cases rest
        rfl
  · rintro rfl
    exact .note entry (.done ())

theorem transcript_request_iff {r : ε} {t : List (Exchange ε)} {answer : Protocol.Answer r} :
    (request r).Transcript t answer ↔ t = [⟨r, answer⟩] := by
  constructor
  · intro h
    cases h with
    | ask answer rest =>
        cases rest
        rfl
  · rintro rfl
    exact .ask answer (.done answer)

/-- A request whose answer is only rewritten. -/
theorem transcript_ask_done {r : ε} {g : Protocol.Answer r → α} {t : List (Exchange ε)} {b : α}
    (h : (ask r fun answer => done (g answer)).Transcript t b) :
    ∃ answer, t = [⟨r, answer⟩] ∧ b = g answer := by
  cases h with
  | ask answer rest =>
      cases rest
      exact ⟨answer, rfl, rfl⟩

theorem transcript_bind_iff {p : Program ε α} {f : α → Program ε β} {t : List (Exchange ε)}
    {b : β} : (p >>= f).Transcript t b ↔
      ∃ t₁ t₂ a, t = t₁ ++ t₂ ∧ p.Transcript t₁ a ∧ (f a).Transcript t₂ b := by
  constructor
  · intro h
    induction p generalizing t with
    | done a => exact ⟨[], t, a, rfl, .done a, h⟩
    | ask r next ih =>
        cases h with
        | ask answer rest =>
            obtain ⟨t₁, t₂, a, rfl, told, later⟩ := ih answer rest
            exact ⟨_ :: t₁, t₂, a, rfl, .ask answer told, later⟩
    | note entry next ih =>
        cases h with
        | note _ rest =>
            obtain ⟨t₁, t₂, a, rfl, told, later⟩ := ih rest
            exact ⟨t₁, t₂, a, rfl, .note entry told, later⟩
  · rintro ⟨t₁, t₂, a, rfl, told, later⟩
    induction told with
    | done a => exact later
    | ask answer _ ih => exact .ask answer (ih later)
    | note entry _ ih => exact .note entry (ih later)

/-- A value that is announced by a line. -/
theorem transcript_log_pure {entry : Log.Entry} {t : List (Exchange ε)} {a b : α}
    (h : (log entry >>= fun _ => (pure a : Program ε α)).Transcript t b) : t = [] ∧ b = a := by
  obtain ⟨t₁, t₂, u, rfl, logged, ended⟩ := transcript_bind_iff.mp h
  obtain rfl := transcript_log_iff.mp logged
  exact transcript_pure_iff.mp ended

theorem interpret_request (f : (r : ε) → Program δ (Protocol.Answer r)) (r : ε) :
    (request r).interpret f = f r := bind_done (f r)

theorem interpret_bind (f : (r : ε) → Program δ (Protocol.Answer r)) (p : Program ε α)
    (g : α → Program ε β) :
    (p >>= g).interpret f = p.interpret f >>= fun a => (g a).interpret f := by
  induction p with
  | done a => rfl
  | ask r next ih =>
      change ((f r).bind fun answer => (next answer >>= g).interpret f) =
        ((f r).bind fun answer => (next answer).interpret f).bind fun a => (g a).interpret f
      rw [bind_assoc]
      exact congrArg _ (funext ih)
  | note entry next ih => exact congrArg (note entry) ih

end Program

/-- A host of the given kernel.  Its threads start, and end in order. -/
def Host.over (kernel : (call : SystemCall) → call.Reply) :
    (call : Host.Call) → Protocol.Answer call
  | .system call => kernel call
  | .enter thread => thread
  | .startWorker _ | .startDispatcher _ => (.ok () : Except Int Unit)
  | .haltWorkers | .haltDispatchers => ()
  | .joinWorker _ | .joinDispatcher _ => true
  | .complete _ => Pool.Outcome.finished
  | .release _ => (.ok () : Except Status Unit)
  | .print _ => ()

end Proactor
