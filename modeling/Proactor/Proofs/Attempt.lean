import Mathlib.Tactic.SplitIfs
import Proactor.Attempt
/-! # What an attempt leaves alone

An attempt carries the work of an operation on, but never its ticket nor its direction (`key`).
Whoever holds the operation afterwards holds the one that was submitted.  Only the attempts of sends
send (`Attempt.offered`). -/

namespace Proactor

/-- The ticket and the direction of an operation. -/
def Operation.key (op : Operation) : Nat × Direction := (op.ticket, op.direction)

@[simp] theorem Operation.key_withStatus (op : Operation) (s : Status) :
    (op.withStatus s).key = op.key := rfl

theorem Operation.ticket_eq_of_key {op op' : Operation} (h : op'.key = op.key) :
    op'.ticket = op.ticket := congrArg Prod.fst h

theorem Operation.direction_eq_of_key {op op' : Operation} (h : op'.key = op.key) :
    op'.direction = op.direction := congrArg Prod.snd h

/-- The operation that an attempt is about. -/
def Progress.op : Progress → Operation
  | calling a => a.op
  | ready op => op
  | notReady op => op

/-- A send of which nothing is left. -/
def Operation.spent (op : Operation) : Bool :=
  match op.work with
  | .send t => Attempt.nothingToSend t
  | _ => false

namespace Attempt

/-- An attempt begins with a call, unless nothing is left to do. -/
theorem start_cases (op : Operation) :
    (op.spent = true ∧ start op = .ready (op.withStatus .success)) ∨
      (op.spent = false ∧ start op = .calling ⟨op, none⟩) := by
  unfold start Operation.spent
  cases hw : op.work with
  | send t => cases hn : nothingToSend t <;> simp [hn]
  | _ => exact .inr ⟨rfl, rfl⟩

theorem key_start (op : Operation) : (start op).op.key = op.key := by
  rcases start_cases op with ⟨-, h⟩ | ⟨-, h⟩ <;> rw [h] <;> rfl

theorem work_start (op : Operation) : (start op).op.work = op.work := by
  rcases start_cases op with ⟨-, h⟩ | ⟨-, h⟩ <;> rw [h] <;> rfl

/-- A connect is never ready before its call. -/
theorem start_of_isConnect {op : Operation} (h : op.isConnect = true) :
    start op = .calling ⟨op, none⟩ := by
  rcases start_cases op with ⟨spent, -⟩ | ⟨-, start⟩
  · unfold Operation.isConnect at h
    unfold Operation.spent at spent
    cases hw : op.work <;> simp [hw] at h spent
  · exact start

theorem key_afterAccept (ticket : Nat) (status : Status) (address a : Address) (n m : Descriptor)
    (r : Except Int Accepted) :
    (afterAccept ⟨ticket, status, .accept address n⟩ a m r).op.key = (ticket, .connection) := by
  cases r with
  | ok got => rfl
  | error raw =>
      unfold afterAccept
      dsimp only
      split <;> rfl

theorem key_afterConnect (ticket : Nat) (status : Status) (address a : Address) (b started : Bool)
    (r : Except Int Unit) :
    (afterConnect ⟨ticket, status, .connect address b⟩ a started r).op.key =
      (ticket, .connection) := by
  cases r with
  | ok got => rfl
  | error raw =>
      unfold afterConnect
      dsimp only
      split_ifs <;> rfl

theorem key_afterReceive (ticket : Nat) (status : Status) (t u : Transfer) (spans : List Span)
    (r : Except Int Received) :
    (afterReceive ⟨ticket, status, .receive t⟩ u spans r).op.key = (ticket, .receive) := by
  cases r with
  | ok got => rfl
  | error raw =>
      unfold afterReceive
      dsimp only
      split <;> rfl

theorem key_afterSend (ticket : Nat) (status : Status) (t u : Transfer) (r : Except Int Nat) :
    (afterSend ⟨ticket, status, .send t⟩ u r).op.key = (ticket, .send) := by
  unfold afterSend
  split
  · rfl
  · rw [key_start]
    rfl
  · dsimp only
    split <;> rfl

/-- An attempt goes on with the operation that it began with. -/
theorem key_resume (a : Attempt) (fd : Descriptor) (r : (a.call fd).request.Reply) :
    ((a.call fd).resume r).op.key = a.op.key := by
  obtain ⟨⟨ticket, status, work⟩, readable⟩ := a
  cases work with
  | accept address n => exact key_afterAccept ticket status address address n n r
  | connect address started =>
      exact key_afterConnect ticket status address address started started r
  | receive t =>
      cases readable with
      | some bytes => exact key_afterReceive ticket status t t _ r
      | none =>
          cases r with
          | ok n => rfl
          | error raw => rfl
  | send t => exact key_afterSend ticket status t t r

/-- The first part of an attempt does not find out whether the descriptor is ready. -/
theorem start_ne_notReady (op o : Operation) : start op ≠ .notReady o := by
  rcases start_cases op with ⟨-, h⟩ | ⟨-, h⟩ <;> rw [h] <;> nofun

/-! ### Sends -/

/-- The bytes that an attempt offers to the kernel with its next call. -/
def offered (a : Attempt) : Bytes :=
  match a.op.work with
  | .send t => ((Span.unsent t.buffer.windows t.cursor).map (Span.read t.buffer.windows)).flatten
  | _ => []

/-- Only sends send, and they send what they offer. -/
theorem offered_of_send {a : Attempt} {fd fd' : Descriptor} {pieces : List Bytes}
    {address : Option Address} {flags : Int32}
    (h : (a.call fd).request = .send fd' pieces address flags) :
    a.op.direction = .send ∧ pieces.flatten = a.offered := by
  obtain ⟨⟨ticket, status, work⟩, readable⟩ := a
  cases work with
  | accept _ _ => cases h
  | connect _ _ => cases h
  | receive _ => cases readable <;> cases h
  | send _ =>
      cases h
      exact ⟨rfl, rfl⟩

end Attempt
end Proactor
