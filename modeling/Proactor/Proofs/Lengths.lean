import Proactor.Proofs.Address
import Proactor.Proofs.Fates
import Proactor.Proofs.Transcripts
import Proactor.Socket
/-! # How long addresses claim to be

A block for an address has 128 bytes, and says how many of them are in use.  Whoever is given an
address believes it.

* **Attempts.**  The address that an operation names to the kernel never changes
  (`Attempt.named?_resume`).  The one that it gives back is the one that it was given, fits into its
  block, or is as long as the kernel claims for a connection (`Attempt.address?_resume`).
* **Origins** (`Obtainable`).  A program makes its addresses from endpoints or as blank
  blocks, or it gets them with completions.
* **Bounds** (`Run.lengths_within`).  No address that is named or delivered claims more than its
  block has, unless the kernel claimed so much for a connection.  Then it is believed. -/

namespace Proactor

/-- The address that an operation carries. -/
def Work.address? : Work → Option Address
  | accept a _ | connect a _ => some a
  | receive t | send t => t.address

/-- The address that an operation names to the kernel. -/
def Work.named? : Work → Option Address
  | connect a _ => some a
  | send t => t.address
  | accept .. | receive _ => none

/-- The address that a completion gives to the caller. -/
def Outcome.address? : Outcome → Option Address
  | accepted _ a _ => some a
  | transferred _ _ a _ _ => a
  | connected _ => none

/-- The address that a system call names to the kernel. -/
def SystemCall.named? : SystemCall → Option Address
  | bind _ a | connect _ a => some a
  | send _ _ a _ => a
  | _ => none

/-- The length that the kernel claims for the address of a connection. -/
def Channel.claimed? : Option (Exchange Channel.Call) → Option Nat
  | some ⟨.system (.accept ..), .ok (got : Accepted)⟩ => some got.address.length
  | _ => none

/-- The address fits into its block, or it is as long as the kernel may claim. -/
def Address.Within (claims : Nat → Prop) (a : Address) : Prop :=
  a.length ≤ capacity ∨ claims a.length

theorem Work.address?_of_named {w : Work} {a : Address} (h : w.named? = some a) :
    w.address? = some a := by
  cases w with
  | connect _ _ | send _ => exact h
  | accept _ _ | receive _ => cases h

/-- What a completion gives to the caller is what the operation carries. -/
theorem Operation.address?_of_completion {op : Operation} {a : Address}
    (h : op.completion.outcome.address? = some a) : op.work.address? = some a := by
  unfold completion at h
  cases hw : op.work with
  | accept _ _ | receive _ | send _ => rwa [hw] at h
  | connect _ _ =>
      rw [hw] at h
      cases h

/-! ### Attempts -/

namespace Attempt

/-- The address of a connection fits, or it is as long as the kernel says. -/
theorem work_afterAccept (op : Operation) (address : Address) (fd : Descriptor)
    (r : Except Int Accepted) : ∃ a n, (afterAccept op address fd r).op.work = .accept a n ∧
      (a.length ≤ Address.capacity ∨ ∃ got, r = .ok got ∧ a.length = got.address.length) := by
  cases r with
  | ok got => exact ⟨_, _, rfl, .inr ⟨got, rfl, rfl⟩⟩
  | error raw =>
      unfold afterAccept
      dsimp only
      split
      · exact ⟨_, _, rfl, .inl (Nat.le_refl _)⟩
      · exact ⟨_, _, rfl, .inl (Nat.zero_le _)⟩

theorem work_afterConnect (op : Operation) (address : Address) (started : Bool)
    (r : Except Int Unit) :
    ∃ b, (afterConnect op address started r).op.work = .connect address b := by
  cases r with
  | ok got => exact ⟨_, rfl⟩
  | error raw =>
      unfold afterConnect
      dsimp only
      split_ifs <;> exact ⟨_, rfl⟩

/-- The address of a sender always fits. -/
theorem work_afterReceive (op : Operation) (t : Transfer) (spans : List Span)
    (r : Except Int Received) : ∃ u, (afterReceive op t spans r).op.work = .receive u ∧
      ∀ a ∈ u.address, a.length ≤ Address.capacity := by
  cases r with
  | ok got =>
      refine ⟨_, rfl, fun a ha => ?_⟩
      obtain ⟨b, -, rfl⟩ := Option.map_eq_some_iff.mp ha
      exact Nat.min_le_right _ _
  | error raw =>
      have fits : ∀ a ∈ t.address.map Address.offered, a.length ≤ Address.capacity := by
        intro a ha
        obtain ⟨b, -, rfl⟩ := Option.map_eq_some_iff.mp ha
        exact Nat.le_refl _
      unfold afterReceive
      dsimp only
      split
      · exact ⟨_, rfl, fits⟩
      · exact ⟨_, rfl, fits⟩

theorem work_afterSend (op : Operation) (t : Transfer) (r : Except Int Nat) :
    ∃ u, (afterSend op t r).op.work = .send u ∧ u.address = t.address := by
  unfold afterSend
  split
  · exact ⟨_, rfl, rfl⟩
  · exact ⟨_, work_start _, rfl⟩
  · dsimp only
    split
    · exact ⟨_, rfl, rfl⟩
    · exact ⟨_, rfl, rfl⟩

/-- An attempt names to the kernel what the operation names. -/
theorem named?_request (a : Attempt) (fd : Descriptor) :
    (a.call fd).request.named? = a.op.work.named? := by
  obtain ⟨⟨ticket, status, work⟩, readable⟩ := a
  cases work with
  | receive t => cases readable <;> rfl
  | _ => rfl

theorem named?_resume (a : Attempt) (fd : Descriptor) (reply : (a.call fd).request.Reply) :
    ((a.call fd).resume reply).op.work.named? = a.op.work.named? := by
  obtain ⟨⟨ticket, status, work⟩, readable⟩ := a
  cases work with
  | accept address n =>
      obtain ⟨_, _, work, -⟩ := work_afterAccept ⟨ticket, status, .accept address n⟩ address n reply
      exact (congrArg Work.named? work).trans rfl
  | connect address started =>
      obtain ⟨_, work⟩ :=
        work_afterConnect ⟨ticket, status, .connect address started⟩ address started reply
      exact (congrArg Work.named? work).trans rfl
  | receive t =>
      cases readable with
      | none => cases reply <;> rfl
      | some bytes =>
          obtain ⟨_, work, -⟩ := work_afterReceive ⟨ticket, status, .receive t⟩ t
            (Span.room t.buffer.windows bytes) reply
          exact (congrArg Work.named? work).trans rfl
  | send t =>
      obtain ⟨_, work, same⟩ := work_afterSend ⟨ticket, status, .send t⟩ t reply
      exact (congrArg Work.named? work).trans same

/-- What an operation gives back is what it was given, or it fits, or it is as long as the kernel
claims. -/
theorem address?_resume (a : Attempt) (fd : Descriptor) (reply : (a.call fd).request.Reply) :
    ((a.call fd).resume reply).op.work.address? = a.op.work.address? ∨
      ∀ b ∈ ((a.call fd).resume reply).op.work.address?, b.length ≤ Address.capacity ∨
        Channel.claimed? (some ⟨.system (a.call fd).request, reply⟩) = some b.length := by
  obtain ⟨⟨ticket, status, work⟩, readable⟩ := a
  cases work with
  | accept address n =>
      obtain ⟨b, _, work, length⟩ :=
        work_afterAccept ⟨ticket, status, .accept address n⟩ address n reply
      refine .inr fun b' hb' => ?_
      cases (congrArg Work.address? work).symm.trans hb'
      rcases length with fits | ⟨got, rfl, same⟩
      · exact .inl fits
      · exact .inr (congrArg some same.symm)
  | connect address started =>
      obtain ⟨_, work⟩ :=
        work_afterConnect ⟨ticket, status, .connect address started⟩ address started reply
      exact .inl ((congrArg Work.address? work).trans rfl)
  | receive t =>
      cases readable with
      | none => cases reply <;> exact .inl rfl
      | some bytes =>
          obtain ⟨_, work, fits⟩ := work_afterReceive ⟨ticket, status, .receive t⟩ t
            (Span.room t.buffer.windows bytes) reply
          exact .inr fun b hb => .inl (fits b ((congrArg Work.address? work).symm.trans hb))
  | send t =>
      obtain ⟨_, work, same⟩ := work_afterSend ⟨ticket, status, .send t⟩ t reply
      exact .inl ((congrArg Work.address? work).trans same)

/-- The length that the kernel claims for the address of a connection is the one that it gets. -/
theorem ready_of_claimed {a : Attempt} {fd : Descriptor} {reply : (a.call fd).request.Reply}
    {k : Nat} (h : Channel.claimed? (some ⟨.system (a.call fd).request, reply⟩) = some k) :
    ∃ op b n, (a.call fd).resume reply = .ready op ∧ op.status = .success ∧
      op.work = .accept b n ∧ b.length = k := by
  obtain ⟨⟨ticket, status, work⟩, readable⟩ := a
  cases work with
  | accept address n =>
      cases reply with
      | ok got => exact ⟨_, _, _, rfl, rfl, rfl, Option.some.inj h⟩
      | error raw => cases h
  | connect address started => cases h
  | receive t => cases readable <;> cases h
  | send t => cases h

end Attempt

namespace Channel

/-- The address that an event names to the kernel. -/
def Event.named? : Event → Option Address
  | acted _ _ (some ⟨.system call, _⟩) _ => call.named?
  | _ => none

/-- The length that the kernel claims for the address of a connection, with the ticket of the accept
that asked for it. -/
def Event.claim? : Event → Option (Nat × Nat)
  | acted _ p x _ => (claimed? x).bind fun k => p.attempt?.map fun a => (a.op.ticket, k)
  | joined _ _ => none

/-- The lengths that the kernel claims in the run are such that it may claim them. -/
def Claiming (claims : Nat → Prop) (t : List Event) : Prop :=
  ∀ e ∈ t, ∀ n k, e.claim? = some (n, k) → claims k

theorem claiming_of_filterMap {claims : Nat → Prop} {t : List Event}
    (h : ∀ claim ∈ t.filterMap (·.claim?), claims claim.2) : Claiming claims t :=
  fun e he n k claim => h (n, k) (List.mem_filterMap.mpr ⟨e, he, claim⟩)

variable {use : Party → Prop} {c c' : Channel} {p p' : Party} {x : Option (Exchange Call)}
  {t : List Event} {s : System} {e : Event} {n k : Nat} {op op₀ : Operation} {σ σ' : Standing}
  {claims : Nat → Prop} {a : Address} {sub : Submission}

/-- Addresses are named by attempts. -/
theorem Party.Step.named (h : Step c p x c' p')
    (named : (Event.acted s p x p').named? = some a) :
    ∃ attempt, p.attempt? = some attempt ∧ attempt.op.work.named? = some a := by
  cases h with
  | submission h =>
      cases h with
      | @attempted _ attempt _ reply =>
          exact ⟨attempt, rfl, (Attempt.named?_request attempt c.fd).symm.trans named⟩
      | _ => cases named
  | attachment h => cases h <;> cases named
  | dispatch h =>
      cases h with
      | @forcing attempt _ _ _ reply | @attempted attempt _ reply =>
          exact ⟨attempt, rfl, (Attempt.named?_request attempt c.fd).symm.trans named⟩
      | hungUp _ hl => cases hl <;> cases named
      | flushing hf => cases hf <;> cases named
      | _ => cases named
  | closing h =>
      cases h with
      | stopped _ _ _ hl => cases hl <;> cases named
      | flushing hf => cases hf <;> cases named
      | _ => cases named

theorem Event.claim?_of_attempt {attempt : Attempt} (s : System) (x : Option (Exchange Call))
    (p' : Party) (ha : p.attempt? = some attempt) :
    (acted s p x p').claim? = (claimed? x).map (attempt.op.ticket, ·) := by
  rw [claim?, ha]
  cases claimed? x <;> rfl

/-! ### Runs -/

/-- What an operation names never changes. -/
theorem Run.named (run : Run use t s) (submitted : .submission op₀ sub ∈ s.parties)
    (h : σ ∈ s.standings t) (hn : σ.op.ticket = op₀.ticket) :
    σ.op.work.named? = op₀.work.named? := by
  refine run.standing_lasts (P := fun _ σ => σ.op.work.named? = op₀.work.named?) ?_ ?_ ?_
    submitted h hn
  · exact fun _ _ => rfl
  · exact id
  · intro t c l₁ l₂ p x turn σ' _ _ _ _ fate
    cases fate with
    | wentOn _ before reply _ became =>
        exact (congrArg Work.named? became.work).trans
          ((Attempt.named?_resume _ c.fd reply).trans before)
    | began _ _ before became =>
        exact (congrArg Work.named? (became.work.trans (Attempt.work_start _))).trans before
    | untried _ before onward => exact (congrArg Work.named? onward.work).trans before

/-- What is named to the kernel was submitted. -/
theorem Run.submitted_of_named (run : Run use t s) (he : e ∈ t) (named : e.named? = some a) :
    ∃ op sub, .submission op sub ∈ s.parties ∧ op.work.named? = some a := by
  obtain ⟨newer, older, rfl⟩ := List.append_of_mem he
  obtain ⟨s', run'⟩ := run.earlier
  cases run' with
  | join _ _ _ _ => cases named
  | @act _ c l₁ l₂ p run₀ x turn yields =>
      have step := Party.step_of_yields yields
      obtain ⟨attempt, ha, names⟩ := step.named named
      have stands : .trying attempt ∈ System.standings older ⟨c, l₁ ++ p :: l₂⟩ :=
        (Party.Has.own (step.goes_on (run₀.pends p (by simp)) ha).1).mem
      obtain ⟨op, sub, submitted, same⟩ := run₀.submission_of_standing stands
      have names' := (run₀.named submitted stands same.symm).symm.trans names
      obtain ⟨sub, submitted⟩ := run.submission_since submitted
      exact ⟨op, sub, submitted, names'⟩

/-- What was given an address within the bounds stays within them. -/
theorem Run.within (run : Run use t s) (claiming : Claiming claims t)
    (submitted : .submission op₀ sub ∈ s.parties)
    (given : ∀ a ∈ op₀.work.address?, a.Within claims) (h : σ ∈ s.standings t)
    (hn : σ.op.ticket = op₀.ticket) : ∀ a ∈ σ.op.work.address?, a.Within claims := by
  refine run.standing_lasts (P := fun t σ => Claiming claims t →
    ∀ a ∈ σ.op.work.address?, a.Within claims) ?_ ?_ ?_ submitted h hn claiming
  · exact fun _ _ _ => given
  · exact fun before claiming => before fun e he => claiming e (List.mem_cons_of_mem _ he)
  · intro t c l₁ l₂ p x turn σ' _ _ _ hn fate claiming
    have claiming' : Claiming claims t := fun e he => claiming e (List.mem_cons_of_mem _ he)
    cases fate with
    | @wentOn attempt _ ha before reply hx became =>
        intro a hmem
        rw [became.work] at hmem
        rcases attempt.address?_resume c.fd reply with same | fits
        · rw [same] at hmem
          exact before claiming' a hmem
        · refine (fits a hmem).imp id fun claimed => ?_
          have event := Event.claim?_of_attempt ⟨c, l₁ ++ p :: l₂⟩ x turn.phase ha
          rw [hx, claimed] at event
          exact claiming _ (hx ▸ .head _) _ _ event
    | began _ _ before became =>
        rw [became.work, Attempt.work_start]
        exact before claiming'
    | untried _ before onward =>
        rw [onward.work]
        exact before claiming'

/-- The length that the kernel claims is delivered. -/
theorem Run.claim_delivered (run : Run use t s) (he : e ∈ t) (claim : e.claim? = some (n, k))
    (ho : op ∈ scheduled t) (hn : op.ticket = n) :
    ∃ a fd, op.completion.outcome = .accepted fd a .success ∧ a.length = k := by
  obtain ⟨newer, older, rfl⟩ := List.append_of_mem he
  have delivered : ∃ o, .done o ∈ s.standings (newer ++ e :: older) ∧ (o.ticket = n ∧
      ∃ a fd, o.completion.outcome = .accepted fd a .success ∧ a.length = k) := by
    refine run.done_since fun s' run' => ?_
    cases run' with
    | join _ _ _ _ => cases claim
    | @act _ c l₁ l₂ p run₀ x turn yields =>
        obtain ⟨k', claimed, ticket⟩ := Option.bind_eq_some_iff.mp claim
        obtain ⟨attempt, ha, ticket⟩ := Option.map_eq_some_iff.mp ticket
        cases ticket
        obtain ⟨-, reply, rfl, σ, hσ, became⟩ :=
          (Party.step_of_yields yields).goes_on (run₀.pends p (by simp)) ha
        obtain ⟨o, a, fd, ready, success, work, length⟩ := Attempt.ready_of_claimed claimed
        have ticket := Operation.ticket_eq_of_key (attempt.key_resume c.fd reply)
        rw [ready] at became ticket
        cases became with
        | itself _ =>
            refine ⟨o, (Party.Has.own hσ).mem, ticket, a, fd, ?_, length⟩
            rw [Operation.completion, work, success]
        | instead failed _ => exact absurd success failed
  obtain ⟨o, done, ticket, outcome⟩ := delivered
  cases run.one_standing done (mem_standings_of_scheduled ho) (ticket.trans hn.symm)
  exact outcome

/-! ### Origins -/

/-- The addresses that a program can have, as long as the kernel claims only such lengths for
connections. -/
inductive Obtainable (claims : Nat → Prop) : Address → Prop
  | blank : Obtainable claims .blank
  | ofEndpoint (e : Endpoint) : Obtainable claims (.ofEndpoint e)
  /-- It came with a completion. -/
  | delivered {use : Party → Prop} {t : List Event} {s : System} {op : Operation} {a : Address}
      (run : Run use t s) (claiming : Claiming claims t)
      (given : ∀ op sub, .submission op sub ∈ s.parties →
        ∀ a, op.work.address? = some a → Obtainable claims a)
      (ho : op ∈ scheduled t) (ha : op.completion.outcome.address? = some a) : Obtainable claims a

theorem Run.delivered_within (run : Run use t s) (claiming : Claiming claims t)
    (given : ∀ op sub, .submission op sub ∈ s.parties →
      ∀ a, op.work.address? = some a → a.Within claims)
    (ho : op ∈ scheduled t) (ha : op.completion.outcome.address? = some a) : a.Within claims := by
  have stands : .done op ∈ s.standings t := mem_standings_of_scheduled ho
  obtain ⟨op₀, sub, submitted, same⟩ := run.submission_of_standing stands
  exact run.within claiming submitted (given op₀ sub submitted) stands same.symm a
    (Operation.address?_of_completion ha)

/-- Nobody has an address that is longer than its block or than what the kernel may claim. -/
theorem Obtainable.within (h : Obtainable claims a) : a.Within claims := by
  induction h with
  | blank => exact .inl (Nat.le_refl _)
  | ofEndpoint e => exact .inl (Address.length_encode_le e)
  | delivered run claiming _ ho ha ih => exact run.delivered_within claiming ih ho ha

/-- What a bind names is the address of its endpoint. -/
theorem named_of_bind {fd : Descriptor} {endpoint : Endpoint} {asked : List (Exchange SystemCall)}
    {r : Except Status Unit} (h : (Socket.bind fd endpoint).Transcript asked r) :
    ∀ y ∈ asked, y.request.named? = some (.ofEndpoint endpoint) := by
  obtain ⟨_, _, _, rfl, performed, returned⟩ := Program.transcript_bind_iff.mp h
  obtain ⟨answer, rfl, -⟩ := Program.transcript_ask_done performed
  obtain ⟨rfl, -⟩ := Program.transcript_pure_iff.mp returned
  intro y hy
  cases List.mem_singleton.mp hy
  rfl

/-- The kernel connects to everybody.  It claims 200 bytes for the address of a connection. -/
def claimsTooMuch : (request : Call) → Protocol.Answer request
  | .system (.accept ..) => Except.ok (⟨11, ⟨[], 200⟩⟩ : Accepted)
  | .system (.connect ..) => Except.ok ()
  | request => notReady request

/-- What becomes of a blank block then. -/
def longAddress : Address := Address.blank.reported ⟨[], 200⟩

/-- An accept that succeeds at once. -/
def longAccept : List Choice :=
  .join (.submission true (.accept 7 .blank)) :: List.replicate 5 (.act 0 claimsTooMuch)

/-- A connect to the address that was accepted. -/
def longConnect : List Choice :=
  .join (.submission true (.connect 8 longAddress)) :: List.replicate 3 (.act 0 claimsTooMuch)

/-- An accept into a blank block delivers the address. -/
theorem delivers_long : ∃ t s op, Run (fun _ => True) t s ∧ Claiming (· = 200) t ∧
    (∀ op sub, .submission op sub ∈ s.parties → op.work.address? = some .blank) ∧
      op ∈ scheduled t ∧ op.completion.outcome = .accepted 11 longAddress .success := by
  have run := run_of_isSome (.socket 10)
    (show (replay (fun _ => True) (ofSocket 10) longAccept).isSome = true by rfl)
  generalize hr : Option.get _ _ = r at run
  have claims : r.1.filterMap (·.claim?) = [(7, 200)] := by
    rw [← hr]
    rfl
  have parties : r.2.parties = [.submission (.accept 7 .blank) ⟨true, .answered .completed⟩] := by
    rw [← hr]
    rfl
  have done : scheduled r.1 = [⟨7, .success, .accept longAddress 11⟩] := by
    rw [← hr]
    rfl
  refine ⟨r.1, r.2, _, run, claiming_of_filterMap ?_, fun op sub submitted => ?_,
    done ▸ List.mem_singleton_self _, rfl⟩
  · rw [claims]
    exact List.forall_mem_singleton.mpr rfl
  · rw [parties] at submitted
    cases List.mem_singleton.mp submitted
    rfl

/-- A connect to the address names it to the kernel. -/
theorem names_long : ∃ t s e, Run (fun _ => True) t s ∧ Claiming (· = 200) t ∧
    (∀ op sub, .submission op sub ∈ s.parties → op.work.address? = some longAddress) ∧
      e ∈ t ∧ e.named? = some longAddress := by
  have run := run_of_isSome (.socket 10)
    (show (replay (fun _ => True) (ofSocket 10) longConnect).isSome = true by rfl)
  generalize hr : Option.get _ _ = r at run
  have claims : r.1.filterMap (·.claim?) = [] := by
    rw [← hr]
    rfl
  have parties : r.2.parties =
      [.submission (.connect 8 longAddress) ⟨true, .answered .completed⟩] := by
    rw [← hr]
    rfl
  have named : r.1.filterMap (·.named?) = [longAddress] := by
    rw [← hr]
    rfl
  obtain ⟨e, he, names⟩ := List.mem_filterMap.mp (named ▸ List.mem_singleton_self longAddress)
  refine ⟨r.1, r.2, e, run, claiming_of_filterMap ?_, fun op sub submitted => ?_, he, names⟩
  · rw [claims]
    nofun
  · rw [parties] at submitted
    cases List.mem_singleton.mp submitted
    rfl

end Channel
end Proactor
