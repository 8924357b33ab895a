import Mathlib.Data.List.TakeDrop
import Proactor.Proofs.Footprint
import Proactor.Proofs.InputEnd
import Proactor.Proofs.Verdict
/-! # Receiving datagrams

A socket on which datagrams arrive.  A receive asks for the size of the oldest one, and then offers
room for that many bytes; in between, anything may arrive and anybody may receive.

* **Mailboxes** (`Mailbox`).  The datagrams that are queued.  The kernel tells the size of the
  oldest one, and a receive takes it and cuts off what has no room.  `Posted` says that it answers
  so.
* **Askings** (`Event.told?`).  Whoever receives was told something before (`Run.told`).
* **Takings** (`Run.datagram_taken`).  A receive that takes a datagram is done with it.  It has all
  of it if it was told of no less, and that is so if the datagram was queued when it asked. -/

namespace Proactor

/-- What one call can take is everything, unless there are too many windows. -/
theorem Span.capacity_eq_sumOf {windows : List Window}
    (few : (windows.filter (0 < ·.count)).length ≤ limit) :
    capacity windows = sumOf (·.count) windows := by
  rw [capacity, capacityIn_eq, List.take_of_length_le few]
  induction windows with
  | nil => rfl
  | cons w rest ih =>
      by_cases hw : 0 < w.count
      · rw [List.filter_cons_of_pos (by simpa using hw)] at few ⊢
        rw [sumOf_cons, sumOf_cons, ih (Nat.le_of_succ_le few)]
      · rw [List.filter_cons_of_neg (by simpa using hw)] at few ⊢
        rw [sumOf_cons, ih few]
        omega

/-! ### Mailboxes -/

/-- The datagrams that are queued on a socket, oldest first. -/
abbrev Mailbox := List Bytes

namespace Mailbox

/-- The size of the oldest datagram, `0` if there is none. -/
def size (box : Mailbox) : Nat := (box.headD []).length

/-- A call took the oldest datagram. -/
def takes : Option (Exchange Channel.Call) → Bool
  | some ⟨.system (.receive ..), answer⟩ =>
    match (answer : Except Int Received) with
    | .ok _ => true
    | .error _ => false
  | _ => false

/-- The mailbox after a call. -/
def after (box : Mailbox) (x : Option (Exchange Channel.Call)) : Mailbox :=
  if takes x then box.tail else box

/-- It tells the size of the oldest datagram. -/
def tells (box : Mailbox) : Except Int Int → Bool
  | .ok n => decide (n = box.size)
  | .error _ => false

/-- It gives as much of the oldest datagram as fits.  Where there is none, a receive is not
ready. -/
def gives (box : Mailbox) (room : List Nat) : Except Int Received → Bool
  | .ok got => box.head?.any fun d => decide (got.bytes = d.take (sumOf id room))
  | .error raw => decide (raw = 11 ∧ box = [])

/-- The kernel answers a call as it does on a socket for datagrams. -/
def answers (box : Mailbox) : Option (Exchange Channel.Call) → Bool
  | some ⟨.system (.available _), answer⟩ => box.tells answer
  | some ⟨.system (.receive _ room _ _), answer⟩ => box.gives room answer
  | _ => true

/-- The number of bytes for which an answer tells a receive to offer room. -/
def askedRoom : Option (Exchange Channel.Call) → Option Nat
  | some ⟨.system (.available _), answer⟩ =>
    match (answer : Except Int Int) with
    | .ok n => some (max n.toNat 1)
    | .error _ => none
  | _ => none

variable {box : Mailbox} {x : Option (Exchange Channel.Call)} {d : Bytes} {rest : Mailbox}

theorem eq_of_tells {n : Int} (h : box.tells (.ok n) = true) : n = box.size := of_decide_eq_true h

/-- The answer is the size of the oldest datagram. -/
theorem eq_of_askedRoom {m : Nat} (answers : box.answers x = true) (h : askedRoom x = some m) :
    m = max box.size 1 := by
  unfold askedRoom at h
  split at h
  · split at h
    · next n =>
      rw [eq_of_tells answers, Int.toNat_natCast] at h
      exact (Option.some.inj h).symm
    · cases h
  · cases h

/-- A receive gets the oldest datagram, as far as it has room. -/
theorem gives_cons {room : List Nat} {reply : Except Int Received}
    (h : gives (d :: rest) room reply = true) :
    ∃ got, reply = .ok got ∧ got.bytes = d.take (sumOf id room) := by
  cases reply with
  | ok got => exact ⟨got, rfl, by simpa [gives] using h⟩
  | error raw => simp [gives] at h

end Mailbox

/-- An operation has succeeded with these bytes. -/
structure Operation.Gets (op : Operation) (bytes : Bytes) : Prop where
  success : op.status = .success
  received : op.received = bytes
  transferred : op.transferred = bytes.length

namespace Attempt

/-- An attempt that was told how much can be read was told so by the call before. -/
theorem told_of_calling {a a' : Attempt} {fd : Descriptor} {reply : (a.call fd).request.Reply}
    {m : Nat} (h : (a.call fd).resume reply = .calling a') (hm : a'.readable = some m) :
    Mailbox.askedRoom (some ⟨.system (a.call fd).request, reply⟩) = some m := by
  cases reply with
  | error raw =>
      have fails := a.fails_of_error fd raw
      rw [h] at fails
      cases fails
  | ok v =>
      obtain ⟨⟨ticket, status, work⟩, readable⟩ := a
      cases work with
      | accept _ _ | connect _ _ => cases h
      | receive t =>
          cases readable with
          | some n => cases h
          | none =>
              cases h
              exact hm
      | send t =>
          cases v with
          | zero => cases h
          | succ n =>
              -- what is sent next is a part of the same attempt, which asks nothing
              have next : start ⟨ticket, status, .send { t with
                  transferred := t.transferred + (n + 1)
                  cursor := t.cursor.advance t.buffer.windows (n + 1) }⟩ = .calling a' := h
              rcases start_cases _ with ⟨-, ready⟩ | ⟨-, calls⟩
              · rw [ready] at next
                cases next
              · rw [calls] at next
                cases next
                cases hm

/-- The attempt is one to receive, and was told how much can be read. -/
def receives (a : Attempt) : Bool := a.op.direction == .receive && a.readable.isSome

/-- A receive gets the oldest datagram, as far as it was told to, and has room. -/
theorem ready_of_gives {a : Attempt} {fd : Descriptor} {reply : (a.call fd).request.Reply}
    {d : Bytes} {rest : Mailbox} {m : Nat} (hd : a.op.direction = .receive)
    (hm : a.readable = some m)
    (answers : Mailbox.answers (d :: rest) (some ⟨.system (a.call fd).request, reply⟩) = true) :
    ∃ op, (a.call fd).resume reply = .ready op ∧ op.Gets (d.take (min m a.op.capacity)) := by
  obtain ⟨⟨ticket, status, work⟩, readable⟩ := a
  obtain ⟨t, ht⟩ := Operation.work_of_direction hd
  cases ht
  cases hm
  obtain ⟨got, rfl, bytes⟩ := Mailbox.gives_cons answers
  rw [Wire.sumOf_map_length, Span.total_room] at bytes
  have fits : got.bytes.length ≤ Span.total (Span.room t.buffer.windows m) := by
    rw [Span.total_room, bytes]
    exact List.length_take_le _ _
  have received : (t.buffer.scatter (Span.room t.buffer.windows m) got.bytes).content.take
      got.bytes.length = got.bytes := t.buffer.content_scatter m got.bytes fits
  exact ⟨_, rfl, rfl, received.trans bytes, congrArg List.length bytes⟩

end Attempt

namespace Channel

/-- The kernel answers as it does on a socket for datagrams, and datagrams arrive; `box n` is the
mailbox when `n` things have happened. -/
def Posted (box : Nat → Mailbox) : List Event → Prop
  | [] => True
  | e :: older =>
    Posted box older ∧ (box older.length).answers e.exchange? = true ∧
      (box older.length).after e.exchange? <+: box (older.length + 1)

instance decidablePosted (box : Nat → Mailbox) : (t : List Event) → Decidable (Posted box t)
  | [] => isTrue trivial
  | e :: older =>
    have := decidablePosted box older
    inferInstanceAs (Decidable (Posted box older ∧ (box older.length).answers e.exchange? = true ∧
      (box older.length).after e.exchange? <+: box (older.length + 1)))

/-- The attempt that goes on in an event. -/
def Event.attempt? : Event → Option Attempt
  | acted _ p _ _ => p.attempt?
  | joined _ _ => none

/-- The number of bytes for which the receive with this ticket is told to offer room. -/
def Event.told? (n : Nat) (e : Event) : Option Nat :=
  if e.attempt?.any (·.op.ticket == n) then Mailbox.askedRoom e.exchange? else none

/-- The attempt that makes its call to receive. -/
def Event.receiving? (e : Event) : Option Attempt := e.attempt?.filter (·.receives)

/-- A receive takes a datagram. -/
def Event.takes (e : Event) : Bool := Mailbox.takes e.exchange?

/-- What the receive with this ticket was told last. -/
def lastTold (n : Nat) (t : List Event) : Option Nat := t.findSome? (·.told? n)

/-- An attempt to receive goes by what it was told last. -/
def Informed (n : Nat) (t : List Event) : Standing → Prop
  | .trying a => ∀ m, a.readable = some m → lastTold n t = some m
  | _ => True

variable {use : Party → Prop} {box : Nat → Mailbox} {t newer older : List Event} {s : System}
  {p p' : Party} {x : Option (Exchange Call)} {e : Event} {op : Operation} {a : Attempt} {m n : Nat}
  {σ : Standing} {d : Bytes}

/-! ### Askings -/

theorem lastTold_cons_some (h : e.told? n = some m) : lastTold n (e :: t) = some m :=
  List.findSome?_cons_of_isSome (by rw [h]; rfl) |>.trans h

theorem lastTold_cons_none (h : e.told? n = none) : lastTold n (e :: t) = lastTold n t :=
  List.findSome?_cons_of_isNone (by rw [h]; rfl)

/-- Only whoever is attempted is told anything. -/
theorem Event.told?_of_untried (h : ∀ op, p.tries s.channel = some op → op.ticket ≠ n) :
    (acted s p x p').told? n = none := by
  cases ha : p.attempt? with
  | none => rw [told?, attempt?, ha, Option.any_none, if_neg Bool.false_ne_true]
  | some a =>
      have other := h a.op (by rw [Party.tries, ha]; rfl)
      rw [told?, attempt?, ha, Option.any_some, if_neg (by simpa using other)]

theorem Informed.cons (h : Informed n t σ) (he : e.told? n = none) : Informed n (e :: t) σ := by
  cases σ with
  | trying a => exact fun m hm => (lastTold_cons_none he).trans (h m hm)
  | _ => trivial

/-- Whoever is to receive goes by what he was told last. -/
theorem Run.told (run : Run use t s) (h : .trying a ∈ s.standings t) (hm : a.readable = some m) :
    lastTold a.op.ticket t = some m := by
  obtain ⟨op₀, sub, submitted, ht⟩ := run.submission_of_standing h
  refine run.standing_lasts (P := Informed a.op.ticket) ?_ ?_ ?_ submitted h ht.symm
    m hm
  · exact fun _ _ => trivial
  · exact fun before => before.cons rfl
  · intro t c l₁ l₂ p x turn σ' run yields hσ hn fate
    replace hn : σ'.op.ticket = a.op.ticket := hn.trans ht
    cases fate with
    | @wentOn a₀ _ ha before reply hx became =>
        cases σ' with
        | trying a' =>
            intro m' hm'
            have hr := became.calling
            have key := Attempt.key_resume a₀ c.fd reply
            rw [hr] at key
            have same : a₀.op.ticket = a.op.ticket :=
              (Operation.ticket_eq_of_key key).symm.trans hn
            refine lastTold_cons_some ?_
            rw [Event.told?, Event.attempt?, ha, hx, Event.exchange?,
              Attempt.told_of_calling hr hm']
            exact if_pos (beq_iff_eq.mpr same)
        | _ => trivial
    | began _ _ _ became =>
        cases σ' with
        | trying a' =>
            intro m' hm'
            rcases Attempt.start_cases _ with ⟨-, hr⟩ | ⟨-, hr⟩ <;>
              cases hr.symm.trans became.calling
            cases hm'
        | _ => trivial
    | untried untried before onward =>
        cases onward with
        | same _ => exact before.cons (Event.told?_of_untried fun op ht => hn ▸ untried op ht)
        | _ => trivial

/-! ### Mailboxes -/

theorem Posted.earlier (h : Posted box (newer ++ older)) : Posted box older := by
  induction newer with
  | nil => exact h
  | cons e newer ih => exact ih h.1

/-- The answer is the size of the oldest datagram. -/
theorem Posted.eq_of_told (h : Posted box (e :: older)) (told : e.told? n = some m) :
    m = max (box older.length).size 1 := by
  unfold Event.told? at told
  split at told
  · exact Mailbox.eq_of_askedRoom h.2.1 told
  · cases told

/-- The oldest datagram stays the oldest one until it is taken. -/
theorem Posted.head_since (h : Posted box (newer ++ older))
    (hd : (box older.length).head? = some d) (untaken : ∀ e ∈ newer, e.takes = false) :
    (box (newer ++ older).length).head? = some d := by
  induction newer with
  | nil => exact hd
  | cons e newer ih =>
      have before := ih h.1 fun e he => untaken e (.tail _ he)
      obtain ⟨arrived, grows⟩ := h.2.2
      rw [Mailbox.after, if_neg (by simpa [Event.takes] using untaken e (.head _))] at grows
      have next : box (newer ++ older).length ++ arrived = box (e :: newer ++ older).length := grows
      rw [← next, List.head?_append, before]
      rfl

/-- Asking takes nothing. -/
theorem Event.takes_of_told (h : e.told? n = some m) : e.takes = false := by
  unfold told? at h
  split at h
  · unfold takes Mailbox.takes
    unfold Mailbox.askedRoom at h
    split at h
    · next hx => rw [hx]
    · cases h
  · cases h

/-! ### Takings -/

/-- Whoever receives while a datagram is queued is done, with as much of it as has room. -/
theorem Run.gets (run : Run use (e :: older) s) (posted : Posted box (e :: older))
    (receives : e.receiving? = some a) (hm : a.readable = some m)
    (oldest : (box older.length).head? = some d) :
    ∃ op, .done op ∈ s.standings (e :: older) ∧ op.ticket = a.op.ticket ∧
      op.Gets (d.take (min m a.op.capacity)) := by
  cases run with
  | join _ _ _ _ => cases receives
  | @act _ c l₁ l₂ p run x turn yields =>
      obtain ⟨ha, receiving⟩ := Option.filter_eq_some_iff.mp receives
      have hd : a.op.direction = .receive := by
        simp only [Attempt.receives, Bool.and_eq_true, beq_iff_eq] at receiving
        exact receiving.1
      obtain ⟨-, reply, rfl, after⟩ := (Party.step_of_yields yields).answered ha
      obtain ⟨rest, hbox⟩ := List.head?_eq_some_iff.mp oldest
      have answers := posted.2.1
      rw [hbox] at answers
      obtain ⟨op, ready, gets⟩ := Attempt.ready_of_gives hd hm answers
      have key := Attempt.key_resume a c.fd reply
      rw [ready, Standing.after_of_success gets.success] at after
      rw [ready] at key
      exact ⟨op, (Party.Has.own after).mem, Operation.ticket_eq_of_key key, gets⟩

theorem Run.trying_of_attempt (run : Run use (newer ++ e :: older) s) (h : e.attempt? = some a) :
    .trying a ∈ e.system.standings older := by
  obtain ⟨s', run'⟩ := run.earlier
  cases run' with
  | join _ _ _ _ => cases h
  | act run yields => exact (Party.Has.own ((Party.step_of_yields yields).answered h).1).mem

/-- A receive with room for the oldest datagram takes it.  It has then succeeded, with as many bytes
of the datagram as it was told of when it asked for the last time, one byte at least.  It has the
whole datagram if one was queued when it asked, and nobody has taken any since. -/
theorem Run.datagram_taken (run : Run use t s) (posted : Posted box t)
    (ht : t = newer ++ e :: older) (receives : e.receiving? = some a)
    (oldest : (box older.length).head? = some d) {b : Transfer} (hb : a.op.work = .receive b)
    (fits : d.length ≤ b.buffer.length)
    (few : (b.buffer.windows.filter (0 < ·.count)).length ≤ Span.limit) :
    ∃ op m between asking before, .done op ∈ s.standings t ∧ op.ticket = a.op.ticket ∧
      (∀ o ∈ scheduled t, o.ticket = a.op.ticket → o = op) ∧
      older = between ++ asking :: before ∧ asking.told? a.op.ticket = some m ∧
      (∀ e ∈ between, e.told? a.op.ticket = none) ∧ m = max (box before.length).size 1 ∧
      op.Gets (d.take m) ∧ (op.received = d ↔ d.length ≤ m) ∧
      (box before.length ≠ [] → (∀ e ∈ between, e.takes = false) → op.received = d) := by
  subst ht
  obtain ⟨ha, receiving⟩ := Option.filter_eq_some_iff.mp receives
  simp only [Attempt.receives, Bool.and_eq_true] at receiving
  obtain ⟨m, hm⟩ := Option.isSome_iff_exists.mp receiving.2
  have posted' : Posted box (e :: older) := posted.earlier
  -- what it gets
  obtain ⟨op, done, same, gets⟩ := run.done_since fun s' run' =>
    Run.gets run' posted' receives hm oldest
  have room : min m a.op.capacity = min m b.buffer.length := by
    rw [Operation.capacity, hb]
    exact congrArg _ (Span.capacity_eq_sumOf few)
  rw [room, ← List.take_take, List.take_of_length_le fits] at gets
  have whole : op.received = d ↔ d.length ≤ m := by
    rw [gets.received]
    exact List.take_eq_self_iff d
  -- what it was told
  have told := run.before.told (run.trying_of_attempt ha) hm
  obtain ⟨between, asking, before, hsplit, asked, last⟩ := List.findSome?_eq_some_iff.mp told
  have posted₀ : Posted box (between ++ asking :: before) := hsplit ▸ posted'.1
  have size := (show Posted box (asking :: before) from posted₀.earlier).eq_of_told asked
  refine ⟨op, m, between, asking, before, done, same, ?_, hsplit, asked, last, size, gets, whole,
    ?_⟩
  · intro o ho hn
    have only := run.one_standing (mem_standings_of_scheduled ho) done (hn.trans same.symm)
    exact Standing.done.inj only
  · intro queued untaken
    obtain ⟨d', rest, hbox⟩ := List.exists_cons_of_ne_nil queued
    have oldest' : (box older.length).head? = some d' := by
      rw [hsplit, List.append_cons] at posted'  ⊢
      refine posted'.1.head_since (by rw [hbox]; rfl) fun e he => ?_
      rcases List.mem_append.mp he with he | he
      · exact untaken e he
      · exact List.mem_singleton.mp he ▸ Event.takes_of_told asked
    obtain rfl := Option.some.inj (oldest'.symm.trans oldest)
    refine whole.mpr ?_
    rw [size, hbox]
    exact Nat.le_max_left _ _

/-- A receive with room for eight bytes. -/
def receiveOfEight (ticket : Nat) : Operation :=
  .receive ticket (.single (.whole (List.replicate 8 0))) 0 none

/-- Two receives are told of two bytes.  The second one takes this datagram, and then the first one
takes the next. -/
def receivesRacing : List Choice :=
  [.join (.submission true (receiveOfEight 7)), .act 0 notReady, .act 0 notReady, .act 0 notReady,
    .join (.submission true (receiveOfEight 8)), .act 1 notReady, .act 1 notReady,
    .act 0 (streams 2 []), .act 1 (streams 2 []), .act 1 (streams 2 [1, 2]),
    .act 0 (streams 2 [3, 4])]

/-- The mailbox meanwhile. -/
def mailboxRacing (n : Nat) : Mailbox :=
  if n < 7 then [] else if n < 10 then [[1, 2], [3, 4, 5]] else if n = 10 then [[3, 4, 5]] else []

/-- A receive that has lost the datagram that it was told of gets the beginning of the next one. -/
theorem datagram_taken_racing : ∃ box t s e older op, Run Party.ThroughSocket t s ∧
    Posted box t ∧ t = e :: older ∧ (box older.length).head? = some [3, 4, 5] ∧
    .done op ∈ s.standings t ∧ op.ticket = 7 ∧ op.Gets [3, 4] := by
  have run := run_of_isSome (.socket 10)
    (show (replay Party.ThroughSocket (ofSocket 10) receivesRacing).isSome = true by rfl)
  generalize hr : Option.get _ _ = r at run
  have posted : Posted mailboxRacing r.1 := by
    rw [← hr]
    decide +kernel
  obtain ⟨e, older, a, b, ht, receives, ticket, hb, oldest, fits, few, told⟩ : ∃ e older a b,
      r.1 = [] ++ e :: older ∧ e.receiving? = some a ∧ a.op.ticket = 7 ∧ a.op.work = .receive b ∧
        (mailboxRacing older.length).head? = some [3, 4, 5] ∧ 3 ≤ b.buffer.length ∧
        (b.buffer.windows.filter (0 < ·.count)).length ≤ Span.limit ∧
        older.findSome? (·.told? 7) = some 2 := by
    rw [← hr]
    exact ⟨_, _, _, _, rfl, rfl, rfl, rfl, rfl, by decide, by decide, rfl⟩
  obtain ⟨op, m, between, asking, before, done, same, -, hsplit, asked, last, -, gets, -⟩ :=
    run.datagram_taken posted ht receives oldest hb fits few
  obtain rfl : m = 2 := by
    rw [ticket] at asked last
    rw [List.findSome?_eq_some_iff.mpr ⟨between, asking, before, hsplit, asked, last⟩] at told
    exact Option.some.inj told
  exact ⟨mailboxRacing, r.1, r.2, e, older, op, run, posted, ht, oldest, done, same.trans ticket,
    gets⟩

/-- A receive asks while nothing is queued.  A datagram arrives before it receives. -/
def receiveBeforeArrival : List Choice :=
  [.join (.submission true (receiveOfEight 7)), .act 0 notReady, .act 0 notReady, .act 0 notReady,
    .act 0 (streams 0 []), .act 0 (streams 0 [1])]

/-- The mailbox meanwhile. -/
def mailboxBeforeArrival (n : Nat) : Mailbox :=
  if n = 5 then [[1, 2, 3, 4, 5, 6, 7, 8]] else []

/-- A receive with room for the whole datagram that it takes gets one byte of it. -/
theorem datagram_cut_off : ∃ box t s e older a b op, Run Party.ThroughSocket t s ∧ Posted box t ∧
    t = e :: older ∧ e.receiving? = some a ∧ a.op.work = .receive b ∧
    (box older.length).head? = some [1, 2, 3, 4, 5, 6, 7, 8] ∧ b.buffer.length = 8 ∧
    b.buffer.windows.length ≤ Span.limit ∧
    .done op ∈ s.standings t ∧ op.ticket = a.op.ticket ∧ op.Gets [1] := by
  have run := run_of_isSome (.socket 10)
    (show (replay Party.ThroughSocket (ofSocket 10) receiveBeforeArrival).isSome = true by rfl)
  generalize hr : Option.get _ _ = r at run
  have posted : Posted mailboxBeforeArrival r.1 := by
    rw [← hr]
    decide +kernel
  obtain ⟨e, older, a, b, o, g, op, ht, receives, hb, oldest, room, few, parties, same, gets⟩ :
      ∃ e older a b o g op, r.1 = e :: older ∧ e.receiving? = some a ∧ a.op.work = .receive b ∧
        (mailboxBeforeArrival older.length).head? = some [1, 2, 3, 4, 5, 6, 7, 8] ∧
        b.buffer.length = 8 ∧ b.buffer.windows.length ≤ Span.limit ∧
        r.2.parties = [.submission o ⟨g, .complete op⟩] ∧ op.ticket = a.op.ticket ∧
        op.Gets [1] := by
    rw [← hr]
    exact ⟨_, _, _, _, _, _, _, rfl, rfl, rfl, rfl, rfl, by decide, rfl, rfl, rfl, by decide, rfl⟩
  have done : .done op ∈ r.2.standings r.1 :=
    mem_standings.mpr (.inl ⟨_, by rw [parties]; exact .head _, .head _⟩)
  exact ⟨mailboxBeforeArrival, r.1, r.2, e, older, a, b, op, run, posted, ht, receives, hb, oldest,
    room, few, done, same, gets⟩

end Channel
end Proactor
