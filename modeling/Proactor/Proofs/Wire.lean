import Proactor.Proofs.Fates
import Proactor.Proofs.Room
import Proactor.Proofs.Turns
/-! # Streams, and what receives take of them

* **Wires** (`Wire`).  One direction of a stream as the kernel keeps it: what the peer has sent,
  what of it is unread, and whether the peer sends no more.
* **The kernel** (`Wire.Answers`).  It tells how many bytes are unread, and gives as many as fit.
  Where none are, a receive is not ready, or gets no bytes if the peer sends no more.
* **Receives** (`Wire.Reads`).  What a part of an attempt to receive leads to.  What was taken
  from the wire is what the operation delivers (`Operation.received`). -/

namespace Proactor

/-! ### Receives -/

namespace Operation

/-- The number of bytes that a transfer reports. -/
def transferred (op : Operation) : Nat :=
  match op.work with
  | .receive t | .send t => t.transferred
  | _ => 0

/-- The number of bytes that one call can take for a receive. -/
def capacity (op : Operation) : Nat :=
  match op.work with
  | .receive t => Span.capacity t.buffer.windows
  | _ => 0

/-- The bytes that a receive delivers. -/
def received (op : Operation) : Bytes :=
  match op.work with
  | .receive t => if op.status.isSuccess then t.buffer.content.take t.transferred else []
  | _ => []

/-- It ends with some bytes, not with an error. -/
def Delivers (op : Operation) : Prop := op.status = .success ∧ 0 < op.transferred

instance (op : Operation) : Decidable op.Delivers :=
  inferInstanceAs (Decidable (op.status = .success ∧ 0 < op.transferred))

/-- A receive has room for some bytes, and got none so far. -/
def roomy (op : Operation) : Bool :=
  match op.work with
  | .receive t => decide (0 < t.buffer.length) && decide (t.transferred = 0)
  | _ => true

variable {op : Operation}

theorem received_of_status (h : op.status ≠ .success) : op.received = [] := by
  unfold received
  split
  · rw [if_neg (by simpa using h)]
  · rfl

theorem received_of_transferred (h : op.transferred = 0) : op.received = [] := by
  unfold received transferred at *
  split
  · next t ht =>
    rw [ht] at h
    simp only at h
    rw [h, List.take_zero, ite_self]
  · rfl

theorem received_of_not_delivers (h : ¬ op.Delivers) : op.received = [] := by
  by_cases hs : op.status = .success
  · exact received_of_transferred (Nat.eq_zero_of_not_pos fun ht => h ⟨hs, ht⟩)
  · exact received_of_status hs

theorem received_of_direction (h : op.direction ≠ .receive) : op.received = [] := by
  unfold received
  split
  · next t ht => exact absurd (by rw [direction, ht]) h
  · rfl

theorem work_of_direction (h : op.direction = .receive) : ∃ t, op.work = .receive t := by
  unfold direction at h
  split at h
  · cases h
  · cases h
  · next t ht => exact ⟨t, ht⟩
  · cases h

theorem transferred_of_roomy (h : op.roomy = true) (hd : op.direction = .receive) :
    op.transferred = 0 := by
  obtain ⟨t, ht⟩ := work_of_direction hd
  simp only [roomy, ht, Bool.and_eq_true, decide_eq_true_eq] at h
  simp only [transferred, ht, h.2]

/-- Whoever is turned away as it came delivers nothing. -/
theorem received_withStatus (h : op.roomy = true) (s : Status) :
    (op.withStatus s).received = [] := by
  by_cases hd : op.direction = .receive
  · exact received_of_transferred (transferred_of_roomy h hd)
  · exact received_of_direction hd

theorem capacity_pos (h : op.roomy = true) (hd : op.direction = .receive) : 0 < op.capacity := by
  obtain ⟨t, ht⟩ := work_of_direction hd
  simp only [roomy, ht, Bool.and_eq_true, decide_eq_true_eq] at h
  simp only [capacity, ht]
  exact Span.capacity_pos h.1

theorem roomy_of_direction (h : op.direction ≠ .receive) : op.roomy = true := by
  unfold roomy
  split
  · next t ht => exact absurd (by rw [direction, ht]) h
  · rfl

end Operation

/-- An attempt of a receive offers room for some bytes. -/
def Attempt.roomy (a : Attempt) : Bool :=
  match a.op.work with
  | .receive _ => a.op.roomy && a.readable != some 0
  | _ => true

theorem Attempt.roomy_of_direction {a : Attempt} (h : a.op.direction ≠ .receive) :
    a.roomy = true := by
  unfold roomy
  split
  · next t ht => exact absurd (by rw [Operation.direction, ht]) h
  · rfl

/-- An operation that was not attempted to the end has room, if it is a receive. -/
def Standing.roomy : Standing → Bool
  | waiting op => op.roomy
  | trying a => a.roomy
  | done _ => true

theorem Standing.roomy_of_direction {σ : Standing} (h : σ.op.direction ≠ .receive) :
    σ.roomy = true := by
  cases σ with
  | waiting op => exact Operation.roomy_of_direction h
  | trying a => exact Attempt.roomy_of_direction h
  | done op => rfl

namespace Attempt

theorem start_of_receive {op : Operation} (h : op.direction = .receive) :
    start op = .calling ⟨op, none⟩ := by
  obtain ⟨t, ht⟩ := Operation.work_of_direction h
  rw [start, ht]

theorem roomy_start {op : Operation} (h : op.roomy = true) :
    (Standing.ofProgress (start op)).roomy = true := by
  by_cases hd : op.direction = .receive
  · obtain ⟨t, ht⟩ := Operation.work_of_direction hd
    rw [start_of_receive hd]
    simp only [Standing.ofProgress, Standing.roomy, roomy, ht, h]
    rfl
  · refine Standing.roomy_of_direction ?_
    rw [Standing.op_ofProgress, Operation.direction_eq_of_key (key_start op)]
    exact hd

theorem roomy_afterReceive {ticket : Nat} {status : Status} {t : Transfer}
    (h : (Operation.mk ticket status (.receive t)).roomy = true) (spans : List Span)
    (r : Except Int Received) :
    (Standing.ofProgress (afterReceive ⟨ticket, status, .receive t⟩ t spans r)).roomy = true := by
  cases r with
  | ok got => rfl
  | error raw =>
      unfold afterReceive
      dsimp only
      split
      · exact h
      · rfl

/-- An attempt leaves the room of an operation alone that was not ready. -/
theorem roomy_resume (a : Attempt) (fd : Descriptor) (r : (a.call fd).request.Reply)
    (h : a.roomy = true) : (Standing.ofProgress ((a.call fd).resume r)).roomy = true := by
  by_cases hd : a.op.direction = .receive
  · obtain ⟨⟨ticket, status, work⟩, readable⟩ := a
    obtain ⟨t, ht⟩ := Operation.work_of_direction hd
    cases ht
    replace h : (Operation.mk ticket status (.receive t)).roomy = true :=
      (Bool.and_eq_true_iff.mp h).1
    cases readable with
    | some n => exact roomy_afterReceive h _ r
    | none =>
        cases r with
        | error raw => rfl
        | ok n =>
            refine Bool.and_eq_true_iff.mpr ⟨h, bne_iff_ne.mpr fun hn => ?_⟩
            have := Nat.le_max_right n.toNat 1
            rw [Option.some.inj hn] at this
            cases this
  · refine Standing.roomy_of_direction ?_
    rw [Standing.op_ofProgress, Operation.direction_eq_of_key (key_resume a fd r)]
    exact hd

end Attempt

theorem Became.roomy {r : Progress} {σ : Standing} (h : Became r σ)
    (hr : (Standing.ofProgress r).roomy = true) : σ.roomy = true := by
  cases h with
  | itself _ => exact hr
  | instead _ _ => rfl
  | givenUp _ => rfl

theorem Channel.Onward.roomy {c : Channel} {p : Channel.Party}
    {x : Option (Exchange Channel.Call)} {σ σ' : Standing} (h : Channel.Onward c p x σ σ')
    (hσ : σ.roomy = true) : σ'.roomy = true := by
  cases h with
  | same _ => exact hσ
  | stopped _ => rfl
  | refused _ _ _ => rfl

/-! ### Wires -/

/-- One direction of a stream. -/
structure Wire where
  /-- Everything that the peer has sent. -/
  sent : Bytes
  /-- What was not taken yet. -/
  unread : Bytes
  /-- The peer sends no more. -/
  shut : Bool
deriving DecidableEq, Repr

namespace Wire

/-- The peer sends some bytes, unless it has shut down, and may shut down. -/
def Grows (w w' : Wire) : Prop :=
  w'.sent = w.sent ++ w'.sent.drop w.sent.length ∧
    w'.unread = w.unread ++ w'.sent.drop w.sent.length ∧
    (w.shut = true → w'.sent = w.sent ∧ w'.shut = true)

/-- The bytes that a call takes. -/
def taken (w : Wire) : Option (Exchange Channel.Call) → Bytes
  | some ⟨.system (.receive _ room _ _), answer⟩ =>
    match (answer : Except Int Received) with
    | .ok _ => w.unread.take (sumOf id room)
    | .error _ => []
  | _ => []

/-- The wire after a call. -/
def after (w : Wire) (x : Option (Exchange Channel.Call)) : Wire :=
  { w with unread := w.unread.drop (w.taken x).length }

/-- It says how many bytes are unread. -/
def tells (w : Wire) : Except Int Int → Bool
  | .ok n => decide (n = w.unread.length)
  | .error _ => false

/-- It gives as many bytes as fit.  Where none are unread, a receive is not ready, or gets no bytes
once the peer has shut down. -/
def gives (w : Wire) (room : List Nat) : Except Int Received → Bool
  | .ok got => decide (got.bytes = w.unread.take (sumOf id room) ∧ (w.unread = [] → w.shut = true))
  | .error raw => decide (raw = 11 ∧ w.unread = [] ∧ w.shut = false)

/-- The kernel answers a call as a stream does. -/
def answers (w : Wire) : Option (Exchange Channel.Call) → Bool
  | some ⟨.system (.available _), answer⟩ => w.tells answer
  | some ⟨.system (.receive _ room _ _), answer⟩ => w.gives room answer
  | _ => true

def Answers (w : Wire) (x : Option (Exchange Channel.Call)) : Prop := w.answers x = true

instance (w w' : Wire) : Decidable (w.Grows w') :=
  inferInstanceAs (Decidable (_ ∧ _ ∧ (_ → _ ∧ _)))

instance (w : Wire) (x : Option (Exchange Channel.Call)) : Decidable (w.Answers x) :=
  inferInstanceAs (Decidable (_ = true))

/-- Nothing is unread, and nothing will be. -/
def Exhausted (w : Wire) : Prop := w.unread = [] ∧ w.shut = true

variable {w w' : Wire} {x : Option (Exchange Channel.Call)}

theorem Grows.unread (h : w.Grows w') :
    ∃ more, w'.sent = w.sent ++ more ∧ w'.unread = w.unread ++ more :=
  ⟨_, h.1, h.2.1⟩

/-- Once the peer has shut down, nothing comes. -/
theorem Grows.shut (h : w.Grows w') (hs : w.shut = true) : w' = w := by
  obtain ⟨same, shut⟩ := h.2.2 hs
  have unread := h.2.1
  rw [same, List.drop_length, List.append_nil] at unread
  cases w
  cases w'
  simp_all

theorem taken_prefix (w : Wire) (x : Option (Exchange Channel.Call)) : w.taken x <+: w.unread := by
  unfold taken
  split
  · split
    · exact List.take_prefix _ _
    · exact List.nil_prefix
  · exact List.nil_prefix

/-- What is unread is taken, or remains. -/
theorem taken_append (w : Wire) (x : Option (Exchange Channel.Call)) :
    w.taken x ++ (w.after x).unread = w.unread := by
  obtain ⟨rest, h⟩ := w.taken_prefix x
  simp only [after]
  rw [← h, List.drop_left]

theorem length_after_le (w : Wire) (x : Option (Exchange Channel.Call)) :
    (w.after x).unread.length ≤ w.unread.length := by
  simp only [after, List.length_drop]
  omega

theorem after_of_taken (h : w.taken x = []) : w.after x = w := by
  simp [after, h]

/-- A wire that is exhausted stays so. -/
theorem Exhausted.next (h : w.Exhausted) (grows : (w.after x).Grows w') : w'.Exhausted := by
  have same : w.after x = w := after_of_taken (List.prefix_nil.mp (h.1 ▸ w.taken_prefix x))
  rw [same] at grows
  rw [grows.shut h.2]
  exact h

/-! ### Attempts to receive -/

/-- What a part of an attempt to receive leads to, and what it takes. -/
inductive Reads (w : Wire) (a : Attempt) : Progress → Bytes → Prop
  | asked (hr : a.readable = none) :
      Reads w a (.calling { a with readable := some (max w.unread.length 1) }) []
  | got {n : Nat} {op : Operation} (hr : a.readable = some n) (hs : op.status = .success)
      (ht : op.transferred = (w.unread.take (min n a.op.capacity)).length)
      (received : op.received = w.unread.take (min n a.op.capacity))
      (ended : w.unread = [] → w.shut = true) :
      Reads w a (.ready op) (w.unread.take (min n a.op.capacity))
  | notReady {n : Nat} {op : Operation} (hr : a.readable = some n) (empty : w.unread = [])
      (isOpen : w.shut = false) : Reads w a (.notReady op) []

theorem eq_of_tells {n : Int} (h : w.tells (.ok n) = true) : n = w.unread.length :=
  of_decide_eq_true h

theorem sumOf_map_length (spans : List Span) :
    sumOf id (spans.map (·.length)) = Span.total spans := by
  induction spans with
  | nil => rfl
  | cons s rest ih =>
      rw [List.map_cons, sumOf_cons, ih]
      rfl

/-- What a receive leads to on a stream. -/
theorem Answers.reads {a : Attempt} {fd : Descriptor} {reply : (a.call fd).request.Reply}
    (hd : a.op.direction = .receive)
    (h : w.Answers (some ⟨.system (a.call fd).request, reply⟩)) :
    w.Reads a ((a.call fd).resume reply)
      (w.taken (some ⟨.system (a.call fd).request, reply⟩)) := by
  obtain ⟨⟨ticket, status, work⟩, readable⟩ := a
  obtain ⟨t, ht⟩ := Operation.work_of_direction hd
  cases ht
  cases readable with
  | none =>
      cases reply with
      | ok n =>
          obtain rfl := eq_of_tells h
          exact .asked rfl
      | error raw => cases h
  | some n =>
      have room : sumOf id ((Span.room t.buffer.windows n).map (·.length)) =
          min n (Span.capacity t.buffer.windows) := by
        rw [sumOf_map_length, Span.total_room]
      cases reply with
      | ok got =>
          obtain ⟨bytes, ended⟩ : got.bytes = w.unread.take _ ∧ (w.unread = [] → w.shut = true) :=
            of_decide_eq_true h
          rw [room] at bytes
          have fits : got.bytes.length ≤ Span.total (Span.room t.buffer.windows n) := by
            rw [Span.total_room, bytes, List.length_take]
            omega
          change w.Reads _ _
            (w.unread.take (sumOf id ((Span.room t.buffer.windows n).map (·.length))))
          rw [room]
          refine .got rfl rfl (congrArg List.length bytes) ?_ ended
          exact (t.buffer.content_scatter n got.bytes fits).trans bytes
      | error raw =>
          obtain ⟨again, empty, isOpen⟩ : raw = 11 ∧ w.unread = [] ∧ w.shut = false :=
            of_decide_eq_true h
          subst again
          exact .notReady rfl empty isOpen

/-- Only receives take anything. -/
theorem taken_of_direction {a : Attempt} {fd : Descriptor} {reply : (a.call fd).request.Reply}
    (hd : a.op.direction ≠ .receive) :
    w.taken (some ⟨.system (a.call fd).request, reply⟩) = [] := by
  obtain ⟨⟨ticket, status, work⟩, readable⟩ := a
  cases work with
  | receive t => exact absurd rfl hd
  | _ => rfl

/-- A receive that is ready delivers some bytes, unless there will be none any more. -/
theorem Reads.delivers_or {a : Attempt} {op : Operation} {bytes : Bytes}
    (h : w.Reads a (.ready op) bytes) (hd : a.op.direction = .receive) (room : a.roomy = true) :
    op.Delivers ∨ w.Exhausted := by
  cases h with
  | @got n _ hr hs ht received ended =>
      by_cases hu : w.unread = []
      · exact .inr ⟨hu, ended hu⟩
      · refine .inl ⟨hs, ?_⟩
        obtain ⟨t, hw⟩ := Operation.work_of_direction hd
        simp only [Attempt.roomy, hw, hr, Bool.and_eq_true, bne_iff_ne] at room
        have some := Operation.capacity_pos room.1 hd
        have unread := List.length_pos_iff.mpr hu
        have : n ≠ 0 := fun hn => room.2 (congrArg _ hn)
        rw [ht, List.length_take]
        omega

end Wire

/-- What a part of an attempt has received. -/
def Progress.received : Progress → Bytes
  | ready op => op.received
  | _ => []

theorem Attempt.received_start (op : Operation) : (start op).received = [] := by
  unfold start
  split
  · next t ht =>
    split
    · refine Operation.received_of_direction ?_
      rw [Operation.direction_withStatus, Operation.direction, ht]
      nofun
    · rfl
  · rfl

theorem Wire.Reads.received {w : Wire} {a : Attempt} {r : Progress} {bytes : Bytes}
    (h : w.Reads a r bytes) : r.received = bytes := by
  cases h with
  | asked _ => rfl
  | got _ _ _ received _ => exact received
  | notReady _ _ _ => rfl

/-- What an attempt has received is what was taken from the wire. -/
theorem Wire.Answers.received {w : Wire} {a : Attempt} {fd : Descriptor}
    {reply : (a.call fd).request.Reply}
    (h : w.Answers (some ⟨.system (a.call fd).request, reply⟩)) :
    ((a.call fd).resume reply).received = w.taken (some ⟨.system (a.call fd).request, reply⟩) := by
  by_cases hd : a.op.direction = .receive
  · exact (h.reads hd).received
  · rw [taken_of_direction hd]
    have same := Operation.direction_eq_of_key (a.key_resume fd reply)
    cases hr : (a.call fd).resume reply with
    | ready op =>
        rw [hr] at same
        exact Operation.received_of_direction (same ▸ hd)
    | _ => rfl

end Proactor
