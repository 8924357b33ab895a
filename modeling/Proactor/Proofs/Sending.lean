import Proactor.Proofs.Cursor
import Proactor.Proofs.Fates
/-! # Sends are resumed exactly

What is offered of a send, and what the kernel takes of it, over all its attempts, whoever makes
them: its submission, a dispatch, or a dispatch that gives it up.

* **How far** (`Transfer.Tracks`).  The cursor of a send rests behind the bytes that were
  transferred.
* **Calls** (`offers`, `accepted`).  What the calls of a send offer, and the bytes that the kernel
  took, read off the stream of everything that was sent.
* **Every moment** (`Sends`).  How the send stands, with what was taken of it up to then.  An
  attempt that begins keeps this (`Sends.starts`), so does each answer (`Sends.answered`), and
  what becomes of the operation afterwards (`Sends.became`).
* **The end** (`Run.send_resumed`).  Nothing is sent twice, left out or taken from elsewhere; no
  attempt goes on for ever; and the send succeeds when all of it was taken, or the kernel takes
  nothing more. -/

namespace Proactor

/-! ### How far a send has come -/

/-- The transfer is one of this buffer, and its cursor rests behind what was transferred. -/
structure Transfer.Tracks (t : Transfer) (buffer : Buffer) : Prop where
  ofBuffer : t.buffer = buffer
  resting : t.cursor.Normal buffer.windows
  position : t.cursor.position buffer.windows = t.transferred

/-- What a send offers to the kernel. -/
def Transfer.pieces (t : Transfer) : List Bytes :=
  (Span.unsent t.buffer.windows t.cursor).map (Span.read t.buffer.windows)

/-- The transfer when the kernel has taken `k` bytes more. -/
def Transfer.carried (t : Transfer) (k : Nat) : Transfer :=
  { t with transferred := t.transferred + k, cursor := t.cursor.advance t.buffer.windows k }

namespace Transfer

variable {t : Transfer} {buffer : Buffer} {k : Nat}

/-- The first move of a cursor does not lead out of the buffer. -/
theorem move_start (buffer : Buffer) : (({} : Cursor).move buffer.windows 0).2 = 0 :=
  (Cursor.move_spec (Cursor.within_start _) (by simp [Cursor.position])).1

theorem tracks_fresh (buffer : Buffer) (flags : Int32) (address : Option Address) :
    (fresh buffer flags address).Tracks buffer := by
  obtain ⟨-, resting, position⟩ :=
    Cursor.move_spec (n := 0) (Cursor.within_start buffer.windows) (by simp [Cursor.position])
  exact ⟨rfl, resting, position⟩

namespace Tracks

theorem le (h : t.Tracks buffer) : t.transferred ≤ buffer.length := by
  have := (Cursor.position_le h.resting.within).1
  rw [h.position] at this
  unfold Buffer.length
  omega

/-- What is offered follows what was transferred. -/
theorem pieces_prefix (h : t.Tracks buffer) :
    t.pieces.flatten <+: buffer.content.drop t.transferred := by
  have offered := Span.pieces_prefix h.resting
  rw [h.position] at offered
  rw [pieces, h.ofBuffer]
  exact offered

theorem length_pieces (h : t.Tracks buffer) :
    t.transferred + t.pieces.flatten.length ≤ buffer.length := by
  have := h.pieces_prefix.length_le
  rw [List.length_drop, Buffer.length_content] at this
  have := h.le
  omega

/-- The cursor gets behind what the kernel takes, and not past the end. -/
theorem move (h : t.Tracks buffer) (hk : k ≤ t.pieces.flatten.length) :
    (t.cursor.move buffer.windows k).2 = 0 ∧ (t.carried k).Tracks buffer := by
  have enough : t.cursor.position buffer.windows + k ≤ sumOf (·.count) buffer.windows := by
    rw [h.position]
    exact Nat.le_trans (Nat.add_le_add_left hk _) h.length_pieces
  obtain ⟨spent, resting, position⟩ := Cursor.move_spec h.resting.within enough
  refine ⟨spent, h.ofBuffer, ?_, ?_⟩
  · rw [carried, h.ofBuffer]
    exact resting
  · rw [carried, h.ofBuffer]
    exact position.trans (congrArg (· + k) h.position)

/-- What the kernel takes are the bytes that come next. -/
theorem taken (h : t.Tracks buffer) (hk : k ≤ t.pieces.flatten.length) :
    buffer.content.take (t.transferred + k) =
      buffer.content.take t.transferred ++ t.pieces.flatten.take k := by
  obtain ⟨rest, hr⟩ := h.pieces_prefix
  rw [List.take_add, ← hr, List.take_append_of_le_length hk]

/-- As long as something is left, something is offered. -/
theorem unsent_ne_nil (h : t.Tracks buffer) (more : t.cursor.isDone buffer.windows = false) :
    Span.unsent buffer.windows t.cursor ≠ [] := Span.unsent_ne_nil h.resting more

/-- A send has nothing to send exactly when all of it was transferred. -/
theorem nothingToSend_iff (h : t.Tracks buffer) :
    Attempt.nothingToSend t = true ↔ t.transferred = buffer.length := by
  have done := Cursor.isDone_iff h.resting
  rw [h.position] at done
  rw [Attempt.nothingToSend, h.ofBuffer, Bool.or_eq_true, List.isEmpty_iff]
  refine ⟨?_, fun hl => .inl (done.mpr hl)⟩
  rintro (hd | none)
  · exact done.mp hd
  · cases hd : t.cursor.isDone buffer.windows with
    | true => exact done.mp hd
    | false => exact absurd none (h.unsent_ne_nil hd)

/-- What a send offers as long as something of it is left. -/
theorem offers (h : t.Tracks buffer) (more : t.transferred ≠ buffer.length) :
    t.pieces ≠ [] ∧ t.pieces.length ≤ Span.limit ∧ (∀ piece ∈ t.pieces, piece ≠ []) ∧
      t.pieces.flatten <+: buffer.content.drop t.transferred := by
  refine ⟨?_, ?_, fun piece hp => ?_, h.pieces_prefix⟩
  · intro none
    refine more (h.nothingToSend_iff.mp ?_)
    rw [Attempt.nothingToSend, List.map_eq_nil_iff.mp none]
    exact Bool.or_true _
  · rw [pieces, List.length_map]
    exact Span.length_unsent_le _ _
  · rw [pieces, h.ofBuffer] at hp
    exact Span.pieces_ne_nil h.resting hp

end Tracks
end Transfer

/-- An attempt of a send begins with a call, unless all of it was transferred. -/
theorem Attempt.start_send {op : Operation} {t : Transfer} {buffer : Buffer}
    (work : op.work = .send t) (h : t.Tracks buffer) :
    start op = if t.transferred = buffer.length then .ready (op.withStatus .success)
      else .calling ⟨op, none⟩ := by
  simp only [start, work, h.nothingToSend_iff]

/-- The calls that are made before an operation can stand in another way. -/
def Standing.calls : Standing → Nat
  | trying _ => 1
  | waiting _ | done _ => 0

theorem Standing.calls_le (σ : Standing) : σ.calls ≤ 1 := by
  cases σ with
  | trying _ => exact Nat.le_refl 1
  | waiting _ | done _ => exact Nat.zero_le 1

namespace Channel

/-! ### What is offered and what is taken -/

/-- A call of a send: what it offers, and what it is answered. -/
structure Offer where
  attempt : Attempt
  pieces : List Bytes
  reply : Except Int Nat

namespace Offer

/-- The bytes that the kernel takes. -/
def taken (o : Offer) : Bytes :=
  match o.reply with
  | .ok k => o.pieces.flatten.take k
  | .error _ => []

/-- The kernel takes no more than it is offered, and its errors have a meaning. -/
def Honest (o : Offer) : Prop :=
  match o.reply with
  | .ok k => k ≤ o.pieces.flatten.length
  | .error raw => Errno.Meaningful raw

instance : DecidablePred Honest
  | ⟨_, pieces, .ok k⟩ => inferInstanceAs (Decidable (k ≤ pieces.flatten.length))
  | ⟨_, _, .error raw⟩ => inferInstanceAs (Decidable (Errno.Meaningful raw))

end Offer

/-- The call that an event makes for the operation with ticket `n`. -/
def Event.offer? (n : Nat) : Event → Option Offer
  | acted _ p (some ⟨.system (.send _ pieces _ _), answer⟩) _ =>
    match p.attempt? with
    | some a => if a.op.ticket = n then some ⟨a, pieces, answer⟩ else none
    | none => none
  | _ => none

/-- All calls for the operation with ticket `n`, newest first. -/
def offers (n : Nat) (t : List Event) : List Offer := t.filterMap (·.offer? n)

/-- The bytes that the kernel took of the operation with ticket `n`, the first one first. -/
def accepted (n : Nat) (t : List Event) : Bytes := ((stream t).filter (·.1 == n)).map (·.2)

/-- An attempt of the operation with ticket `n` has begun. -/
def Begun (n : Nat) (t : List Event) : Prop := ∃ e ∈ t, e.begins n = true

/-- The kernel was offered bytes of the operation with ticket `n` and took none. -/
def Declined (n : Nat) (t : List Event) : Prop := ∃ o ∈ offers n t, o.reply = .ok 0

variable {use : Party → Prop} {t older : List Event} {s : System} {e : Event} {n k : Nat}
  {buffer : Buffer} {tr : Transfer} {σ σ' : Standing} {op : Operation} {o : Offer} {r : Progress}

/-- What the kernel took in an event. -/
theorem accepted_cons (n : Nat) (e : Event) (t : List Event) :
    accepted n (e :: t) = accepted n t ++ ((e.offer? n).map (·.taken)).getD [] := by
  have one : (e.taken.filter (·.1 == n)).map (·.2) = ((e.offer? n).map (·.taken)).getD [] := by
    obtain ⟨_, _⟩ | ⟨_, p, _ | ⟨request, answer⟩, _⟩ := e
    · rfl
    · rfl
    · cases request with
      | system call =>
          cases call with
          | send fd pieces address flags =>
              simp only [Event.taken, Event.offer?]
              cases p.attempt? with
              | none => rfl
              | some a =>
                  cases answer with
                  | error raw => by_cases hn : a.op.ticket = n <;> simp [hn, Offer.taken]
                  | ok k =>
                      by_cases hn : a.op.ticket = n <;>
                        simp [hn, Offer.taken, List.filter_map, Function.comp_def]
          | _ => rfl
      | _ => rfl
  rw [accepted, stream, List.filter_append, List.map_append, one]
  rfl

theorem accepted_of_none (h : e.offer? n = none) : accepted n (e :: t) = accepted n t := by
  rw [accepted_cons, h]
  exact List.append_nil _

theorem accepted_of_some (h : e.offer? n = some o) :
    accepted n (e :: t) = accepted n t ++ o.taken := by
  rw [accepted_cons, h]
  rfl

theorem offers_of_none (h : e.offer? n = none) : offers n (e :: t) = offers n t := by
  rw [offers, List.filterMap_cons, h]
  rfl

theorem offers_of_some (h : e.offer? n = some o) : offers n (e :: t) = o :: offers n t := by
  rw [offers, List.filterMap_cons, h]
  rfl

theorem mem_offers_earlier (newer : List Event) (h : o ∈ offers n older) :
    o ∈ offers n (newer ++ older) := by
  rw [offers, List.filterMap_append]
  exact List.mem_append_right _ h

theorem begun_cons : Begun n (e :: t) ↔ e.begins n = true ∨ Begun n t :=
  List.exists_mem_cons_iff _ _ _

theorem declined_of_none (h : e.offer? n = none) : Declined n (e :: t) ↔ Declined n t := by
  rw [Declined, offers_of_none h]
  rfl

theorem declined_of_some (h : e.offer? n = some o) :
    Declined n (e :: t) ↔ o.reply = .ok 0 ∨ Declined n t := by
  rw [Declined, offers_of_some h]
  exact List.exists_mem_cons_iff _ _ _

theorem not_declined (h : ¬ Declined n t) (ho : e.offer? n = some o) (hr : o.reply ≠ .ok 0) :
    ¬ Declined n (e :: t) := by
  rw [declined_of_some ho]
  rintro (zero | before)
  · exact hr zero
  · exact h before

/-- An operation for which no call was made. -/
theorem offers_of_silent (h : ∀ e ∈ t, e.offer? n = none) : offers n t = [] :=
  List.filterMap_eq_nil_iff.mpr h

theorem accepted_of_silent (h : ∀ e ∈ t, e.offer? n = none) : accepted n t = [] := by
  induction t with
  | nil => rfl
  | cons e t ih =>
      rw [accepted_of_none (h e (.head _))]
      exact ih fun e he => h e (.tail _ he)

/-! ### How many calls there are -/

/-- In whatever lies between some moment and now there are at most as many calls, with `k` that are
still to come, as bytes that they brought, attempts that began, and one. -/
def Paced (n : Nat) (t : List Event) (k : Nat) : Prop :=
  ∀ newer older, t = newer ++ older →
    (offers n newer).length + k ≤ (accepted n newer).length + newer.countP (·.begins n) + 1

theorem Paced.cons {k' : Nat} (h : Paced n t k) (hk : k' ≤ 1)
    (paid : (e.offer? n).toList.length + k' ≤
      k + ((e.offer? n).map (·.taken.length)).getD 0 + [e].countP (·.begins n)) :
    Paced n (e :: t) k' := by
  intro newer older split
  rcases List.cons_eq_append_iff.mp split with ⟨rfl, rfl⟩ | ⟨newer, rfl, rfl⟩
  · exact Nat.le_trans (Nat.add_le_add_left hk _) (Nat.le_add_left _ _)
  · have before := h newer older rfl
    have calls : (offers n (e :: newer)).length =
        (offers n newer).length + (e.offer? n).toList.length := by
      cases ho : e.offer? n with
      | none => rw [offers_of_none ho]; rfl
      | some o => rw [offers_of_some ho]; rfl
    have bytes : (accepted n (e :: newer)).length =
        (accepted n newer).length + ((e.offer? n).map (·.taken.length)).getD 0 := by
      cases ho : e.offer? n with
      | none => rw [accepted_of_none ho]; rfl
      | some o => rw [accepted_of_some ho, List.length_append]; rfl
    have begins : (e :: newer).countP (·.begins n) =
        [e].countP (·.begins n) + newer.countP (·.begins n) := by
      rw [← List.countP_append]
      rfl
    omega

/-! ### What every standing of a send says -/

/-- How a send stands fits what has happened: it stops trying when nothing of it is left, or the
kernel took nothing, and these are its successes. -/
def Agrees (n : Nat) (buffer : Buffer) (t : List Event) (tr : Transfer) : Standing → Prop
  | .waiting _ => ¬ Declined n t ∧ (Begun n t → tr.transferred ≠ buffer.length)
  | .trying _ => Begun n t ∧ ¬ Declined n t ∧ tr.transferred ≠ buffer.length
  | .done op =>
    Begun n t → (op.status = .success ↔ tr.transferred = buffer.length ∨ Declined n t)

/-- What holds of the send with ticket `n` at every moment. -/
structure Sends (n : Nat) (buffer : Buffer) (t : List Event) (σ : Standing) (tr : Transfer) :
    Prop where
  work : σ.op.work = .send tr
  tracks : tr.Tracks buffer
  bytes : accepted n t = buffer.content.take tr.transferred
  agrees : Agrees n buffer t tr σ
  paced : Paced n t σ.calls
  attached : Begun n t → ∃ e ∈ t, e.system.channel.attached = true

namespace Sends

theorem length (h : Sends n buffer t σ tr) : (accepted n t).length = tr.transferred := by
  have := h.tracks.le
  rw [h.bytes, List.length_take, Buffer.length_content]
  omega

/-- An operation that was just submitted. -/
theorem fresh (flags : Int32) (address : Option Address) (none : ∀ e ∈ t, e.offer? n = none)
    (idle : ¬ Begun n t) :
    Sends n buffer t (.waiting (.send n buffer flags address)) (.fresh buffer flags address) := by
  have tracks := Transfer.tracks_fresh buffer flags address
  refine ⟨rfl, tracks, accepted_of_silent none, ⟨?_, ?_⟩, ?_, ?_⟩
  · rintro ⟨o, ho, -⟩
    rw [offers_of_silent none] at ho
    cases ho
  · exact fun begun => absurd begun idle
  · rintro newer older rfl
    rw [offers_of_silent fun e he => none e (List.mem_append_left _ he)]
    exact Nat.zero_le _
  · exact fun begun => absurd begun idle

/-- What happens to others changes nothing. -/
theorem later (h : Sends n buffer t σ tr) (ho : e.offer? n = none) (hb : e.begins n = false) :
    Sends n buffer (e :: t) σ tr := by
  have begun : Begun n (e :: t) ↔ Begun n t := by simp [begun_cons, hb]
  refine ⟨h.work, h.tracks, ?_, ?_, ?_, fun hb => ?_⟩
  · rw [accepted_of_none ho]
    exact h.bytes
  · have agrees := h.agrees
    cases σ <;> simpa only [Agrees, begun, declined_of_none ho] using agrees
  · exact h.paced.cons σ.calls_le (by simp [ho, hb])
  · obtain ⟨e', he, ha⟩ := h.attached (begun.mp hb)
    exact ⟨e', .tail _ he, ha⟩

/-- An attempt begins. -/
theorem starts (h : Sends n buffer t (.waiting op) tr) (ho : e.offer? n = none)
    (hb : e.begins n = true) (ha : e.system.channel.attached = true) :
    Sends n buffer (e :: t) (.ofProgress (Attempt.start op)) tr := by
  have work : op.work = .send tr := h.work
  have bytes : accepted n (e :: t) = buffer.content.take tr.transferred :=
    (accepted_of_none ho).trans h.bytes
  have declined := mt (declined_of_none (t := t) ho).mp h.agrees.1
  have paced : ∀ σ : Standing, Paced n (e :: t) σ.calls := by
    intro σ
    refine h.paced.cons σ.calls_le ?_
    rw [ho, List.countP_cons_of_pos hb, Option.toList_none, List.length_nil, Nat.zero_add]
    exact σ.calls_le
  have attached : Begun n (e :: t) → ∃ e' ∈ e :: t, e'.system.channel.attached = true :=
    fun _ => ⟨e, .head _, ha⟩
  rw [Attempt.start_send work h.tracks]
  split
  · next all =>
    exact ⟨h.work, h.tracks, bytes, fun _ => iff_of_true rfl (.inl all), paced _, attached⟩
  · next more =>
    exact ⟨h.work, h.tracks, bytes, ⟨⟨e, .head _, hb⟩, declined, more⟩, paced _, attached⟩

/-- A call is answered: the bytes that were taken follow those before, and if another call is next,
there are some. -/
theorem called {a : Attempt} {tr' : Transfer} (h : Sends n buffer t (.trying a) tr)
    (ho : e.offer? n = some o) (work : σ.op.work = .send tr') (tracks : tr'.Tracks buffer)
    (bytes : buffer.content.take tr'.transferred = buffer.content.take tr.transferred ++ o.taken)
    (brought : σ.calls ≤ o.taken.length) (agrees : Agrees n buffer (e :: t) tr' σ) :
    Sends n buffer (e :: t) σ tr' := by
  refine ⟨work, tracks, ?_, agrees, ?_, fun begun => ?_⟩
  · rw [accepted_of_some ho, h.bytes]
    exact bytes.symm
  · refine h.paced.cons σ.calls_le ?_
    rw [ho]
    exact Nat.le_trans (Nat.add_le_add_left brought 1) (Nat.le_add_right _ _)
  · obtain ⟨e', he, ha⟩ := h.attached h.agrees.1
    exact ⟨e', .tail _ he, ha⟩

section answered
variable {a : Attempt} (h : Sends n buffer t (.trying a) tr)
include h

/-- The kernel takes nothing more. -/
theorem declined (ho : e.offer? n = some ⟨a, tr.pieces, .ok 0⟩) :
    Sends n buffer (e :: t) (.ofProgress (Attempt.afterSend a.op tr (.ok 0))) tr := by
  have zero : Declined n (e :: t) := (declined_of_some ho).mpr (.inl rfl)
  exact h.called ho rfl h.tracks (List.append_nil _).symm (Nat.zero_le _)
    fun _ => iff_of_true rfl (.inr zero)

/-- The kernel takes something. -/
theorem brought (ho : e.offer? n = some ⟨a, tr.pieces, .ok (k + 1)⟩)
    (hk : k + 1 ≤ tr.pieces.flatten.length) :
    Sends n buffer (e :: t) (.ofProgress (Attempt.afterSend a.op tr (.ok (k + 1))))
      (tr.carried (k + 1)) := by
  obtain ⟨begun, declined, -⟩ := h.agrees
  obtain ⟨-, tracks⟩ := h.tracks.move hk
  have taken : (Offer.taken ⟨a, tr.pieces, .ok (k + 1)⟩).length = k + 1 :=
    List.length_take_of_le hk
  have bytes := h.tracks.taken hk
  have nonzero := not_declined declined ho fun h => by cases h
  show Sends n buffer (e :: t)
    (.ofProgress (Attempt.start { a.op with work := .send (tr.carried (k + 1)) })) _
  rw [Attempt.start_send rfl tracks]
  split
  · next all =>
    exact h.called ho rfl tracks bytes (Nat.zero_le _) fun _ => iff_of_true rfl (.inl all)
  · next more =>
    refine h.called ho rfl tracks bytes ?_ ⟨begun_cons.mpr (.inr begun), nonzero, more⟩
    rw [taken]
    exact Nat.le_add_left 1 k

/-- The call fails: the descriptor is not ready, or the attempt has failed. -/
theorem failed {raw : Int} (ho : e.offer? n = some ⟨a, tr.pieces, .error raw⟩)
    (meaning : Errno.Meaningful raw) :
    Sends n buffer (e :: t) (.ofProgress (Attempt.afterSend a.op tr (.error raw))) tr := by
  obtain ⟨-, declined, more⟩ := h.agrees
  have bytes := (List.append_nil (buffer.content.take tr.transferred)).symm
  have nonzero := not_declined declined ho fun h => by cases h
  unfold Attempt.afterSend
  dsimp only
  split
  · exact h.called ho rfl h.tracks bytes (Nat.zero_le _) ⟨nonzero, fun _ => more⟩
  · have failed : Status.ofError (Errno.ofRaw raw) ≠ .success := by
      rw [Errno.ofRaw_of_meaningful meaning, Status.ofError, Ne, Status.ofErrno_eq_success]
      have := meaning.1
      dsimp only
      omega
    refine h.called ho rfl h.tracks bytes (Nat.zero_le _) fun _ => iff_of_false failed ?_
    rintro (all | zero)
    · exact more all
    · exact nonzero zero

theorem answered {reply : Except Int Nat} (ho : e.offer? n = some ⟨a, tr.pieces, reply⟩)
    (honest : Offer.Honest ⟨a, tr.pieces, reply⟩) :
    ∃ tr', Sends n buffer (e :: t) (.ofProgress (Attempt.afterSend a.op tr reply)) tr' := by
  match reply with
  | .ok 0 => exact ⟨_, h.declined ho⟩
  | .ok (k + 1) => exact ⟨_, h.brought ho honest⟩
  | .error raw => exact ⟨_, h.failed ho honest⟩

end answered

/-- A send that waits ends as a failure, if it was attempted at all. -/
theorem ended {status : Status} (h : Sends n buffer t (.waiting op) tr)
    (hs : Begun n t → status ≠ .success) :
    Sends n buffer t (.done (op.withStatus status)) tr := by
  obtain ⟨declined, more⟩ := h.agrees
  refine ⟨h.work, h.tracks, h.bytes, fun begun => iff_of_false (hs begun) ?_, h.paced, h.attached⟩
  rintro (all | zero)
  · exact more begun all
  · exact declined zero

/-- What becomes of the operation says no more than the attempt did. -/
theorem became (h : Sends n buffer t (.ofProgress r) tr) (begun : Begun n t)
    (became : Became r σ') : Sends n buffer t σ' tr := by
  cases became with
  | itself => exact h
  | instead failed hs =>
      have none := mt (h.agrees begun).mpr failed
      exact ⟨h.work, h.tracks, h.bytes, fun _ => iff_of_false hs none, h.paced, h.attached⟩
  | givenUp hs => exact h.ended fun _ => hs

end Sends

/-! ### Runs -/

section events
variable {c : Channel} {p p' : Party} {x : Option (Exchange Call)} {a : Attempt}

/-- Nothing is offered of an operation that was not tried. -/
theorem Event.untried (s : System) (x : Option (Exchange Call)) (p' : Party)
    (hn : ∀ op, p.tries s.channel = some op → op.ticket ≠ n) :
    (acted s p x p').offer? n = none ∧ (acted s p x p').begins n = false := by
  constructor
  · unfold offer?
    split
    · next heq =>
      cases heq
      split
      · next a ha =>
        refine if_neg (hn a.op ?_)
        simp [Party.tries, ha]
      · rfl
    · rfl
  · cases hb : p.begins? s.channel with
    | none => simp [begins, hb]
    | some op =>
        have other := hn op (Party.tries_of_begins hb)
        simp [begins, hb, other]

/-- Who makes a call for an operation attempts it. -/
theorem Event.attempt_of_offer (h : (acted s p x p').offer? n = some o) :
    p.attempt? = some o.attempt ∧ o.attempt.op.ticket = n := by
  unfold offer? at h
  split at h
  · next heq =>
    cases heq
    split at h
    · next a ha =>
      split at h
      · next hn =>
        cases h
        exact ⟨ha, hn⟩
      · cases h
    · cases h
  · cases h

/-- The next call of a send offers what is left of it. -/
theorem Event.offer?_of_send (s : System) (p' : Party) (ha : p.attempt? = some a)
    (work : a.op.work = .send tr) (hn : a.op.ticket = n) (reply : (a.call c.fd).request.Reply) :
    ∃ r : Except Int Nat, (acted s p (some ⟨.system (a.call c.fd).request, reply⟩) p').offer? n =
      some ⟨a, tr.pieces, r⟩ ∧ (a.call c.fd).resume reply = Attempt.afterSend a.op tr r := by
  obtain ⟨⟨ticket, status, _⟩, readable⟩ := a
  cases work
  refine ⟨reply, ?_, rfl⟩
  show (match p.attempt? with
    | some a => if a.op.ticket = n then some (Offer.mk a tr.pieces reply) else none
    | none => none) = _
  rw [ha]
  exact if_pos hn

end events

section fates
variable {c : Channel} {l₁ l₂ : List Party} {p p' : Party} {x : Option (Exchange Call)}

/-- A send that is turned away ends as a failure. -/
theorem Sends.onward (run : Run use t ⟨c, l₁ ++ p :: l₂⟩) (h : Sends n buffer t σ tr)
    (onward : Onward c p x σ σ') : Sends n buffer t σ' tr := by
  cases onward with
  | same => exact h
  | stopped op =>
      refine h.ended fun _ hs => ?_
      cases hs
  | refused ha _ _ =>
      -- an attempt has begun only if the channel had joined
      refine h.ended fun begun => ?_
      obtain ⟨e, he, joined⟩ := h.attached begun
      have := run.attached_since he joined
      rw [ha] at this
      cases this

/-- Whatever becomes of a send in a step agrees with what has happened. -/
theorem Sends.fate (run : Run use t ⟨c, l₁ ++ p :: l₂⟩) (hn : σ'.op.ticket = n)
    (honest : ∀ o, (Event.acted ⟨c, l₁ ++ p :: l₂⟩ p x p').offer? n = some o → o.Honest)
    (fate : Fate c p x (fun σ => ∃ tr, Sends n buffer t σ tr) σ') :
    ∃ tr, Sends n buffer (.acted ⟨c, l₁ ++ p :: l₂⟩ p x p' :: t) σ' tr := by
  cases fate with
  | @wentOn a _ ha before reply hx became =>
      obtain ⟨tr, h⟩ := before
      have key := became.key.trans (Attempt.key_resume a c.fd reply)
      have ticket : a.op.ticket = n := (Operation.ticket_eq_of_key key).symm.trans hn
      obtain ⟨r, ho, resume⟩ :=
        Event.offer?_of_send ⟨c, l₁ ++ p :: l₂⟩ p' ha h.work ticket reply
      subst hx
      obtain ⟨tr', h'⟩ := h.answered ho (honest _ ho)
      rw [resume] at became
      exact ⟨tr', h'.became (begun_cons.mpr (.inr h.agrees.1)) became⟩
  | @began op _ hb hx before became =>
      obtain ⟨tr, h⟩ := before
      have key := became.key.trans (Attempt.key_start op)
      have ticket : op.ticket = n := (Operation.ticket_eq_of_key key).symm.trans hn
      have work : op.work = .send tr := h.work
      subst hx
      have begins : (Event.acted ⟨c, l₁ ++ p :: l₂⟩ p none p').begins n = true := by
        simp [Event.begins, hb, ticket]
      have attached : c.attached = true := by
        refine (run.attached_of_begins hb).resolve_right fun connects => ?_
        rw [Operation.isConnect, work] at connects
        cases connects
      exact ⟨tr, (h.starts rfl begins attached).became ⟨_, .head _, begins⟩ became⟩
  | untried hne before onward =>
      obtain ⟨tr, h⟩ := before
      have quiet := Event.untried ⟨c, l₁ ++ p :: l₂⟩ x p' fun op ht => hn ▸ hne op ht
      exact ⟨tr, (h.onward run onward).later quiet.1 quiet.2⟩

end fates

/-- What is known of a send holds at every moment. -/
theorem Run.sends (run : Run use t s) {flags : Int32} {address : Option Address} {sub : Submission}
    (submitted : .submission (.send n buffer flags address) sub ∈ s.parties)
    (honest : ∀ o ∈ offers n t, o.Honest) (h : σ ∈ s.standings t) (hn : σ.op.ticket = n) :
    ∃ tr, Sends n buffer t σ tr := by
  refine Run.standing_lasts (P := fun t σ => (∀ o ∈ offers n t, o.Honest) →
    ∃ tr, Sends n buffer t σ tr) ?_ ?_ ?_ run submitted h hn honest
  · intro t s run unused _
    have quiet : ∀ e ∈ t, e.offer? n = none ∧ e.begins n = false := by
      intro e he
      cases e with
      | joined _ _ => exact ⟨rfl, rfl⟩
      | acted s p x p' => exact Event.untried s x p' fun op => run.untried unused he
    refine ⟨_, .fresh flags address (fun e he => (quiet e he).1) ?_⟩
    rintro ⟨e, he, hb⟩
    rw [(quiet e he).2] at hb
    cases hb
  · intro t s p σ ih honest
    obtain ⟨tr, h⟩ := ih honest
    exact ⟨tr, h.later rfl rfl⟩
  · intro t c l₁ l₂ p x turn σ' run _ _ hn fate honest
    refine Sends.fate run hn (fun o ho => honest o ?_) (fate.mono fun σ _ ih => ih fun o ho => ?_)
    · exact List.mem_filterMap.mpr ⟨_, .head _, ho⟩
    · exact honest o (mem_offers_earlier [_] ho)

/-- When a call is made, the send is tried, and what is offered is what is left of it. -/
theorem Run.sends_at {newer : List Event} (run : Run use (newer ++ e :: older) s) {flags : Int32}
    {address : Option Address} {sub : Submission}
    (submitted : .submission (.send n buffer flags address) sub ∈ s.parties)
    (honest : ∀ o ∈ offers n (newer ++ e :: older), o.Honest) (ho : e.offer? n = some o) :
    ∃ tr, Sends n buffer older (.trying o.attempt) tr ∧ o.pieces = tr.pieces := by
  have before : ∀ o ∈ offers n older, o.Honest := by
    intro o ho
    rw [List.append_cons] at honest
    exact honest o (mem_offers_earlier _ ho)
  obtain ⟨s', run'⟩ := run.earlier
  cases run' with
  | join _ _ _ _ => cases ho
  | @act _ c l₁ l₂ p run₀ x turn yields =>
      obtain ⟨ha, hn⟩ := Event.attempt_of_offer ho
      obtain ⟨own, reply, rfl, -⟩ :=
        (Party.step_of_yields yields).goes_on (run₀.pends p (by simp)) ha
      have trying : .trying o.attempt ∈ System.standings older ⟨c, l₁ ++ p :: l₂⟩ :=
        (Party.Has.own own).mem
      obtain ⟨op, sub₀, hm, ht⟩ := run₀.submission_of_standing trying
      have ticket : op.ticket = n := ht.trans hn
      obtain ⟨sub', hm'⟩ := run.submission_since hm
      cases run.sole hm' submitted ⟨op, sub', rfl, ticket⟩ ⟨_, sub, rfl, rfl⟩
      obtain ⟨tr, h⟩ := run₀.sends hm before trying hn
      obtain ⟨r, offer, -⟩ := Event.offer?_of_send ⟨c, l₁ ++ p :: l₂⟩ turn.phase ha h.work hn reply
      exact ⟨tr, h, congrArg Offer.pieces (Option.some.inj (ho.symm.trans offer))⟩

/-- A send ends as a success exactly when nothing of it is left, or the kernel took nothing. -/
theorem Sends.succeeds_iff (h : Sends n buffer t σ tr) (run : Run use t s)
    (hσ : σ ∈ s.standings t) (hn : σ.op.ticket = n) (begun : Begun n t) :
    (∃ op, .done op ∈ s.standings t ∧ op.ticket = n ∧ op.status = .success) ↔
      (accepted n t).length = buffer.length ∨ Declined n t := by
  have only : ∀ {op : Operation}, .done op ∈ s.standings t → op.ticket = n → σ = .done op :=
    fun ho ht => run.one_standing hσ ho (hn.trans ht.symm)
  have agrees := h.agrees
  rw [h.length]
  cases σ with
  | waiting op =>
      refine iff_of_false ?_ ?_
      · rintro ⟨op', ho, ht, -⟩
        cases only ho ht
      · rintro (all | zero)
        · exact agrees.2 begun all
        · exact agrees.1 zero
  | trying a =>
      refine iff_of_false ?_ ?_
      · rintro ⟨op', ho, ht, -⟩
        cases only ho ht
      · rintro (all | zero)
        · exact agrees.2.2 all
        · exact agrees.2.1 zero
  | done op =>
      refine Iff.trans ⟨?_, fun hs => ⟨op, hσ, hn, hs⟩⟩ (agrees begun)
      rintro ⟨op', ho, ht, hs⟩
      cases only ho ht
      exact hs

/-! ### All attempts of a send -/

/-- What all attempts of the send with ticket `n` come to, whoever makes them. -/
structure Resumed (n : Nat) (buffer : Buffer) (t : List Event) (s : System) : Prop where
  /-- The bytes that the kernel took are the first ones of the buffer, as many as the operation
  counts. -/
  taken : ∀ σ ∈ s.standings t, σ.op.ticket = n → ∃ tr, σ.op.work = .send tr ∧
    tr.buffer = buffer ∧ tr.transferred = (accepted n t).length ∧
    accepted n t = buffer.content.take tr.transferred
  /-- As long as a byte is left, there is a piece to offer. -/
  unsent : ∀ σ ∈ s.standings t, σ.op.ticket = n → ∀ tr, σ.op.work = .send tr →
    tr.cursor.isDone tr.buffer.windows = false → Span.unsent tr.buffer.windows tr.cursor ≠ []
  /-- A call offers at most `Span.limit` pieces, none of them empty, from the first byte on that the
  kernel has not taken. -/
  offered : ∀ {newer e older o}, t = newer ++ e :: older → e.offer? n = some o →
    o.pieces ≠ [] ∧ o.pieces.length ≤ Span.limit ∧ (∀ piece ∈ o.pieces, piece ≠ []) ∧
      o.pieces.flatten <+: buffer.content.drop (accepted n older).length
  /-- The cursor is moved past the end neither at first nor after a call. -/
  within : (({} : Cursor).move buffer.windows 0).2 = 0 ∧
    ∀ o ∈ offers n t, ∀ tr k, o.attempt.op.work = .send tr → o.reply = .ok k →
      (tr.cursor.move tr.buffer.windows k).2 = 0
  /-- An attempt makes at most one call more than the bytes that it brings. -/
  paced : ∀ {newer older}, t = newer ++ older →
    (offers n newer).length ≤ (accepted n newer).length + newer.countP (·.begins n) + 1
  /-- Once it was attempted, the send succeeds exactly when all of it was taken, or nothing more. -/
  success : Begun n t →
    ((∃ op, .done op ∈ s.standings t ∧ op.ticket = n ∧ op.status = .success) ↔
      (accepted n t).length = buffer.length ∨ Declined n t)

/-- However its attempts are interrupted, a send is carried on exactly where it stopped. -/
theorem Run.send_resumed (run : Run use t s) {flags : Int32} {address : Option Address}
    {sub : Submission} (submitted : .submission (.send n buffer flags address) sub ∈ s.parties)
    (honest : ∀ o ∈ offers n t, o.Honest) : Resumed n buffer t s := by
  have sends : ∀ {σ : Standing}, σ ∈ s.standings t → σ.op.ticket = n →
      ∃ tr, Sends n buffer t σ tr := run.sends submitted honest
  refine ⟨?_, ?_, ?_, ⟨Transfer.move_start buffer, ?_⟩, ?_, ?_⟩
  · intro σ hσ hn
    obtain ⟨tr, h⟩ := sends hσ hn
    exact ⟨tr, h.work, h.tracks.ofBuffer, h.length.symm, h.bytes⟩
  · intro σ hσ hn tr work more
    obtain ⟨tr', h⟩ := sends hσ hn
    cases h.work.symm.trans work
    rw [h.tracks.ofBuffer] at more ⊢
    exact h.tracks.unsent_ne_nil more
  · rintro newer e older o rfl ho
    obtain ⟨tr, h, pieces⟩ := run.sends_at submitted honest ho
    rw [pieces, h.length]
    exact h.tracks.offers h.agrees.2.2
  · intro o ho tr k work reply
    obtain ⟨e, he, offer⟩ := List.mem_filterMap.mp ho
    obtain ⟨newer, older, rfl⟩ := List.append_of_mem he
    obtain ⟨tr', h, pieces⟩ := run.sends_at submitted honest offer
    cases h.work.symm.trans work
    have := honest o ho
    rw [Offer.Honest, reply, pieces] at this
    rw [h.tracks.ofBuffer]
    exact (h.tracks.move this).1
  · rintro newer older rfl
    obtain ⟨σ, hσ, hn⟩ := run.stands submitted
    obtain ⟨tr, h⟩ := sends hσ hn
    exact Nat.le_trans (Nat.le_add_right _ _) (h.paced newer older rfl)
  · intro begun
    obtain ⟨σ, hσ, hn⟩ := run.stands submitted
    obtain ⟨tr, h⟩ := sends hσ hn
    exact h.succeeds_iff run hσ hn begun

/-- The kernel takes `k` bytes of every send. -/
def takes (k : Nat) : (request : Call) → Protocol.Answer request
  | .system (.send ..) => Except.ok k
  | request => notReady request

/-- A part of a vector, nothing, and all of another one. -/
def patchwork : Buffer :=
  .list [⟨[0, 1, 2, 0], 1, 2, by decide⟩, ⟨[], 0, 0, by decide⟩, .whole [3, 4, 5]]

/-- A send that has to wait after its first two bytes, and a dispatch that goes on with it. -/
def waitingSend : List Choice :=
  [.join (.submission true (.send 7 patchwork 0 none)), .act 0 notReady, .act 0 notReady,
    .act 0 notReady, .act 0 (takes 2), .act 0 notReady, .act 0 notReady,
    .join (.dispatch .writable), .act 1 notReady, .act 1 notReady, .act 1 notReady,
    .act 1 notReady, .act 1 notReady, .act 1 (takes 1), .act 1 (takes 2)]

theorem send_resumed_patchwork : ∃ t s, Run (fun _ => True) t s ∧
    (offers 7 t).map (·.pieces) = [[[4, 5]], [[3, 4, 5]], [[3, 4, 5]], [[1, 2], [3, 4, 5]]] ∧
    accepted 7 t = [1, 2, 3, 4, 5] ∧
    ∃ op, .done op ∈ s.standings t ∧ op.ticket = 7 ∧ op.status = .success := by
  have runs : (replay (fun _ => True) (ofSocket 10) waitingSend).isSome = true := by rfl
  have run := run_of_isSome (.socket 10) runs
  generalize hr : (replay (fun _ => True) (ofSocket 10) waitingSend).get runs = r at run
  have submitted : ∃ sub, .submission (.send 7 patchwork 0 none) sub ∈ r.2.parties := by
    rw [← hr]
    exact ⟨_, .head _⟩
  have honest : (offers 7 r.1).all (fun o => decide o.Honest) = true := by
    rw [← hr]
    rfl
  have begun : r.1.any (·.begins 7) = true := by
    rw [← hr]
    rfl
  obtain ⟨sub, submitted⟩ := submitted
  have resumed := run.send_resumed submitted
    fun o ho => of_decide_eq_true (List.all_eq_true.mp honest o ho)
  refine ⟨r.1, r.2, run, ?_, ?_, (resumed.success (List.any_eq_true.mp begun)).mpr (.inl ?_)⟩
  · rw [← hr]
    rfl
  · rw [← hr]
    rfl
  · rw [← hr]
    rfl

end Channel
end Proactor
