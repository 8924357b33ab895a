import Proactor.Proofs.Footprint
import Proactor.Proofs.Sending
import Proactor.Proofs.Verdict
/-! # What becomes of a buffer

What the owner of an operation can say of its buffer when the operation is handed back, on a kernel
that keeps its word.

* **Shapes** (`Operation.shape`).  The kind of an operation, the buffer of a send, and the bounds of
  the windows of a receive.  They last (`Run.shape`).
* **Sound answers** (`Sound`).  A failure is one that can be recognised, and a send takes no more
  than it is offered, but something.
* **Whole sends** (`Run.sent_whole`).  A send that succeeds was attempted, and has sent all of its
  buffer. -/

namespace Proactor

/-! ### Shapes -/

/-- What writing into a buffer leaves as it is: whether it is one window, and all bounds. -/
def Buffer.frame (b : Buffer) : Bool × List (Nat × Nat × Nat) :=
  (b.isSingle, b.windows.map Window.bounds)

theorem Span.bounds_scatter (windows : List Window) (spans : List Span) (bytes : Bytes) :
    (scatter windows spans bytes).map Window.bounds = windows.map Window.bounds := by
  induction spans generalizing windows bytes with
  | nil => rfl
  | cons s rest ih =>
      rw [scatter, ih]
      refine List.ext_getElem? fun i => ?_
      rw [List.getElem?_map, List.getElem?_map, List.getElem?_modify]
      cases windows[i]? with
      | none => rfl
      | some w =>
          simp only [Option.map_some]
          split <;> simp [Window.bounds, Window.write]

theorem Buffer.frame_scatter (b : Buffer) (spans : List Span) (bytes : Bytes) :
    (b.scatter spans bytes).frame = b.frame := by
  rw [frame, frame, isSingle_scatter, windows_scatter, Span.bounds_scatter]

/-- A buffer that began as all of one vector is all of one vector. -/
theorem Buffer.data_joined {b : Buffer} {data : Bytes}
    (h : b.frame = (single (.whole data)).frame) : b.joined.data = b.content := by
  cases b with
  | list windows => cases congrArg Prod.fst h
  | single w =>
      have bounds : w.bounds = (Window.whole data).bounds := by
        simpa [frame, windows] using congrArg Prod.snd h
      simp only [Window.bounds, Window.whole, Prod.mk.injEq] at bounds
      obtain ⟨length, offset, count⟩ := bounds
      have all : w.content = w.data := by
        rw [Window.content, offset, List.drop_zero, List.take_of_length_le (by omega)]
      simp [joined, content, windows, all]

/-- What stays of an operation when its work is carried on. -/
inductive Operation.Shape where
  | accept
  | connect
  | receive (frame : Bool × List (Nat × Nat × Nat))
  | send (buffer : Buffer)

def Operation.shape (op : Operation) : Shape :=
  match op.work with
  | .accept .. => .accept
  | .connect .. => .connect
  | .receive t => .receive t.buffer.frame
  | .send t => .send t.buffer

namespace Attempt

theorem shape_start (op : Operation) : (start op).op.shape = op.shape := by
  rcases start_cases op with ⟨-, h⟩ | ⟨-, h⟩ <;> rw [h] <;> rfl

/-- An attempt leaves the shape of its operation alone. -/
theorem shape_resume (a : Attempt) (fd : Descriptor) (r : (a.call fd).request.Reply) :
    ((a.call fd).resume r).op.shape = a.op.shape := by
  obtain ⟨⟨ticket, status, work⟩, readable⟩ := a
  cases work with
  | accept address n =>
      cases r with
      | ok got => rfl
      | error raw =>
          unfold call afterAccept
          dsimp only
          split <;> rfl
  | connect address started =>
      cases r with
      | ok got => rfl
      | error raw =>
          unfold call afterConnect
          dsimp only
          split_ifs <;> rfl
  | receive t =>
      cases readable with
      | none => cases r <;> rfl
      | some bytes =>
          cases r with
          | ok got => exact congrArg Operation.Shape.receive (t.buffer.frame_scatter _ got.bytes)
          | error raw =>
              unfold call afterReceive
              dsimp only
              split <;> rfl
  | send t =>
      cases r with
      | ok k =>
          cases k with
          | zero => rfl
          | succ k =>
              -- what is sent next is a part of the same attempt
              have next : (call ⟨⟨ticket, status, .send t⟩, readable⟩ fd).resume (.ok (k + 1)) =
                  start ⟨ticket, status, .send { t with
                    transferred := t.transferred + (k + 1)
                    cursor := t.cursor.advance t.buffer.windows (k + 1) }⟩ := rfl
              exact (congrArg (·.op.shape) next).trans (shape_start _)
      | error raw =>
          unfold call afterSend
          dsimp only
          split <;> rfl

end Attempt

theorem Became.shape {r : Progress} {σ : Standing} (h : Became r σ) :
    σ.op.shape = r.op.shape := by
  cases h with
  | itself _ => rw [Standing.op_ofProgress]
  | instead _ _ => rfl
  | givenUp _ => rfl

namespace Channel

variable {use : Party → Prop} {t : List Event} {s : System} {n : Nat} {op op₀ : Operation}
  {buffer : Buffer} {σ σ' : Standing}

theorem Onward.shape {c : Channel} {p : Party} {x : Option (Exchange Call)}
    (h : Onward c p x σ σ') : σ'.op.shape = σ.op.shape := by
  cases h <;> rfl

/-- Whatever becomes of an operation, it keeps its shape. -/
theorem Run.shape (run : Run use t s) {sub : Submission}
    (submitted : .submission op₀ sub ∈ s.parties) (h : σ ∈ s.standings t)
    (hn : σ.op.ticket = op₀.ticket) : σ.op.shape = op₀.shape := by
  refine run.standing_lasts (P := fun _ σ => σ.op.shape = op₀.shape) ?_ ?_ ?_ submitted h hn
  · exact fun _ _ => rfl
  · exact id
  · intro t c l₁ l₂ p x turn σ' _ _ _ _ fate
    cases fate with
    | wentOn _ before reply _ became =>
        exact became.shape.trans ((Attempt.shape_resume _ c.fd reply).trans before)
    | began _ _ before became => exact became.shape.trans ((Attempt.shape_start _).trans before)
    | untried _ before onward => exact onward.shape.trans before

/-! ### Sound answers -/

/-- A call that fails has the number of an error that can be recognised.  One that succeeds takes no
more than it is offered, and something if it is offered anything. -/
def SoundSend (pieces : List Bytes) : Except Int Nat → Prop
  | .ok k => k ≤ pieces.flatten.length ∧ (k = 0 → pieces.flatten = [])
  | .error raw => Errno.Meaningful raw

/-- An answer of a kernel that keeps its word. -/
def Sound : Exchange Call → Prop
  | ⟨.system (.send _ pieces _ _), answer⟩ => SoundSend pieces answer
  | ⟨.system _, .error raw⟩ => Errno.Meaningful raw
  | ⟨.register _ _, .error e⟩ => e ≠ .unknown
  | _ => True

/-- Whatever was answered in this event was answered by a kernel that keeps its word. -/
def Event.Sound (e : Event) : Prop := ∀ x, e.exchange? = some x → Channel.Sound x

/-- Nothing is asked when a call begins. -/
theorem Event.sound_joined (s : System) (p : Party) : (joined s p).Sound := by
  intro x hx
  cases hx

/-- The bytes that an event offers of a send, and what the kernel made of them, were exchanged. -/
theorem Event.exchange_of_offer {e : Event} {o : Offer} (h : e.offer? n = some o) :
    ∃ fd address flags,
      e.exchange? = some ⟨.system (.send fd o.pieces address flags), o.reply⟩ := by
  unfold offer? at h
  split at h
  · split at h
    · split at h
      · cases h
        exact ⟨_, _, _, rfl⟩
      · cases h
    · cases h
  · cases h

theorem Event.Sound.honest {e : Event} {o : Offer} (h : e.Sound) (ho : e.offer? n = some o) :
    o.Honest ∧ (o.reply = .ok 0 → o.pieces.flatten = []) := by
  obtain ⟨fd, address, flags, hx⟩ := Event.exchange_of_offer ho
  obtain ⟨a, pieces, reply⟩ := o
  have sound := h _ hx
  cases reply with
  | error raw => exact ⟨sound, nofun⟩
  | ok k =>
      refine ⟨sound.1, fun hk => sound.2 ?_⟩
      cases hk
      rfl

/-! ### Whole sends -/

/-- An operation is in an attempt, or has succeeded, only if an attempt of it has begun. -/
def Attempted (n : Nat) (t : List Event) : Standing → Prop
  | .waiting _ => True
  | .trying _ => Begun n t
  | .done op => op.status = .success → Begun n t

theorem Attempted.of_begun (h : Begun n t) : Attempted n t σ := by
  cases σ with
  | waiting _ => trivial
  | trying _ => exact h
  | done _ => exact fun _ => h

theorem Attempted.later {e : Event} (h : Attempted n t σ) : Attempted n (e :: t) σ := by
  have later : Begun n t → Begun n (e :: t) := fun begun => begun_cons.mpr (.inr begun)
  cases σ with
  | waiting _ => trivial
  | trying _ => exact later h
  | done _ => exact fun hs => later (h hs)

/-- A refusal of a reactor that keeps its word is no success. -/
theorem Attempted.onward {c : Channel} {p p' : Party} {x : Option (Exchange Call)}
    (h : Attempted n t σ) (onward : Onward c p x σ σ') (sound : (Event.acted s p x p').Sound) :
    Attempted n (.acted s p x p' :: t) σ' := by
  cases onward with
  | same _ => exact h.later
  | stopped _ => exact fun hs => by cases hs
  | refused _ _ hx =>
      intro hs
      have unknown := (Status.ofError_eq_success_iff _).mp hs
      exact absurd unknown (sound _ hx)

/-- Nothing succeeds without an attempt. -/
theorem Run.attempted (run : Run use t s) (sound : ∀ e ∈ t, e.Sound) {sub : Submission}
    (submitted : .submission op₀ sub ∈ s.parties) (h : σ ∈ s.standings t)
    (hn : σ.op.ticket = op₀.ticket) : Attempted op₀.ticket t σ := by
  refine run.standing_lasts (P := fun t σ => (∀ e ∈ t, e.Sound) → Attempted op₀.ticket t σ)
    ?_ ?_ ?_ submitted h hn sound
  · exact fun _ _ _ => trivial
  · exact fun before sound => (before fun e he => sound e (.tail _ he)).later
  · intro t c l₁ l₂ p x turn σ' _ _ _ hn fate sound
    have earlier : ∀ e ∈ t, e.Sound := fun e he => sound e (.tail _ he)
    cases fate with
    | wentOn _ before _ _ _ => exact .of_begun (begun_cons.mpr (.inr (before earlier)))
    | began hb _ _ became =>
        have key := became.key.trans (Attempt.key_start _)
        have ticket := (Operation.ticket_eq_of_key key).symm.trans hn
        refine .of_begun (begun_cons.mpr (.inl ?_))
        simp [Event.begins, hb, ticket]
    | untried _ before onward => exact (before earlier).onward onward (sound _ (.head _))

/-- A kernel that keeps its word never declines what it is offered of a send. -/
theorem Run.never_declines (run : Run use t s) (sound : ∀ e ∈ t, e.Sound) {flags : Int32}
    {address : Option Address} {sub : Submission}
    (submitted : .submission (.send n buffer flags address) sub ∈ s.parties)
    (honest : ∀ o ∈ offers n t, o.Honest) : ¬ Declined n t := by
  rintro ⟨o, ho, zero⟩
  obtain ⟨e, he, offer⟩ := List.mem_filterMap.mp ho
  obtain ⟨newer, older, rfl⟩ := List.append_of_mem he
  obtain ⟨tr, sends, pieces⟩ := run.sends_at submitted honest offer
  obtain ⟨some, -, nonempty, -⟩ := sends.tracks.offers sends.agrees.2.2
  have nothing : tr.pieces.flatten = [] := pieces ▸ ((sound e he).honest offer).2 zero
  obtain ⟨piece, hp⟩ := List.exists_mem_of_ne_nil _ some
  exact nonempty piece hp (List.flatten_eq_nil_iff.mp nothing piece hp)

/-- A send that has succeeded has sent all of its buffer. -/
theorem Run.sent_whole (run : Run use t s) (sound : ∀ e ∈ t, e.Sound) {flags : Int32}
    {address : Option Address} {sub : Submission}
    (submitted : .submission (.send n buffer flags address) sub ∈ s.parties)
    (h : op ∈ scheduled t) (hn : op.ticket = n) (hs : op.status = .success) :
    ∃ tr, op.work = .send tr ∧ tr.buffer = buffer ∧ tr.transferred = buffer.length := by
  have done : .done op ∈ s.standings t := mem_standings_of_scheduled h
  have honest : ∀ o ∈ offers n t, o.Honest := by
    intro o ho
    obtain ⟨e, he, offer⟩ := List.mem_filterMap.mp ho
    exact ((sound e he).honest offer).1
  obtain ⟨tr, sends⟩ := run.sends submitted honest done hn
  have begun : Begun n t := run.attempted sound submitted done hn hs
  have all := ((sends.agrees begun).mp hs).resolve_right
    (run.never_declines sound submitted honest)
  exact ⟨tr, sends.work, sends.tracks.ofBuffer, all⟩

end Channel
end Proactor
