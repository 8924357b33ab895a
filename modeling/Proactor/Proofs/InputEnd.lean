import Proactor.Proofs.Interest
import Proactor.Proofs.Receiving
/-! # The end of a stream

A dispatch that is told that the peer sends no more stops the receives (`Event.endsInput`).  It
attempts those that wait once more; later ones are turned away, whatever is unread.

* **Enough room** (`Event.Suffices`).  The receives that waited then had room for what was unread.
  The dispatch empties the wire before anybody is turned away (`Covered`, `Run.covered`).
* **Reasons** (`Ended`).  Why a receive ended: it delivers, or the wire is exhausted, or the reactor
  refused the channel, or it came too late after such a stop. -/

namespace Proactor.Channel

/-- A dispatch stops the receives, since the peer sends no more. -/
def Event.endsInput : Event → Bool
  | acted s (.dispatch (.endInput _ _)) _ _ => !s.channel.receive.isStopped
  | _ => false

/-- The peer has shut down, and the receives that wait have room for all that is unread. -/
def Event.Suffices (e : Event) (w : Wire) : Prop :=
  w.shut = true ∧
    w.unread.length ≤ sumOf (·.capacity) e.system.channel.receive.waiting

/-- The reactor refuses the channel, and the operation that needed it is completed. -/
def Event.refuses (n : Nat) : Event → Bool
  | acted _ (.submission op _) (some ⟨.register _ _, answer⟩) _ =>
    match (answer : Except Errno Unit) with
    | .error _ => op.ticket == n
    | .ok _ => false
  | _ => false

/-- The dispatch is still to attempt receives that have room for `n` bytes. -/
def Dispatch.Covers (n : Nat) (k : Dispatch) : Prop :=
  (∀ op ∈ k.held, op.direction = .receive) ∧
    match k with
    | force ops _ _ | forced _ ops _ _ => n ≤ sumOf (·.capacity) ops
    | forcing a ops _ _ =>
      n ≤ a.op.capacity + sumOf (·.capacity) ops ∧ ∀ m, a.readable = some m → n ≤ m
    | _ => False

/-- Whoever is turned away loses nothing: nothing is unread any more, or a dispatch is still to
receive it. -/
inductive Covered (w : Wire) (s : System) : Prop
  | exhausted (h : w.Exhausted)
  | room {k : Dispatch} (hk : .dispatch k ∈ s.parties) (covers : k.Covers w.unread.length)
      (draining : s.channel.receive.draining = true) (shut : w.shut = true)

/-- Why a receive ended. -/
inductive Ended (wire : Nat → Wire) (t : List Event) (op : Operation) : Prop
  | delivers (h : op.Delivers)
  | exhausted (h : (wire t.length).Exhausted)
  | refused {e : Event} (he : e ∈ t) (h : e.refuses op.ticket = true)
  /-- Not all that was unread had room when the receives were stopped. -/
  | late {newer older : List Event} {stop : Event} (hs : op.status = .shutdown)
      (ht : t = newer ++ stop :: older) (ends : stop.endsInput = true)
      (short : ¬ stop.Suffices (wire older.length))

variable {c c' : Channel} {l₁ l₂ : List Party} {p p' : Party} {x : Option (Exchange Call)}
  {t newer older : List Event} {s s' : System} {op : Operation} {wire : Nat → Wire} {w w' : Wire}
  {e stop : Event} {k k' : Dispatch} {n m : Nat}

/-! ### Enough room -/

theorem Dispatch.Covers.mono (h : k.Covers n) (hm : m ≤ n) : k.Covers m := by
  refine ⟨h.1, ?_⟩
  have covers := h.2
  cases k with
  | force ops _ _ | forced o ops _ _ => exact Nat.le_trans hm covers
  | forcing a ops _ _ =>
      exact ⟨Nat.le_trans hm covers.1, fun b hb => Nat.le_trans hm (covers.2 b hb)⟩
  | _ => exact covers

theorem Dispatch.carries_of_covers (h : k.Covers n) : (Party.dispatch k).carries = true := by
  cases k <;> first | rfl | exact absurd h.2 id

theorem Dispatch.flush?_of_covers (h : k.Covers n) : (Party.dispatch k).flush? = none := by
  cases k <;> first | rfl | exact absurd h.2 id

/-- The dispatch takes what it has room for, or nothing is left. -/
theorem Dispatch.Step.covers (h : Dispatch.Step c k x c' k') (calm : k.calm = true)
    (covers : k.Covers w.unread.length) (answers : w.Answers x) (shut : w.shut = true) :
    (w.after x).unread = [] ∨ c' = c ∧ k'.Covers (w.after x).unread.length := by
  obtain ⟨receives, covers⟩ := covers
  cases h with
  | forceNone =>
      refine .inl ?_
      rw [Wire.after_of_taken rfl]
      exact List.eq_nil_of_length_eq_zero (Nat.le_zero.mp covers)
  | @forceNext op ops rest pending =>
      refine .inr ⟨rfl, ?_⟩
      rw [Attempt.start_of_receive (receives op (.head _)), Wire.after_of_taken rfl]
      exact ⟨receives, covers, nofun⟩
  | forced =>
      refine .inr ⟨rfl, ?_⟩
      rw [Wire.after_of_taken rfl]
      exact ⟨fun op ho => receives op (.tail _ ho), covers⟩
  | @forcing a ops rest pending reply =>
      obtain rfl : pending = none := pending_of_calm calm
      have hd := receives a.op (.head _)
      have reads := answers.reads hd
      have same := Operation.direction_eq_of_key (a.key_resume c.fd reply)
      refine .inr ⟨rfl, ?_⟩
      rw [ofForced_none]
      simp only [Wire.after]
      generalize (a.call c.fd).resume reply = r at reads same
      generalize w.taken _ = bytes at reads
      obtain ⟨room, asked⟩ := covers
      cases reads with
      | asked hr =>
          refine ⟨receives, room, fun m hm => ?_⟩
          cases hm
          exact Nat.le_max_left _ _
      | got hr _ _ _ _ =>
          refine ⟨fun o ho => ?_, ?_⟩
          · rcases List.mem_cons.mp ho with rfl | ho
            · exact same.trans hd
            · exact receives o (.tail _ ho)
          · have := asked _ hr
            simp only [List.length_drop, List.length_take]
            omega
      | notReady _ _ isOpen =>
          rw [shut] at isOpen
          cases isOpen
  | _ => exact absurd covers id

theorem Covered.join (h : Covered w s) (grows : (w.after none).Grows w') (p : Party) :
    Covered w' ⟨s.channel, s.parties ++ [p]⟩ := by
  cases h with
  | exhausted h => exact .exhausted (h.next grows)
  | @room k hk covers draining shut =>
      rw [Wire.after_of_taken rfl] at grows
      obtain rfl := grows.shut shut
      exact .room (List.mem_append_left _ hk) covers draining shut

theorem Covered.act (h : Covered w ⟨c, l₁ ++ p :: l₂⟩) (run : Run Party.Calm t ⟨c, l₁ ++ p :: l₂⟩)
    (step : p.Step c x c' p') (answers : w.Answers x) (grows : (w.after x).Grows w') :
    Covered w' ⟨c', l₁ ++ p' :: l₂⟩ := by
  cases h with
  | exhausted h => exact .exhausted (h.next grows)
  | @room k hk covers draining shut =>
      obtain rfl := grows.shut (w := w.after x) shut
      rcases mem_middle.mp hk with rfl | hk
      · cases step with
        | dispatch h =>
            rcases h.covers (run.calm (.dispatch k) (by simp)) covers answers shut with
              empty | ⟨rfl, covers⟩
            · exact .exhausted ⟨empty, shut⟩
            · exact .room (by simp) covers draining shut
      · -- Whoever else takes a step carries nothing, so the queue goes on draining.
        have alone : p.carries = false := by
          by_contra carries
          have := run.through.alone (by simpa using carries) _ hk
          rw [Dispatch.carries_of_covers covers] at this
          cases this
        have intact := run.orderly.next step
        exact .room (mem_middle.mpr (.inr hk)) (covers.mono (w.length_after_le x))
          (step.draining intact alone (d := .receive) draining) shut

/-- Where the receives are stopped with room for all that is unread, they are to receive it. -/
theorem Covered.of_endsInput (run : Run Party.Calm t ⟨c, l₁ ++ p :: l₂⟩) (step : p.Step c x c' p')
    (ends : (Event.acted ⟨c, l₁ ++ p :: l₂⟩ p x p').endsInput = true)
    (enough : (Event.acted ⟨c, l₁ ++ p :: l₂⟩ p x p').Suffices w)
    (grows : (w.after x).Grows w') : Covered w' ⟨c', l₁ ++ p' :: l₂⟩ := by
  obtain ⟨shut, room⟩ := enough
  replace room : w.unread.length ≤ sumOf (·.capacity) c.receive.waiting := room
  obtain rfl := grows.shut (w := w.after x) shut
  have intact := run.orderly.next step
  unfold Event.endsInput at ends
  split at ends
  · next h =>
    cases h
    cases step with
    | dispatch h =>
        cases h with
        | endInputBroken _ => exact absurd rfl (intact.1 _)
        | inputEnded _ =>
            rw [Wire.after_of_taken rfl]
            by_cases hw : c.receive.waiting = []
            · refine .exhausted ⟨List.eq_nil_of_length_eq_zero (Nat.le_zero.mp ?_), shut⟩
              rw [hw] at room
              exact room
            · refine .room (mem_middle.mpr (.inl rfl)) ?_ ?_ shut
              · exact ⟨(run.orderly.valid .receive).waiting, room⟩
              · simp [withQueue, Queue.halted, hw]
  · cases ends

theorem Run.covered (run : Run Party.Calm (newer ++ stop :: older) s)
    (fed : Fed wire (newer ++ stop :: older)) (ends : stop.endsInput = true)
    (enough : stop.Suffices (wire older.length)) :
    Covered (wire (newer ++ stop :: older).length) s := by
  revert fed
  refine run.lasts_after
    (P := fun t s => Fed wire t → Covered (wire t.length) s) ?_ ?_ ?_
  · intro t s p run begins before fed
    exact (before fed.1).join fed.2.2 p
  · intro t c l₁ l₂ p x turn run yields before fed
    exact (before fed.1).act run (Party.step_of_yields yields) fed.2.1 fed.2.2
  · intro s' run' fed
    cases stop with
    | joined s₀ p => cases ends
    | acted s₀ p x p' =>
        cases run' with
        | act run yields =>
            exact .of_endsInput run (Party.step_of_yields yields) ends enough fed.2.2

/-! ### Reasons -/

/-- Where the receives are out of use, a dispatch has stopped them at the end of the input. -/
theorem Run.input_ended (run : Run Party.Calm t s) (stopped : s.channel.receive.isStopped = true) :
    ∃ newer stop older, t = newer ++ stop :: older ∧ stop.endsInput = true := by
  induction run with
  | @start s first =>
      have fresh : s.channel.receive = {} := first.queue .receive
      rw [fresh] at stopped
      cases stopped
  | @join t s run p begins allowed unused ih =>
      obtain ⟨newer, stop, older, rfl, ends⟩ := ih stopped
      exact ⟨_ :: newer, stop, older, rfl, ends⟩
  | @act t c l₁ l₂ p run x turn yields ih =>
      have passed : (turn.state.queue .receive).isStopped = (c.queue .receive).isStopped →
          ∃ newer stop older, Event.acted ⟨c, l₁ ++ p :: l₂⟩ p x turn.phase :: t =
            newer ++ stop :: older ∧ stop.endsInput = true := by
        intro same
        obtain ⟨newer, stop, older, rfl, ends⟩ := ih (same.symm.trans stopped)
        exact ⟨_ :: newer, stop, older, rfl, ends⟩
      cases before : c.receive.isStopped with
      | true => exact passed (stopped.trans before.symm)
      | false =>
          cases run.retunes (Party.step_of_yields yields) with
          | silent _ same | refused _ same | again _ _ same => exact passed (same.stopped _)
          | joined _ _ _ same | narrowed _ _ _ _ _ _ _ same => exact passed (same _)
          | inputEnded _ _ _ _ hp =>
              obtain ⟨rest, pending, rfl⟩ := hp
              exact ⟨[], _, t, rfl, by simp [Event.endsInput, before]⟩
          | left _ _ _ _ hp =>
              have calm := run.calm p (by simp)
              obtain ⟨pending, rfl⟩ | ⟨k, rfl⟩ := hp <;> cases calm

theorem Ended.next (h : Ended wire t op) {e : Event} (fed : Fed wire (e :: t)) :
    Ended wire (e :: t) op := by
  cases h with
  | delivers h => exact .delivers h
  | exhausted h => exact .exhausted (h.next fed.2.2)
  | refused he h => exact .refused (.tail _ he) h
  | @late newer older stop hs ht ends short =>
      have split : e :: t = (e :: newer) ++ stop :: older := by rw [ht, List.cons_append]
      exact .late hs split ends short

/-- A receive that comes to a stopped queue, where nothing is to be received before it. -/
theorem Ended.of_stopped (run : Run Party.Calm t s) (fed : Fed wire t)
    (stopped : s.channel.receive.isStopped = true) (hs : op.status = .shutdown)
    (alone : ∀ k, .dispatch k ∈ s.parties → k.Covers (wire t.length).unread.length →
      s.channel.receive.draining = true → (wire t.length).shut = true → False) :
    Ended wire t op := by
  obtain ⟨newer, stop, older, rfl, ends⟩ := run.input_ended stopped
  by_cases enough : stop.Suffices (wire older.length)
  · cases run.covered fed ends enough with
    | exhausted h => exact .exhausted h
    | room hk covers draining shut => exact (alone _ hk covers draining shut).elim
  · exact .late hs rfl ends enough

/-- What a party holds, without having it checked out, comes from a stopped queue. -/
theorem Run.stopped_of_held (run : Run Party.ThroughSocket t s) (hp : p ∈ s.parties)
    (held : op ∈ p.held) (out : p.out op.direction = false) :
    (s.channel.queue op.direction).isStopped = true := by
  have stands : tickets op.direction p.held ≠ [] :=
    List.ne_nil_of_mem (List.mem_filterMap.mpr ⟨op, held, Operation.ticketIn_self rfl⟩)
  rcases run.carried p hp op.direction stands with isOut | draining
  · rw [out] at isOut
    cases isOut
  · exact (run.orderly.valid op.direction).drains draining

theorem Submission.ready_of_done {o : Operation} {g early : Bool} {r : Progress}
    (h : (Party.submission o ⟨g, .ofProgress early r⟩).done? = some op) : r = .ready op := by
  cases r with
  | calling a => cases h
  | ready op' =>
      cases h
      rfl
  | notReady op' => cases early <;> cases h

theorem Dispatch.forced_of_done {ops : List Operation} {rest : Option (List Stage)} {r : Progress}
    (h : (Party.dispatch (ofForced ops rest none r)).done? = some op) :
    r = .ready op ∨ ∃ o, r = .notReady o ∧ op = o.withStatus .shutdown := by
  rw [ofForced_none] at h
  cases r with
  | calling a => cases h
  | ready o =>
      cases h
      exact .inl rfl
  | notReady o =>
      cases h
      exact .inr ⟨o, rfl, rfl⟩

theorem Dispatch.ready_of_done {sw : Sweep} (hp : sw.pending = none) {r : Progress}
    (h : (Party.dispatch (ofSwept sw r)).done? = some op) : r = .ready op := by
  rw [ofSwept_none hp] at h
  cases r <;> cases h
  rfl

theorem start_ne_ready {o : Operation} (h : op.direction = .receive) :
    Attempt.start o ≠ .ready op := by
  intro ready
  have same := Operation.direction_eq_of_key (Attempt.key_start o)
  rw [ready] at same
  rw [Attempt.start_of_receive (same.symm.trans h)] at ready
  cases ready

section creation
variable (run : Run Party.Calm t ⟨c, l₁ ++ p :: l₂⟩) (step : p.Step c x c' p')
  (fed : Fed wire (.acted ⟨c, l₁ ++ p :: l₂⟩ p x p' :: t))
  (done : p'.done? = some op) (hd : op.direction = .receive)
include run step fed done hd

/-- Whoever has done a receive has a reason for it. -/
theorem Ended.of_done : Ended wire (.acted ⟨c, l₁ ++ p :: l₂⟩ p x p' :: t) op := by
  have calm := run.calm p (by simp)
  have roomy : ∀ σ ∈ p.standings, σ.roomy = true := fun σ hσ => run.roomy (Party.Has.mem (.own hσ))
  have ready : ∀ {a : Attempt} {reply : (a.call c.fd).request.Reply},
      x = some ⟨.system (a.call c.fd).request, reply⟩ → a.roomy = true →
        (a.call c.fd).resume reply = .ready op →
          Ended wire (.acted ⟨c, l₁ ++ p :: l₂⟩ p x p' :: t) op := by
    intro a reply hx room hr
    subst hx
    have hda : a.op.direction = .receive := by
      rw [← Operation.direction_eq_of_key (a.key_resume c.fd reply), hr]
      exact hd
    have reads := Wire.Answers.reads hda fed.2.1
    rw [hr] at reads
    rcases reads.delivers_or hda room with delivers | exhausted
    · exact .delivers delivers
    · exact .exhausted (exhausted.next fed.2.2)
  cases step with
  | submission h =>
      cases h with
      | enterClosed _ ho => exact absurd run.stays_open (by rw [ho]; nofun)
      | attachFailed _ =>
          cases done
          refine .refused (.head _) ?_
          have intact := run.orderly.intact _ (mem_middle.mpr (.inl rfl))
          exact beq_iff_eq.mpr (Operation.ticket_eq_of_key (intact.2 _ rfl)).symm
      | offerIdle _ _ | enlistHinted _ _ =>
          exact absurd (Submission.ready_of_done done) (start_ne_ready hd)
      | offerStopped stopped drained | enlistStopped stopped drained =>
          cases done
          rw [← Operation.direction_withStatus _ .shutdown, hd] at stopped drained
          refine (Ended.of_stopped run fed.1 stopped rfl fun _ _ _ draining _ => ?_).next fed
          rw [show c.receive.draining = false from drained] at draining
          cases draining
      | attempted reply =>
          exact ready rfl (roomy _ (.head _)) (Submission.ready_of_done done)
      | attachJoined _ | attachDone _ => cases ‹Bool› <;> cases done
      | _ => cases done
  | attachment h => cases done
  | @dispatch k _ _ _ h =>
      have pending : k.pending = none := Dispatch.pending_of_calm calm
      cases h with
      | enterReady _ _ _ | queried _ =>
          rw [Dispatch.done?_route] at done
          cases done
      | forceNext =>
          cases pending
          rcases Dispatch.forced_of_done done with hr | ⟨o, hr, -⟩
          · exact absurd hr (start_ne_ready hd)
          · exact absurd hr (Attempt.start_ne_notReady _ _)
      | @forcing a ops rest _ reply =>
          cases pending
          rcases Dispatch.forced_of_done done with hr | ⟨o, hr, rfl⟩
          · exact ready rfl (roomy _ (.head _)) hr
          · have same := Operation.direction_eq_of_key (a.key_resume c.fd reply)
            rw [hr] at same
            have hda : a.op.direction = .receive := same.symm.trans hd
            have stopped := run.through.stopped_of_held (mem_middle.mpr (.inl rfl))
              (List.Mem.head _ : a.op ∈ (Party.dispatch (.forcing a ops rest none)).held) rfl
            rw [hda] at stopped
            have reads := Wire.Answers.reads hda fed.2.1
            rw [hr] at reads
            generalize Wire.taken _ _ = bytes at reads
            cases reads with
            | notReady _ _ isOpen =>
                refine (Ended.of_stopped run fed.1 stopped rfl fun _ _ _ _ shut => ?_).next fed
                rw [shut] at isOpen
                cases isOpen
      | checkOutReady _ _ _ =>
          exact absurd (Dispatch.ready_of_done pending done) (start_ne_ready hd)
      | attempted reply =>
          exact ready rfl (roomy _ (.head _)) (Dispatch.ready_of_done pending done)
      | _ => cases done
  | closing h => cases calm

end creation

theorem Run.ended (run : Run Party.Calm t s) (fed : Fed wire t) :
    ∀ p ∈ s.parties, ∀ op, p.done? = some op → op.direction = .receive → Ended wire t op := by
  induction run with
  | start first => simp [first.parties]
  | join run begins allowed unused ih =>
      refine forall_joined (fun p hp op done hd => (ih fed.1 p hp op done hd).next fed) ?_
      intro op done
      cases begins <;> cases done
  | act run yields ih =>
      exact forall_replaced (fun p hp op done hd => (ih fed.1 p hp op done hd).next fed)
        fun op done hd => .of_done run (Party.step_of_yields yields) fed done hd

/-- When a receive is scheduled, there is a reason for it, and nobody else has anything in his
hands. -/
theorem Run.ended_of_scheduled (run : Run Party.Calm t ⟨c, l₁ ++ p :: l₂⟩)
    (step : p.Step c x c' p') (inTurn : InTurn .receive t) (fed : Fed wire t)
    (hx : handedOver x = some op) (hd : op.direction = .receive) :
    Ended wire t op ∧ (¬ op.Delivers → System.hands ⟨c, l₁ ++ p :: l₂⟩ = []) := by
  have here : p ∈ l₁ ++ p :: l₂ := mem_middle.mpr (.inl rfl)
  have hands : ∀ {o : Operation}, p.Serves o → o.direction = .receive → p.hand = [] →
      System.hands ⟨c, l₁ ++ p :: l₂⟩ = [] := by
    intro o serves ho hand
    obtain ⟨left, right⟩ := run.hands_of_serves inTurn serves ho
    simp only [System.hands, List.flatMap_append, List.flatMap_cons, left, right, hand,
      List.append_nil]
  rcases step.serves hx with done | ⟨o, f, rfl, flush, held⟩
  · refine ⟨run.ended fed p here op done hd, fun fails => ?_⟩
    refine hands (Party.serves_of_done done) hd ?_
    rw [Party.hand, done]
    exact Operation.received_of_not_delivers fails
  · obtain ⟨carries, same, done, out⟩ := Party.carries_of_flush flush
    rw [← same] at held
    refine ⟨?_, fun _ => hands (.carrier carries held) hd (by rw [Party.hand, done])⟩
    have stopped := run.through.stopped_of_held here held (out _)
    rw [show o.direction = .receive from hd] at stopped
    refine .of_stopped run fed stopped rfl fun k hk covers _ _ => ?_
    rcases mem_middle.mp hk with rfl | hk
    · rw [Dispatch.flush?_of_covers covers] at flush
      cases flush
    · have alone := run.through.alone carries _ hk
      rw [Dispatch.carries_of_covers covers] at alone
      cases alone

/-! ### The whole stream -/

/-- Once the peer has shut down, it has sent everything. -/
theorem Fed.sent_since (fed : Fed wire (newer ++ older)) (shut : (wire older.length).shut = true) :
    (wire (newer ++ older).length).shut = true ∧
      (wire (newer ++ older).length).sent = (wire older.length).sent := by
  induction newer with
  | nil => exact ⟨shut, rfl⟩
  | cons e newer ih =>
      obtain ⟨still, same⟩ := ih fed.1
      have next : wire ((e :: newer) ++ older).length =
          (wire (newer ++ older).length).after e.exchange? := fed.2.2.shut still
      rw [next]
      exact ⟨still, same⟩

/-- The answers while `bytes` can be received, `unread` in all. -/
def streams (unread : Int) (bytes : Bytes) : (request : Call) → Protocol.Answer request
  | .system (.available _) => Except.ok unread
  | .system (.receive ..) => Except.ok (⟨bytes, 0, default⟩ : Received)
  | request => notReady request

/-- A receive waits.  The peer sends eight bytes and shuts down, and both is reported at once.  The
receive gets what has room in its buffer.  Then another receive is submitted. -/
def receivesAroundShutdown (buffer bytes : Bytes) : List Choice :=
  [.join (.submission true (.receive 7 (.single (.whole buffer)) 0 none)), .act 0 notReady,
    .act 0 notReady, .act 0 notReady, .act 0 (streams 0 []), .act 0 notReady, .act 0 notReady,
    .join (.dispatch (.readable ||| .peerClosed)), .act 1 notReady, .act 1 notReady,
    .act 1 notReady, .act 1 (streams 8 []), .act 1 (streams 8 bytes), .act 1 notReady,
    .act 1 notReady, .act 1 notReady, .act 1 notReady, .act 1 notReady,
    .join (.submission true (.receive 8 (.single (.whole buffer)) 0 none)), .act 2 notReady,
    .act 2 notReady, .act 2 notReady]

/-- The wire meanwhile; `left` is what the first receive leaves unread. -/
def wireAroundShutdown (left : Bytes) (n : Nat) : Wire :=
  if n < 7 then ⟨[], [], false⟩
  else ⟨[1, 2, 3, 4, 5, 6, 7, 8], if n < 13 then [1, 2, 3, 4, 5, 6, 7, 8] else left, true⟩

end Proactor.Channel
