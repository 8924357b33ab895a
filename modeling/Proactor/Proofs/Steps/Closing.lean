import Proactor.Proofs.Interleaving
import Proactor.Proofs.Queue
/-! # The steps of closes

What the next step of a close can do (`Closing.Step`), and the parts of it that a dispatch shares:
completing what was handed out (`Flush.Step`), leaving the reactor (`Left`), and stopping every
queue, which succeeds as long as no head is checked out (`stopAll_of_whole`). -/

namespace Proactor.Channel

/-! ### Completing what was handed out -/

/-- What the next step of a flush can do. -/
inductive Flush.Step (c : Channel) : Flush → Option (Exchange Call) → Channel → Flush → Prop
  | emptied : Step c (.complete []) none c .settle
  | completed {op : Operation} {rest : List Operation} :
      Step c (.complete (op :: rest)) (some ⟨c.complete (op.withStatus .shutdown), ()⟩) c
        (.complete rest)
  | settled (h : c.settle.2 = []) : Step c .settle none c.settle.1 .ended
  | parked (h : c.settle.2 ≠ []) : Step c .settle none c.settle.1 (.complete c.settle.2)

theorem Flush.step_of_yields {c : Channel} {f : Flush} {x : Option (Exchange Call)}
    {turn : Turn Channel Flush} (h : (f.next c).Yields c x turn) :
    Step c f x turn.state turn.phase := by
  cases f with
  | complete ops =>
      cases ops with
      | nil =>
          cases h
          exact .emptied
      | cons op rest =>
          cases h with
          | ask _ _ answer => exact .completed
  | settle =>
      cases h
      dsimp only
      split
      · next he => exact .settled (List.isEmpty_iff.mp he)
      · next he => exact .parked fun h => he (List.isEmpty_iff.mpr h)
  | ended => cases h

/-! ### Leaving the reactor -/

/-- What leaving the reactor can do: the channel may have left it before. -/
inductive Left (c : Channel) : Option (Exchange Call) → Channel → Prop
  | before (h : c.registered.isEmpty = true) : Left c none c
  | now (h : c.registered.isEmpty = false) (reply : Except Errno Unit) :
      Left c (some ⟨.unregister c.fd .none, reply⟩) { c with registered := .none }

theorem left_of_yields {φ : Type} {c now : Channel} {phase : φ} {lines : List Log.Entry}
    {x : Option (Exchange Call)} {turn : Turn Channel φ} (hc : c.afterCall now = c)
    (h : (c.leave phase lines).Yields now x turn) :
    Left c x turn.state ∧ turn.phase = phase := by
  unfold leave at h
  split at h
  · next hr =>
    cases h
    exact ⟨.before hr, rfl⟩
  · next hr =>
    cases h with
    | ask _ _ reply =>
        refine ⟨?_, rfl⟩
        simp only [hc]
        exact .now (by simpa using hr) reply

/-! ### Stopping every queue -/

/-- The channel after every queue was stopped. -/
def halted (c : Channel) : Channel :=
  { c with receive := c.receive.halted, send := c.send.halted, connection := c.connection.halted }

/-- The operations that wait in the queues, in the order in which they are handed out. -/
def waiting (c : Channel) : List Operation :=
  c.receive.waiting ++ c.send.waiting ++ c.connection.waiting

/-- No head is checked out. -/
def Whole (c : Channel) : Prop := ∀ d, (c.queue d).Whole

@[simp] theorem queue_halted (c : Channel) (d : Direction) :
    c.halted.queue d = (c.queue d).halted := by cases d <;> rfl

theorem stop_of_whole {c : Channel} {d : Direction} (h : (c.queue d).Whole) :
    c.stop d = (c.withQueue d (c.queue d).halted, .ok (c.queue d).waiting) := by
  simp only [stop, Queue.stop_of_whole h]

theorem stop_of_not_whole {c : Channel} {d : Direction} (h : ¬ (c.queue d).Whole) :
    ∃ c', c.stop d = (c', .error .stopCheckedOut) := by
  obtain ⟨q, hq⟩ := Queue.stop_of_not_whole h
  exact ⟨c.withQueue d q, by simp only [stop, hq]⟩

theorem stopAll_of_whole {c : Channel} (h : c.Whole) : c.stopAll = (c.halted, .ok c.waiting) := by
  have hr := stop_of_whole (h .receive)
  have hs := stop_of_whole (c := c.withQueue .receive c.receive.halted) (d := .send) (h .send)
  have hc := stop_of_whole (d := .connection)
    (c := (c.withQueue .receive c.receive.halted).withQueue .send c.send.halted) (h .connection)
  simp only [queue, withQueue] at hr hs hc
  simp only [stopAll, hr, hs, hc]
  rfl

theorem stopAll_of_not_whole {c : Channel} (h : ¬ c.Whole) :
    ∃ c' v, c.stopAll = (c', .error v) := by
  unfold stopAll
  by_cases hr : c.receive.Whole
  · have er : c.stop .receive = (_, .ok _) := stop_of_whole (d := .receive) hr
    rw [er]
    dsimp only
    by_cases hs : c.send.Whole
    · have es : (c.withQueue .receive (c.queue .receive).halted).stop .send = (_, .ok _) :=
        stop_of_whole (d := .send) hs
      rw [es]
      dsimp only
      have hc : ¬ c.connection.Whole := by
        intro hc
        refine h fun d => ?_
        cases d with
        | receive => exact hr
        | send => exact hs
        | connection => exact hc
      obtain ⟨c', ec⟩ := stop_of_not_whole (d := .connection)
        (c := (c.withQueue .receive (c.queue .receive).halted).withQueue .send
          ((c.withQueue .receive (c.queue .receive).halted).queue .send).halted) hc
      rw [ec]
      exact ⟨c', _, rfl⟩
    · obtain ⟨c', es⟩ := stop_of_not_whole (d := .send)
        (c := c.withQueue .receive (c.queue .receive).halted) hs
      rw [es]
      exact ⟨c', _, rfl⟩
  · obtain ⟨c', er⟩ := stop_of_not_whole (c := c) (d := .receive) hr
    rw [er]
    exact ⟨c', _, rfl⟩

/-! ### Closes -/

/-- The channel when a close of the socket or of the channel itself has its locks. -/
def Closing.shut (ofSocket : Bool) (c : Channel) : Channel :=
  if ofSocket then { c with isOpen := false } else c

@[simp] theorem Closing.queue_shut (b : Bool) (c : Channel) (d : Direction) :
    (shut b c).queue d = c.queue d := by cases b <;> cases d <;> rfl

/-- Nothing keeps a close from its locks, and it is the first one of its socket. -/
structure Closing.Free (ofSocket : Bool) (c : Channel) : Prop where
  isOpen : ofSocket = true → c.isOpen = true
  guards : ofSocket = true → c.guards = 0
  dispatching : c.dispatching = false

/-- What the next step of a close can do. -/
inductive Closing.Step (c : Channel) :
    Closing → Option (Exchange Call) → Channel → Closing → Prop
  | again (ho : c.isOpen = false) :
      Step c ⟨true, .stop⟩ none c ⟨true, .ended (.ok ())⟩
  | unattached {b : Bool} (free : Free b c) (ha : c.attached = false) :
      Step c ⟨b, .stop⟩ none (shut b c) ⟨b, .release []⟩
  | stopped {b : Bool} {x : Option (Exchange Call)} {c' : Channel} (free : Free b c)
      (ha : c.attached = true) (hw : c.Whole) (hl : Left (shut b c).halted x c') :
      Step c ⟨b, .stop⟩ x c' ⟨b, .release c.waiting⟩
  | stopBroken {b : Bool} {c' : Channel} {v : Violation} (free : Free b c) (hw : ¬ c.Whole) :
      Step c ⟨b, .stop⟩ none c' ⟨b, .broken v⟩
  | released {b : Bool} {ops : List Operation} {result : Except Status Unit}
      (ha : c.attached = true) :
      Step c ⟨b, .release ops⟩ (some ⟨.release c.fd, result⟩) c
        ⟨b, .flush (.complete ops) result⟩
  | releasedUnattached {b : Bool} {ops : List Operation} {result : Except Status Unit}
      (ha : c.attached = false) :
      Step c ⟨b, .release ops⟩ (some ⟨.release c.fd, result⟩) c ⟨b, .ended result⟩
  | flushing {b : Bool} {f f' : Flush} {result : Except Status Unit} {x : Option (Exchange Call)}
      {c' : Channel} (hf : Flush.Step c f x c' f') :
      Step c ⟨b, .flush f result⟩ x c' ⟨b, .flush f' result⟩
  | flushed {b : Bool} {result : Except Status Unit} :
      Step c ⟨b, .flush .ended result⟩ none c ⟨b, .ended result⟩

theorem Closing.whole_shut {b : Bool} {c : Channel} : (shut b c).Whole ↔ c.Whole := by
  simp only [Channel.Whole, queue_shut]

theorem Closing.waiting_shut (b : Bool) (c : Channel) : (shut b c).waiting = c.waiting := by
  cases b <;> rfl

/-- The step of a close that stops, once it has its locks. -/
theorem Closing.step_stop {b : Bool} {c : Channel} {x : Option (Exchange Call)}
    {turn : Turn Channel Closing} (free : Free b c)
    (h : Next.Yields c
      (if (shut b c).attached = true then
        match (shut b c).stopAll with
        | (c, .error v) => .step ((⟨b, .stop⟩ : Closing).goto c (.broken v))
        | (c, .ok ops) => c.leave (⟨b, .release ops⟩ : Closing) []
      else .step ((⟨b, .stop⟩ : Closing).goto (shut b c) (.release []))) x turn) :
    Step c ⟨b, .stop⟩ x turn.state turn.phase := by
  have hs : (shut b c).attached = c.attached := by cases b <;> rfl
  split at h
  · next ha =>
    by_cases hw : c.Whole
    · rw [stopAll_of_whole (whole_shut.mpr hw), waiting_shut] at h
      have hc : (shut b c).halted.afterCall c = (shut b c).halted := by cases b <;> rfl
      obtain ⟨hl, hp⟩ := left_of_yields hc h
      rw [hp]
      exact .stopped free (hs ▸ ha) hw hl
    · obtain ⟨c', v, he⟩ := stopAll_of_not_whole fun hw' => hw (whole_shut.mp hw')
      rw [he] at h
      cases h
      exact .stopBroken free hw
  · next ha =>
    cases h
    exact .unattached free (by simpa [hs] using ha)

theorem Closing.step_of_yields {c : Channel} {k : Closing} {x : Option (Exchange Call)}
    {turn : Turn Channel Closing} (h : (k.next c).Yields c x turn) :
    Step c k x turn.state turn.phase := by
  obtain ⟨b, phase⟩ := k
  cases phase with
  | stop =>
      simp only [next] at h
      split at h
      · next hc =>
        cases h
        have hb : b = true := hc.1
        subst hb
        exact .again (by simpa using hc.2)
      · next hc =>
        split at h
        · cases h
        · next hl =>
          refine step_stop ⟨?_, ?_, ?_⟩ h
          · intro hb
            simpa [hb] using hc
          · intro hb
            exact Decidable.byContradiction fun hg => hl (.inl ⟨hb, hg⟩)
          · simpa using fun hd => hl (.inr hd)
  | release ops =>
      cases h with
      | ask _ _ result =>
          cases ha : c.attached with
          | true =>
              simp only [afterRelease, ha, if_true]
              exact .released ha
          | false =>
              simp only [afterRelease, ha, Bool.false_eq_true, if_false]
              exact .releasedUnattached ha
  | flush f result =>
      cases f with
      | ended =>
          cases h
          exact .flushed
      | complete ops =>
          obtain ⟨t, ht, rfl⟩ := Next.Yields.of_map (n := Flush.next c (.complete ops)) h
          exact .flushing (Flush.step_of_yields ht)
      | settle =>
          obtain ⟨t, ht, rfl⟩ := Next.Yields.of_map (n := Flush.next c .settle) h
          exact .flushing (Flush.step_of_yields ht)
  | ended result => cases h
  | broken v => cases h

end Proactor.Channel
