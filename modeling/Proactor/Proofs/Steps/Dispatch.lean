import Proactor.Proofs.Attempt
import Proactor.Proofs.Steps.Closing
/-! # The steps of dispatches

What the next step of a dispatch can do (`Dispatch.Step`), one constructor for each outcome.  The
constructors that end in a broken rule say what was wrong with the queue; the state that they leave
behind is of no interest, since none of them ever applies. -/

namespace Proactor.Channel

/-- The pending error that the answer of the kernel tells. -/
def Dispatch.fetched : Except Int Int → Option Status
  | .ok 0 => none
  | .ok n => some (.ofErrno n)
  | .error _ => none

theorem Dispatch.afterQuery_eq (events : Readiness) (c : Channel) (reply : Except Int Int) :
    (afterQuery events c reply).state = c ∧
      (afterQuery events c reply).phase = route events (fetched reply) := by
  unfold afterQuery
  split
  · exact ⟨rfl, rfl⟩
  · next n hn =>
    have h : fetched (.ok n) = some (.ofErrno n) := by
      unfold fetched
      split
      · next h => exact absurd (Except.ok.inj h) hn
      · next h => rw [Except.ok.inj h]
      · next h => cases h
    exact ⟨rfl, by rw [h]⟩
  · exact ⟨rfl, rfl⟩

/-- What the next step of a dispatch can do. -/
inductive Dispatch.Step (c : Channel) :
    Dispatch → Option (Exchange Call) → Channel → Dispatch → Prop
  | enterIgnored {events : Readiness} (hd : c.dispatching = false)
      (hr : c.registered.isEmpty = true) : Step c (enter events) none c ended
  | enterFailed {events : Readiness} (hd : c.dispatching = false)
      (hr : c.registered.isEmpty = false) (hf : events.contains .failed = true) :
      Step c (enter events) none { c with dispatching := true } (query events)
  | enterReady {events : Readiness} (hd : c.dispatching = false)
      (hr : c.registered.isEmpty = false) (hf : events.contains .failed = false) :
      Step c (enter events) none { c with dispatching := true } (route events none)
  | queried {events : Readiness} (reply : Except Int Int) :
      Step c (query events) (some ⟨.system (.pendingError c.fd), reply⟩) c
        (route events (fetched reply))
  | hungUp {pending : Option Status} {x : Option (Exchange Call)} {c' : Channel} (hw : c.Whole)
      (hl : Left c.halted x c') : Step c (hangUp pending) x c' (force c.waiting none pending)
  | hangUpBroken {pending : Option Status} {c' : Channel} {v : Violation} (hw : ¬ c.Whole) :
      Step c (hangUp pending) none c' (broken v)
  | inputEnded {rest : List Stage} {pending : Option Status} (hw : c.receive.Whole) :
      Step c (endInput rest pending) none (c.withQueue .receive c.receive.halted)
        (force c.receive.waiting (some rest) pending)
  | endInputBroken {rest : List Stage} {pending : Option Status} {c' : Channel} {v : Violation}
      (hw : ¬ c.receive.Whole) : Step c (endInput rest pending) none c' (broken v)
  | forceNone {rest : Option (List Stage)} {pending : Option Status} :
      Step c (force [] rest pending) none c (flush .settle rest pending)
  | forceNext {op : Operation} {ops : List Operation} {rest : Option (List Stage)}
      {pending : Option Status} :
      Step c (force (op :: ops) rest pending) none c (ofForced ops rest pending (Attempt.start op))
  | forcing {a : Attempt} {ops : List Operation} {rest : Option (List Stage)}
      {pending : Option Status} (reply : (a.call c.fd).request.Reply) :
      Step c (forcing a ops rest pending) (some ⟨.system (a.call c.fd).request, reply⟩) c
        (ofForced ops rest pending ((a.call c.fd).resume reply))
  | forced {op : Operation} {ops : List Operation} {rest : Option (List Stage)}
      {pending : Option Status} :
      Step c (forced op ops rest pending) (some ⟨c.complete op, ()⟩) c (force ops rest pending)
  | flushing {f f' : Flush} {rest : Option (List Stage)} {pending : Option Status}
      {x : Option (Exchange Call)} {c' : Channel} (hf : Flush.Step c f x c' f') :
      Step c (flush f rest pending) x c' (flush f' rest pending)
  | flushedAll {pending : Option Status} :
      Step c (flush .ended none pending) none (abandon c) ended
  | flushedInput {rest : List Stage} {pending : Option Status} :
      Step c (flush .ended (some rest) pending) none c (narrow rest pending)
  | narrowSkipped {rest : List Stage} {pending : Option Status}
      (hr : c.registered.isEmpty = true ∨ narrowed c.registered = c.registered) :
      Step c (narrow rest pending) none c (sweep rest false pending)
  | narrowed {rest : List Stage} {pending : Option Status}
      (hr : ¬ (c.registered.isEmpty = true ∨ narrowed c.registered = c.registered))
      (reply : Except Errno Unit) :
      Step c (narrow rest pending) (some ⟨.unregister c.fd (narrowed c.registered), reply⟩)
        { c with registered := narrowed c.registered } (sweep rest false pending)
  | sweptBehind {pending : Option Status} :
      Step c (sweep [] true pending) none c (rearm pending)
  | swept {pending : Option Status} : Step c (sweep [] false pending) none (abandon c) ended
  | sweepStopped {stage : Stage} {rest : List Stage} {again : Bool} {pending : Option Status}
      (hs : (c.queue stage.direction).isStopped = true) :
      Step c (sweep (stage :: rest) again pending) none c (sweep rest again pending)
  | sweepBegun {stage : Stage} {rest : List Stage} {again : Bool} {pending : Option Status}
      (hs : (c.queue stage.direction).isStopped = false) :
      Step c (sweep (stage :: rest) again pending) none
        (c.withQueue stage.direction { c.queue stage.direction with state := .set })
        (checkOut ⟨stage, (c.queue stage.direction).next, rest, again, pending⟩)
  | checkOutEmpty {s : Sweep} (he : (c.queue s.stage.direction).entries = []) :
      Step c (checkOut s) none c (sweep s.rest s.rearm s.pending)
  | checkOutBeyond {s : Sweep} {e : Queue.Entry} {rest : List Queue.Entry}
      (he : (c.queue s.stage.direction).entries = e :: rest) (hb : s.bound ≤ e.number) :
      Step c (checkOut s) none c (sweep s.rest true s.pending)
  | checkOutReady {s : Sweep} {n : Nat} {op : Operation} {rest : List Queue.Entry}
      (he : (c.queue s.stage.direction).entries = ⟨n, some op⟩ :: rest) (hb : n < s.bound)
      (hw : s.stage.wants op = true) :
      Step c (checkOut s) none
        (c.withQueue s.stage.direction
          { c.queue s.stage.direction with entries := ⟨n, none⟩ :: rest })
        (ofSwept s (Attempt.start op))
  | checkOutSkipped {s : Sweep} {n : Nat} {op : Operation} {rest : List Queue.Entry}
      (he : (c.queue s.stage.direction).entries = ⟨n, some op⟩ :: rest) (hb : n < s.bound)
      (hw : s.stage.wants op = false) :
      Step c (checkOut s) none c (sweep s.rest s.rearm s.pending)
  | checkOutBroken {s : Sweep} {n : Nat} {rest : List Queue.Entry} {c' : Channel} {v : Violation}
      (he : (c.queue s.stage.direction).entries = ⟨n, none⟩ :: rest) :
      Step c (checkOut s) none c' (broken v)
  | attempted {a : Attempt} {s : Sweep} (reply : (a.call c.fd).request.Reply) :
      Step c (attempt a s) (some ⟨.system (a.call c.fd).request, reply⟩) c
        (ofSwept s ((a.call c.fd).resume reply))
  | restored {op : Operation} {s : Sweep} {n : Nat} {rest : List Queue.Entry}
      (he : (c.queue s.stage.direction).entries = ⟨n, none⟩ :: rest) :
      Step c (restore op s) none
        (c.withQueue s.stage.direction
          { c.queue s.stage.direction with state := .clear, entries := ⟨n, some op⟩ :: rest })
        (sweep s.rest s.rearm s.pending)
  | restoreBroken {op : Operation} {s : Sweep} {c' : Channel} {v : Violation}
      (he : ¬ (c.queue s.stage.direction).Headless) : Step c (restore op s) none c' (broken v)
  | completed {op : Operation} {s : Sweep} :
      Step c (complete op s) (some ⟨c.complete op, ()⟩) c (retire s)
  | retired {s : Sweep} {n : Nat} {rest : List Queue.Entry}
      (he : (c.queue s.stage.direction).entries = ⟨n, none⟩ :: rest) :
      Step c (retire s) none
        (c.withQueue s.stage.direction { c.queue s.stage.direction with entries := rest })
        (checkOut s)
  | retireBroken {s : Sweep} {c' : Channel} {v : Violation}
      (he : ¬ (c.queue s.stage.direction).Headless) : Step c (retire s) none c' (broken v)
  | rearmSkipped {pending : Option Status} (hr : c.registered.isEmpty = true) :
      Step c (rearm pending) none (abandon c) ended
  | rearmed {pending : Option Status} (hr : c.registered.isEmpty = false)
      (reply : Except Errno Unit) :
      Step c (rearm pending) (some ⟨.register c.fd c.registered, reply⟩) (abandon c) ended

theorem Dispatch.step_of_yields {c : Channel} {d : Dispatch} {x : Option (Exchange Call)}
    {turn : Turn Channel Dispatch} (h : (d.next c).Yields c x turn) :
    Step c d x turn.state turn.phase := by
  cases d with
  | enter events =>
      simp only [next] at h
      split at h
      · cases h
      · next hd =>
        have hd : c.dispatching = false := by simpa using hd
        split at h
        · next hr =>
          cases h
          exact .enterIgnored hd hr
        · next hr =>
          have hr : c.registered.isEmpty = false := by simpa using hr
          cases h
          dsimp only
          split
          · next hf => exact .enterFailed hd hr hf
          · next hf => exact .enterReady hd hr (by simpa using hf)
  | query events =>
      cases h with
      | ask _ _ reply =>
          rw [(afterQuery_eq events c reply).1, (afterQuery_eq events c reply).2]
          exact .queried reply
  | hangUp pending =>
      simp only [next] at h
      by_cases hw : c.Whole
      · rw [stopAll_of_whole hw] at h
        obtain ⟨hl, hp⟩ := left_of_yields rfl h
        rw [hp]
        exact .hungUp hw hl
      · obtain ⟨c', v, he⟩ := stopAll_of_not_whole hw
        rw [he] at h
        cases h
        exact .hangUpBroken hw
  | endInput rest pending =>
      simp only [next] at h
      by_cases hw : c.receive.Whole
      · have hs : c.stop .receive = (_, .ok _) := stop_of_whole (d := .receive) hw
        rw [hs] at h
        cases h
        exact .inputEnded hw
      · obtain ⟨c', he⟩ := stop_of_not_whole (c := c) (d := .receive) hw
        rw [he] at h
        cases h
        exact .endInputBroken hw
  | force ops rest pending =>
      cases ops with
      | nil =>
          cases h
          exact .forceNone
      | cons op ops =>
          cases h
          exact .forceNext
  | forcing a ops rest pending =>
      cases h with
      | ask _ _ reply => exact .forcing reply
  | forced op ops rest pending =>
      cases h with
      | ask _ _ reply => exact .forced
  | flush f rest pending =>
      cases f with
      | ended =>
          cases rest with
          | none =>
              cases h
              exact .flushedAll
          | some rest =>
              cases h
              exact .flushedInput
      | complete ops =>
          obtain ⟨t, ht, rfl⟩ := Next.Yields.of_map (n := Flush.next c (.complete ops)) h
          exact .flushing (Flush.step_of_yields ht)
      | settle =>
          obtain ⟨t, ht, rfl⟩ := Next.Yields.of_map (n := Flush.next c .settle) h
          exact .flushing (Flush.step_of_yields ht)
  | narrow rest pending =>
      simp only [next] at h
      split at h
      · next hr =>
        cases h
        exact .narrowSkipped hr
      · next hr =>
        cases h with
        | ask _ _ reply => exact .narrowed hr reply
  | sweep stages again pending =>
      cases stages with
      | nil =>
          cases h
          cases again with
          | true => exact .sweptBehind
          | false => exact .swept
      | cons stage rest =>
          simp only [next, Queue.snapshot] at h
          cases hs : (c.queue stage.direction).isStopped with
          | true =>
              rw [hs] at h
              cases h
              exact .sweepStopped hs
          | false =>
              rw [hs] at h
              cases h
              exact .sweepBegun hs
  | checkOut s =>
      simp only [next] at h
      cases h
      unfold Queue.checkOut
      split
      · next he =>
        simp only [afterCheckOut, withQueue_queue]
        exact .checkOutEmpty he
      · next e rest he =>
        split
        · next hb =>
          simp only [afterCheckOut, withQueue_queue]
          exact .checkOutBeyond he hb
        · next hb =>
          obtain ⟨n, op⟩ := e
          cases op with
          | none => exact .checkOutBroken he
          | some op =>
              cases hw : s.stage.wants op with
              | true =>
                  simp only [hw, if_true, afterCheckOut]
                  exact .checkOutReady he (by simpa using hb) hw
              | false =>
                  simp only [hw, Bool.false_eq_true, if_false, afterCheckOut, withQueue_queue]
                  exact .checkOutSkipped he (by simpa using hb) hw
  | attempt a s =>
      cases h with
      | ask _ _ reply => exact .attempted reply
  | restore op s =>
      simp only [next] at h
      by_cases he : ∃ n rest, (c.queue s.stage.direction).entries = ⟨n, none⟩ :: rest
      · obtain ⟨n, rest, he⟩ := he
        rw [Queue.restore_of_checkedOut op he] at h
        cases h
        exact .restored he
      · obtain ⟨v, hv⟩ := Queue.restore_of_not_checkedOut op he
        rw [hv] at h
        cases h
        exact .restoreBroken fun ⟨n, rest, hq, _⟩ => he ⟨n, rest, hq⟩
  | complete op s =>
      cases h with
      | ask _ _ reply => exact .completed
  | retire s =>
      simp only [next] at h
      by_cases he : ∃ n rest, (c.queue s.stage.direction).entries = ⟨n, none⟩ :: rest
      · obtain ⟨n, rest, he⟩ := he
        rw [Queue.retire_of_checkedOut he] at h
        cases h
        exact .retired he
      · obtain ⟨q, v, hv⟩ := Queue.retire_of_not_checkedOut he
        rw [hv] at h
        cases h
        exact .retireBroken fun ⟨n, rest, hq, _⟩ => he ⟨n, rest, hq⟩
  | rearm pending =>
      simp only [next] at h
      split at h
      · next hr =>
        cases h
        cases pending <;> exact .rearmSkipped hr
      · next hr =>
        cases h with
        | ask _ _ reply =>
            cases pending <;> exact .rearmed (by simpa using hr) reply
  | ended => cases h
  | broken v => cases h

end Proactor.Channel
