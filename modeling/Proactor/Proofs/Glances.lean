import Proactor.Proofs.Accounts
/-! # What a step means for the readiness of one direction

A channel that serves its own submissions and dispatches without hang-up or end of input
(`Party.Plain`), seen from its receives or its sends.

* **Events.**  A dispatch takes a snapshot (`Event.snapshots`), an operation is found not ready
  (`Event.findsNotReady`), a submission other than a given one uses up the hint (`Event.takesHint`),
  the reactor is asked to report again (`Event.rearms`).
* **Places.**  A sweep of the direction is in progress (`Party.sweeps`), it will end by asking the
  reactor again (`Party.willRearm`), a submission is about to queue up (`Party.enlists`).
* **Glances** (`Glance`).  What a step does to all these at once. -/

namespace Proactor.Channel

/-! ### Plain parties -/

/-- The dispatch reports neither a hang-up nor the end of input. -/
def Dispatch.Plain : Dispatch → Prop
  | enter events | query events =>
      events.contains .hangUp = false ∧ events.contains .peerClosed = false
  | sweep .. | checkOut _ | attempt .. | restore .. | complete .. | retire _ | rearm _ | ended
  | broken _ => True
  | _ => False

/-- The party is a submission on the channel itself, or a dispatch that reports neither a hang-up
nor the end of input. -/
def Party.Plain : Party → Prop
  | submission _ s => s.guarded = false
  | dispatch d => d.Plain
  | _ => False

instance : DecidablePred Dispatch.Plain
  | .enter events | .query events =>
      inferInstanceAs (Decidable (events.contains .hangUp = false ∧
        events.contains .peerClosed = false))
  | .sweep .. | .checkOut _ | .attempt .. | .restore .. | .complete .. | .retire _ | .rearm _
  | .ended | .broken _ => isTrue trivial
  | .hangUp _ | .endInput .. | .force .. | .forcing .. | .forced .. | .flush .. | .narrow .. =>
      isFalse id

instance : DecidablePred Party.Plain
  | .submission _ s => inferInstanceAs (Decidable (s.guarded = false))
  | .dispatch d => inferInstanceAs (Decidable d.Plain)
  | .attachment _ | .closing _ => isFalse id

/-! ### Places -/

/-- The bound of the sweep of a direction that the dispatch is making. -/
def Dispatch.sweeps (d : Direction) : Dispatch → Option Nat
  | checkOut s | attempt _ s | restore _ s | complete _ s | retire s =>
      if s.stage.direction = d then some s.bound else none
  | _ => none

/-- The dispatch ends by asking the reactor to report again. -/
def Dispatch.willRearm : Dispatch → Bool
  | sweep _ again _ => again
  | checkOut s | attempt _ s | restore _ s | complete _ s | retire s => s.rearm
  | rearm _ => true
  | _ => false

namespace Party

def sweeps (d : Direction) : Party → Option Nat
  | dispatch x => x.sweeps d
  | _ => none

def willRearm : Party → Bool
  | dispatch x => x.willRearm
  | _ => false

/-- The ticket of a submission that was not ready and is about to queue up. -/
def enlists (d : Direction) : Party → Option Nat
  | submission op ⟨_, .enlist _⟩ => op.ticketIn d
  | _ => none

/-- The ticket of a head that was not ready and is about to be put back. -/
def restores (d : Direction) : Party → Option Nat
  | dispatch (.restore op s) => if s.stage.direction = d then some op.ticket else none
  | _ => none

end Party

/-! ### Events -/

namespace Event

/-- A dispatch begins to sweep a direction. -/
def snapshots (d : Direction) : Event → Bool
  | acted _ (.dispatch (.sweep (stage :: _) _ _)) _ (.dispatch (.checkOut _)) => stage.direction = d
  | _ => false

/-- The operation with a ticket was attempted and is not ready. -/
def findsNotReady (n : Nat) : Event → Bool
  | acted _ (.submission op ⟨_, .attempt _ _⟩) _ (.submission _ ⟨_, .enlist _⟩) => op.ticket = n
  | acted _ (.dispatch (.attempt a _)) _ (.dispatch (.restore _ _)) => a.op.ticket = n
  | _ => false

/-- A submission, not that of the operation with ticket `n`, uses up the hint of a direction. -/
def takesHint (d : Direction) (n : Nat) : Event → Bool
  | acted s (.submission op ⟨_, .offer _⟩) _ _ | acted s (.submission op ⟨_, .enlist _⟩) _ _ =>
      op.direction = d && op.ticket ≠ n && (s.channel.queue d).state = .set &&
        (s.channel.queue d).entries.isEmpty
  | _ => false

/-- The reactor is asked to report again. -/
def rearms : Event → Bool
  | acted _ _ (some ⟨.register _ _, _⟩) _ => true
  | _ => false

end Event

/-! ### Plain parties stay plain -/

section plain
variable {c c' : Channel} {p p' : Party} {x : Option (Exchange Call)}

theorem Dispatch.route_plain {events : Readiness} (h : events.contains .hangUp = false)
    (h' : events.contains .peerClosed = false) (pending : Option Status) :
    route events pending = sweep (Stage.ofReadiness events) false pending := by
  simp [route, h, h']

theorem Dispatch.plain_ofSwept (s : Sweep) (r : Progress) : (ofSwept s r).Plain := by
  rcases ofSwept_cases s r with ⟨a, h, -⟩ | ⟨op, pending, h, -⟩ | ⟨op, h, -⟩ <;> rw [h] <;> trivial

theorem Party.Step.plain (h : Step c p x c' p') (hp : p.Plain) : p'.Plain := by
  cases h with
  | submission h => cases h <;> exact hp
  | attachment h => cases hp
  | closing h => cases hp
  | dispatch h =>
      cases h with
      | enterReady _ _ _ | queried _ =>
          rw [Party.Plain, Dispatch.route_plain hp.1 hp.2]
          trivial
      | enterFailed _ _ _ => exact hp
      | checkOutReady _ _ _ | attempted _ => exact Dispatch.plain_ofSwept _ _
      | hungUp _ _ | hangUpBroken _ | inputEnded _ | endInputBroken _ | forceNone | forceNext
      | forcing _ | forced | flushing _ | flushedAll | flushedInput | narrowSkipped _
      | narrowed _ _ => cases hp
      | _ => trivial

/-- Plain parties leave the reactor's interest alone, and every queue in use. -/
theorem Party.Step.unstopped (h : Step c p x c' p') (hp : p.Plain) (intact : p.Intact)
    (proper : p.Proper) (hp' : p'.Intact) (hs : ∀ d, (c.queue d).isStopped = false) :
    c'.registered = c.registered ∧ ∀ d, (c'.queue d).isStopped = false := by
  have one : ∀ {e : Direction} {q : Queue}, q.isStopped = false →
      ∀ d, ((c.withQueue e q).queue d).isStopped = false := by
    intro e q hq d
    by_cases hd : d = e
    · subst hd
      rw [queue_withQueue]
      exact hq
    · rw [queue_withQueue_ne c q hd]
      exact hs d
  cases h with
  | @submission op s s' x c' h =>
      have notJoining : s.phase.joining = true → False := by
        intro hj
        have := proper (.inr hj)
        rw [show s.guarded = false from hp] at this
        cases this
      cases h with
      | attachDone _ | attachJoined _ | attachFailed _ => exact (notJoining rfl).elim
      | enterJoined _ | enterClosed _ _ | enterEarly _ _ _ | enterFirst _ _ _ =>
          exact ⟨rfl, fun d => by rw [queue_update rfl rfl rfl d]; exact hs d⟩
      | offerIdle _ _ => exact ⟨registered_withQueue _ _ _, one rfl⟩
      | enlistHinted _ _ => exact ⟨registered_withQueue _ _ _, one rfl⟩
      | offerBusy h _ | enlistWaiting h _ =>
          refine ⟨by simp, fun d => ?_⟩
          rw [Submission.queue_abandon]
          exact one (by simpa [Queue.isStopped, Queue.pushed] using h) d
      | offerStopped h _ | offerDraining h _ | enlistStopped h _ | enlistDraining h _ =>
          rw [hs] at h
          cases h
      | attempted _ => exact ⟨rfl, hs⟩
      | completed => exact ⟨by simp, fun d => by rw [Submission.queue_abandon]; exact hs d⟩
  | attachment h => cases hp
  | closing h => cases hp
  | dispatch h =>
      cases h with
      | hungUp _ _ | hangUpBroken _ | inputEnded _ | endInputBroken _ | forceNone | forceNext
      | forcing _ | forced | flushing _ | flushedAll | flushedInput | narrowSkipped _
      | narrowed _ _ => cases hp
      | checkOutBroken _ | restoreBroken _ | retireBroken _ => exact absurd rfl (hp'.1 _)
      | sweepBegun _ => exact ⟨registered_withQueue _ _ _, one rfl⟩
      | checkOutReady _ _ _ | retired _ =>
          refine ⟨registered_withQueue _ _ _, one ?_⟩
          exact hs _
      | restored _ => exact ⟨registered_withQueue _ _ _, one rfl⟩
      | enterFailed _ _ _ | enterReady _ _ _ | swept | rearmSkipped _ | rearmed _ _ =>
          exact ⟨rfl, fun d => by rw [queue_update rfl rfl rfl d]; exact hs d⟩
      | _ => exact ⟨rfl, hs⟩

end plain

/-! ### Glances -/

/-- What a step does to the queue `q` of direction `d`, and what its event `e` says. -/
inductive Glance (d : Direction) (q : Queue) (e : Event) (p p' : Party) : Queue → Prop
  /-- The queue is left alone, and the sweep goes on. -/
  | aside (sweeps : p'.sweeps d = p.sweeps d) (snapshot : e.snapshots d = false)
      (before : p.enlists d = none) (enlists : p'.enlists d = none)
      (restores : p'.restores d = none)
      (rearm : p.willRearm = true → p'.willRearm = true ∨ e.rearms = true) :
      Glance d q e p p' q
  /-- A submission was not ready. -/
  | unready {n : Nat} (sweeps : p.sweeps d = none) (sweeps' : p'.sweeps d = none)
      (snapshot : e.snapshots d = false) (before : p.enlists d = none)
      (enlists : p'.enlists d = some n) (found : e.findsNotReady n = true)
      (rearm : p.willRearm = false) : Glance d q e p p' q
  /-- A head was not ready. -/
  | unreadyHead {n : Nat} (sweeps : p'.sweeps d = p.sweeps d) (snapshot : e.snapshots d = false)
      (before : p.enlists d = none) (enlists : p'.enlists d = none)
      (restores : p'.restores d = some n) (found : e.findsNotReady n = true) : Glance d q e p p' q
  /-- A submission used up the hint. -/
  | hinted {op : Operation} {sub sub' : Submission} (hp : p = .submission op sub)
      (hp' : p' = .submission op sub') (snapshot : e.snapshots d = false)
      (before : p.enlists d = none ∨ q.state = .set) (enlists : p'.enlists d = none)
      (he : q.entries = [])
      (takes : ∀ n, q.state = .set → op.ticket ≠ n → e.takesHint d n = true) :
      Glance d q e p p' q.hinted
  /-- A submission queued up. -/
  | joined {op o : Operation} {sub sub' : Submission} (hp : p = .submission op sub)
      (hp' : p' = .submission op sub') (snapshot : e.snapshots d = false)
      (enlists : p'.enlists d = none) (key : o.key = op.key)
      (waits : ¬ (q.state = .set ∧ q.entries = []))
      (came : q.entries = [] → p.enlists d = some op.ticket) : Glance d q e p p' (q.pushed o)
  /-- A sweep has begun. -/
  | snapped (sweeps : p'.sweeps d = some q.next) (snapshot : e.snapshots d = true)
      (before : p.enlists d = none) (enlists : p'.enlists d = none)
      (restores : p'.restores d = none) : Glance d q e p p' { q with state := .set }
  /-- The sweep is done. -/
  | emptied {b : Nat} (sweeps : p.sweeps d = some b) (sweeps' : p'.sweeps d = none)
      (snapshot : e.snapshots d = false) (enlists : p'.enlists d = none) (he : q.entries = []) :
      Glance d q e p p' q
  /-- The sweep has come to newer operations. -/
  | beyond {b : Nat} (sweeps : p.sweeps d = some b) (sweeps' : p'.sweeps d = none)
      (snapshot : e.snapshots d = false) (enlists : p'.enlists d = none)
      (rearm : p'.willRearm = true) : Glance d q e p p' q
  | checkedOut {b n : Nat} {op : Operation} {rest : List Queue.Entry} (sweeps : p.sweeps d = some b)
      (sweeps' : p'.sweeps d = some b) (snapshot : e.snapshots d = false)
      (restores : p'.restores d = none) (he : q.entries = ⟨n, some op⟩ :: rest) (hb : n < b) :
      Glance d q e p p' { q with entries := ⟨n, none⟩ :: rest }
  | restored {b n : Nat} {op : Operation} {rest : List Queue.Entry} (sweeps : p.sweeps d = some b)
      (sweeps' : p'.sweeps d = none) (snapshot : e.snapshots d = false)
      (enlists : p'.enlists d = none) (restores : p.restores d = some op.ticket)
      (he : q.entries = ⟨n, none⟩ :: rest) :
      Glance d q e p p' { q with state := .clear, entries := ⟨n, some op⟩ :: rest }
  | retired {b n : Nat} {rest : List Queue.Entry} (sweeps : p.sweeps d = some b)
      (sweeps' : p'.sweeps d = some b) (snapshot : e.snapshots d = false)
      (restores : p'.restores d = none) (he : q.entries = ⟨n, none⟩ :: rest) :
      Glance d q e p p' { q with entries := rest }

section glance
variable {c c' : Channel} {d : Direction} {l : List Party}

theorem enlists_ofProgress {op : Operation} {g : Bool} {r : Progress}
    (h : ∀ o, r ≠ .notReady o) :
    (Party.submission op ⟨g, .ofProgress false r⟩).enlists d = none := by
  cases r with
  | calling a => rfl
  | ready o => rfl
  | notReady o => exact absurd rfl (h o)

/-- A step of a submission, seen from a direction. -/
theorem Submission.Step.glance {op : Operation} {s s' : Submission} {x : Option (Exchange Call)}
    (h : Submission.Step c s x c' s') (plain : s.guarded = false)
    (proper : (Party.submission op s).Proper) (intact : (Party.submission op s).Intact)
    (unstopped : ∀ e, (c.queue e).isStopped = false) :
    Glance d (c.queue d) (.acted ⟨c, l⟩ (.submission op s) x (.submission op s'))
      (.submission op s) (.submission op s') (c'.queue d) := by
  have key : ∀ {o : Operation}, s.phase.op? = some o → o.key = op.key := fun ho => intact.2 _ ho
  have notJoining : s.phase.joining = true → False := by
    intro hj
    have := proper (.inr hj)
    rw [plain] at this
    cases this
  have aside : ∀ {c' : Channel}, c'.queue d = c.queue d →
      (Party.submission op s).enlists d = none → (Party.submission op s').enlists d = none →
      Glance d (c.queue d) (.acted ⟨c, l⟩ (.submission op s) x (.submission op s'))
        (.submission op s) (.submission op s') (c'.queue d) := by
    intro c' hq hb he
    rw [hq]
    exact .aside rfl rfl hb he rfl nofun
  cases h with
  | attachDone _ | attachJoined _ | attachFailed _ => exact (notJoining rfl).elim
  | enterJoined _ | enterClosed _ _ | enterEarly _ _ _ | enterFirst _ _ _ =>
      exact aside (queue_update rfl rfl rfl d) rfl rfl
  | @offerIdle g o hs he =>
      have hn : (Party.submission op ⟨g, .ofProgress false (Attempt.start o)⟩).enlists d = none :=
        enlists_ofProgress (Attempt.start_ne_notReady o)
      have ho := Operation.direction_eq_of_key (key rfl)
      by_cases hd : o.direction = d
      · subst hd
        rw [queue_withQueue]
        refine .hinted rfl rfl rfl (.inl rfl) hn he fun n hs hn => ?_
        simp [Event.takesHint, ← ho, hn, hs, he]
      · exact aside (queue_withQueue_ne c _ (Ne.symm hd)) rfl hn
  | @enlistHinted g o hs he =>
      have hn : (Party.submission op ⟨g, .ofProgress false (Attempt.start o)⟩).enlists d = none :=
        enlists_ofProgress (Attempt.start_ne_notReady o)
      have ho := Operation.direction_eq_of_key (key rfl)
      by_cases hd : o.direction = d
      · subst hd
        rw [queue_withQueue]
        refine .hinted rfl rfl rfl (.inr hs) hn he fun n hs hn => ?_
        simp [Event.takesHint, ← ho, hn, hs, he]
      · have hb := Operation.ticketIn_eq_none (ho ▸ hd)
        exact aside (queue_withQueue_ne c _ (Ne.symm hd)) hb hn
  | @offerBusy g o hs he =>
      have ho := Operation.direction_eq_of_key (key rfl)
      by_cases hd : o.direction = d
      · subst hd
        rw [Submission.queue_abandon, queue_withQueue]
        exact .joined rfl rfl rfl rfl (key rfl) (fun h => he h.2) (fun h => absurd h he)
      · refine aside ?_ rfl rfl
        rw [Submission.queue_abandon, queue_withQueue_ne c _ (Ne.symm hd)]
  | offerStopped h _ | offerDraining h _ | enlistStopped h _ | enlistDraining h _ =>
      rw [unstopped] at h
      cases h
  | @attempted g a early reply =>
      cases early with
      | true => exact (notJoining rfl).elim
      | false =>
          cases hr : (a.call c.fd).resume reply with
          | calling a' => exact .aside rfl rfl rfl rfl rfl nofun
          | ready o => exact .aside rfl rfl rfl rfl rfl nofun
          | notReady o =>
              by_cases hd : op.direction = d
              · refine .unready rfl rfl rfl rfl (Operation.ticketIn_self hd) ?_ rfl
                simp [Event.findsNotReady, Submission.Phase.ofProgress]
              · exact .aside rfl rfl rfl (Operation.ticketIn_eq_none hd) rfl nofun
  | @enlistWaiting g o hs hn =>
      have ho := Operation.direction_eq_of_key (key rfl)
      by_cases hd : o.direction = d
      · subst hd
        rw [Submission.queue_abandon, queue_withQueue]
        exact .joined rfl rfl rfl rfl (key rfl) hn fun _ => Operation.ticketIn_self ho.symm
      · refine aside ?_ (Operation.ticketIn_eq_none (ho ▸ hd)) rfl
        rw [Submission.queue_abandon, queue_withQueue_ne c _ (Ne.symm hd)]
  | completed => exact aside (Submission.queue_abandon _ _ _) rfl rfl

theorem Dispatch.sweeps_ofSwept (s : Sweep) (r : Progress) :
    (ofSwept s r).sweeps d = if s.stage.direction = d then some s.bound else none := by
  rcases ofSwept_cases s r with ⟨a, h, -⟩ | ⟨op, pending, h, -⟩ | ⟨op, h, -⟩ <;> rw [h] <;> rfl

theorem Dispatch.willRearm_ofSwept (s : Sweep) (r : Progress) :
    (ofSwept s r).willRearm = s.rearm := by
  rcases ofSwept_cases s r with ⟨a, h, -⟩ | ⟨op, pending, h, -⟩ | ⟨op, h, -⟩ <;> rw [h] <;> rfl

theorem restores_ofSwept {s : Sweep} {r : Progress} (h : ∀ op, r ≠ .notReady op) :
    (Party.dispatch (Dispatch.ofSwept s r)).restores d = none := by
  rcases Dispatch.ofSwept_cases s r with ⟨a, hs, -⟩ | ⟨op, pending, hs, -⟩ | ⟨op, -, hr⟩
  · rw [hs]
    rfl
  · rw [hs]
    rfl
  · exact absurd hr (h op)

theorem Dispatch.Step.glance {v v' : Dispatch} {x : Option (Exchange Call)}
    (h : Dispatch.Step c v x c' v') (hd : d ≠ .connection) (plain : v.Plain)
    (intact : ∀ b, v' ≠ .broken b) (unstopped : ∀ e, (c.queue e).isStopped = false)
    (registered : v.inside = true → c.registered.isEmpty = false) :
    Glance d (c.queue d) (.acted ⟨c, l⟩ (.dispatch v) x (.dispatch v'))
      (.dispatch v) (.dispatch v') (c'.queue d) := by
  -- a sweep of another direction
  have other : ∀ {s : Sweep} {q : Queue}, s.stage.direction ≠ d →
      (c.withQueue s.stage.direction q).queue d = c.queue d :=
    fun hs => queue_withQueue_ne c _ (Ne.symm hs)
  cases h with
  | hungUp _ _ | hangUpBroken _ | inputEnded _ | endInputBroken _ | forceNone | forceNext
  | forcing _ | forced | flushing _ | flushedAll | flushedInput | narrowSkipped _
  | narrowed _ _ => cases plain
  | checkOutBroken _ | restoreBroken _ | retireBroken _ => exact absurd rfl (intact _)
  | sweepStopped h =>
      rw [unstopped] at h
      cases h
  | rearmSkipped h =>
      rw [registered rfl] at h
      cases h
  | enterIgnored _ _ => exact .aside rfl rfl rfl rfl rfl nofun
  | enterFailed _ _ _ =>
      rw [queue_update rfl rfl rfl d]
      exact .aside rfl rfl rfl rfl rfl nofun
  | @enterReady events _ _ _ =>
      rw [queue_update rfl rfl rfl d, route_plain plain.1 plain.2]
      exact .aside rfl rfl rfl rfl rfl nofun
  | @queried events reply =>
      rw [route_plain plain.1 plain.2]
      exact .aside rfl rfl rfl rfl rfl nofun
  | sweptBehind => exact .aside rfl rfl rfl rfl rfl fun h => .inl h
  | swept =>
      rw [queue_update rfl rfl rfl d]
      exact .aside rfl rfl rfl rfl rfl nofun
  | @sweepBegun stage rest again pending hs =>
      by_cases hd : stage.direction = d
      · subst hd
        rw [queue_withQueue]
        refine .snapped ?_ ?_ rfl rfl rfl
        · simp [Party.sweeps, sweeps]
        · simp [Event.snapshots]
      · rw [queue_withQueue_ne c _ (Ne.symm hd)]
        refine .aside ?_ ?_ rfl rfl rfl fun h => .inl h
        · simp [Party.sweeps, sweeps, hd]
        · simp [Event.snapshots, hd]
  | @checkOutEmpty s he =>
      by_cases hs : s.stage.direction = d
      · subst hs
        exact .emptied (if_pos rfl) rfl rfl rfl he
      · exact .aside (if_neg hs).symm rfl rfl rfl rfl fun h => .inl h
  | @checkOutBeyond s e rest he hb =>
      by_cases hs : s.stage.direction = d
      · subst hs
        exact .beyond (if_pos rfl) rfl rfl rfl rfl
      · exact .aside (if_neg hs).symm rfl rfl rfl rfl fun _ => .inl rfl
  | @checkOutReady s n op rest he hb hw =>
      have restores := restores_ofSwept (d := d) (s := s) (Attempt.start_ne_notReady op)
      have snapshot : Event.snapshots d (.acted ⟨c, l⟩ (.dispatch (checkOut s)) none
          (.dispatch (ofSwept s (Attempt.start op)))) = false := rfl
      by_cases hs : s.stage.direction = d
      · subst hs
        rw [queue_withQueue]
        refine .checkedOut (if_pos rfl) ?_ snapshot restores he hb
        rw [Party.sweeps, sweeps_ofSwept]
        exact if_pos rfl
      · rw [other hs]
        refine .aside ?_ snapshot rfl rfl restores fun h => .inl ?_
        · rw [Party.sweeps, sweeps_ofSwept]
          rfl
        · rw [Party.willRearm, willRearm_ofSwept]
          exact h
  | @checkOutSkipped s n op rest he hb hw =>
      by_cases hs : s.stage.direction = d
      · -- receives and sends are wanted whatever they are
        obtain ⟨stage, bound, rest, again, pending⟩ := s
        cases stage with
        | accepts | connects => exact absurd hs.symm hd
        | receives | sends => cases hw
      · exact .aside (if_neg hs).symm rfl rfl rfl rfl fun h => .inl h
  | @attempted a s reply =>
      have sweeps : (Party.dispatch (ofSwept s ((a.call c.fd).resume reply))).sweeps d =
          (Party.dispatch (attempt a s)).sweeps d := sweeps_ofSwept s _
      have rearm : (Party.dispatch (attempt a s)).willRearm = true →
          (Party.dispatch (ofSwept s ((a.call c.fd).resume reply))).willRearm = true := by
        intro h
        rw [Party.willRearm, willRearm_ofSwept]
        exact h
      rcases ofSwept_cases s ((a.call c.fd).resume reply) with
        ⟨a', hs, -⟩ | ⟨op, pending, hs, -⟩ | ⟨op, hs, hr⟩ <;>
        rw [hs] at sweeps rearm ⊢
      · exact .aside sweeps rfl rfl rfl rfl fun h => .inl (rearm h)
      · exact .aside sweeps rfl rfl rfl rfl fun h => .inl (rearm h)
      · have key : op.key = a.op.key := by
          have := Attempt.key_resume a c.fd reply
          rw [hr] at this
          exact this
        by_cases hd : s.stage.direction = d
        · refine .unreadyHead sweeps rfl rfl rfl (if_pos hd) ?_
          simp [Event.findsNotReady, Operation.ticket_eq_of_key key]
        · exact .aside sweeps rfl rfl rfl (if_neg hd) fun h => .inl (rearm h)
  | @restored op s n rest he =>
      by_cases hs : s.stage.direction = d
      · subst hs
        rw [queue_withQueue]
        exact .restored (if_pos rfl) rfl rfl rfl (if_pos rfl) he
      · rw [other hs]
        exact .aside (if_neg hs).symm rfl rfl rfl rfl fun h => .inl h
  | @completed op s => exact .aside rfl rfl rfl rfl rfl fun h => .inl h
  | @retired s n rest he =>
      by_cases hs : s.stage.direction = d
      · subst hs
        rw [queue_withQueue]
        exact .retired (if_pos rfl) (if_pos rfl) rfl rfl he
      · rw [other hs]
        exact .aside rfl rfl rfl rfl rfl fun h => .inl h
  | rearmed _ _ =>
      rw [queue_update rfl rfl rfl d]
      exact .aside rfl rfl rfl rfl rfl fun _ => .inr rfl

/-- A step of a plain party, seen from the receives or the sends. -/
theorem Party.Step.glance {p p' : Party} {x : Option (Exchange Call)} (h : Step c p x c' p')
    (hd : d ≠ .connection) (plain : p.Plain) (proper : p.Proper) (intact : p.Intact)
    (intact' : p'.Intact) (unstopped : ∀ e, (c.queue e).isStopped = false)
    (registered : p.inside = true → c.registered.isEmpty = false) :
    Glance d (c.queue d) (.acted ⟨c, l⟩ p x p') p p' (c'.queue d) := by
  cases h with
  | submission h => exact h.glance plain proper intact unstopped
  | attachment h => cases plain
  | closing h => cases plain
  | dispatch h => exact h.glance hd plain intact'.1 unstopped registered

end glance

end Proactor.Channel
