import Proactor.Proofs.Stream
/-! # The descriptor after its release

Once a close has begun to release the descriptor, its number may belong to another socket.

* **Touching** (`Event.touches`).  A step makes a system call that names the descriptor, or a
  request to the reactor about it.
* **Releasing** (`ReleaseBegun`).  A close has stopped the queues and releases the descriptor now,
  or a release has taken place.
* **Sealed** (`Sealed`).  After a stop the queues stay stopped and the channel does not join the
  reactor again.  So nobody begins an attempt, and whoever touches the descriptor is a submission
  that has been in its attempt ever since (`Run.attempting_since`).
* **Through the socket.**  The first close waits for the submissions, so that none is in its
  attempt when the release begins (`Run.quiet`). -/

namespace Proactor

namespace Watch

/-- The descriptor that is watched. -/
def fd : Watch → Descriptor
  | add fd _ _ | modify fd _ _ | delete fd => fd

end Watch

/-- The call names this descriptor. -/
def SystemCall.names (d : Descriptor) : SystemCall → Bool
  | .socket .. | .eventQueue .. | .eventCounter .. => false
  | .close fd | .getFlags fd | .setFlags fd _ | .bind fd _ | .connect fd _ | .listen fd _
  | .localAddress fd _ | .accept fd _ _ | .receive fd _ _ _ | .send fd _ _ _ | .available fd
  | .pendingError fd | .setOption fd _ _ _ | .write fd _ | .wait fd _ _ => fd == d
  | .watch queue change => queue == d || change.fd == d

theorem Readiness.eq_none_of_isEmpty {a : Readiness} (h : a.isEmpty = true) : a = .none := by
  cases a
  exact congrArg Readiness.mk (eq_of_beq h)

/-- Every call of an attempt is about the descriptor of its channel. -/
theorem Attempt.names_call (a : Attempt) (fd : Descriptor) :
    (a.call fd).request.names fd = true := by
  obtain ⟨⟨ticket, status, work⟩, readable⟩ := a
  cases work with
  | receive t => cases readable <;> exact beq_self_eq_true fd
  | _ => exact beq_self_eq_true fd

namespace Channel

/-! ### Touching and releasing -/

namespace Call

/-- The request is about this descriptor: a system call that names it, or a word to the reactor. -/
def touches (d : Descriptor) : Call → Bool
  | system call => call.names d
  | register fd _ | unregister fd _ => fd == d
  | schedule .. | release _ => false

/-- The request releases the descriptor. -/
def releases : Call → Bool
  | release _ => true
  | _ => false

end Call

namespace Event

/-- Who began or took a step. -/
def party : Event → Party
  | joined _ p | acted _ p _ _ => p

/-- The step makes a request about the descriptor. -/
def touches : Event → Bool
  | joined .. => false
  | acted s _ x _ => x.any (·.request.touches s.channel.fd)

/-- The step releases the descriptor. -/
def releases : Event → Bool
  | joined .. => false
  | acted _ _ x _ => x.any (·.request.releases)

end Event

namespace Party

/-- The close is about to release the descriptor, or releases it right now. -/
def releases : Party → Bool
  | closing ⟨_, .release _⟩ => true
  | _ => false

/-- The submission is in its attempt. -/
def attempts : Party → Bool
  | submission _ ⟨_, .attempt _ _⟩ => true
  | _ => false

/-- A party that uses the channel itself, or the reactor's dispatch. -/
def OnChannel : Party → Prop
  | submission _ s => s.guarded = false
  | attachment _ => False
  | dispatch _ => True
  | closing k => k.ofSocket = false

instance : DecidablePred OnChannel
  | submission _ s => inferInstanceAs (Decidable (s.guarded = false))
  | attachment _ => isFalse id
  | dispatch _ => isTrue trivial
  | closing k => inferInstanceAs (Decidable (k.ofSocket = false))

end Party

/-- The release of the descriptor has begun. -/
def ReleaseBegun (t : List Event) (s : System) : Prop :=
  (∃ p ∈ s.parties, p.releases = true) ∨ ∃ e ∈ t, e.releases = true

/-- Some close has stopped the queues. -/
def System.HasShut (s : System) : Prop := ∃ p ∈ s.parties, p.hasShut = true

/-- The submission of the operation with ticket `n` is in its attempt. -/
def System.Attempting (s : System) (n : Nat) : Prop :=
  ∃ p ∈ s.parties, p.Submits n ∧ p.attempts = true

/-- Either the channel is shut, or it has never joined the reactor and will not do so. -/
def Sealed (c : Channel) : Prop :=
  (c.attached = true ∧ c.Shut) ∨ (c.attached = false ∧ c.isOpen = false)

variable {use : Party → Prop} {c c' : Channel} {l₁ l₂ : List Party} {p p' : Party}
  {x : Option (Exchange Call)} {t newer older : List Event} {s : System} {e : Event} {n : Nat}

/-! ### Steps -/

/-- Every step of a close leaves it past its stop. -/
theorem Closing.Step.hasShut {k k' : Closing} (h : Closing.Step c k x c' k') :
    (Party.closing k').hasShut = true := by
  cases h <;> rfl

theorem Party.Step.hasShut (h : Party.Step c p x c' p') (hp : p.hasShut = true) :
    p'.hasShut = true := by
  cases h with
  | closing h => exact h.hasShut
  | _ => cases hp

/-- Only a close that releases the descriptor makes the request for it. -/
theorem Party.Step.releases {request : Exchange Call} (h : Party.Step c p (some request) c' p')
    (hr : request.request.releases = true) : p.releases = true ∧ p'.hasShut = true := by
  cases h with
  | submission h => cases h <;> cases hr
  | attachment h => cases h <;> cases hr
  | dispatch h =>
      cases h with
      | hungUp _ hl => cases hl; cases hr
      | flushing hf => cases hf; cases hr
      | _ => cases hr
  | closing h =>
      cases h with
      | released _ | releasedUnattached _ => exact ⟨rfl, rfl⟩
      | stopped _ _ _ hl => cases hl; cases hr
      | flushing hf => cases hf; cases hr

theorem Party.hasShut_of_releases (h : p.releases = true) : p.hasShut = true := by
  unfold releases at h
  split at h
  · rfl
  · cases h

/-- Who can make a request about the descriptor: a submission in its attempt, a party that has the
channel join the reactor, a dispatch, or a close of a channel that the reactor knows. -/
theorem Party.Step.touches {request : Exchange Call} (h : Party.Step c p (some request) c' p')
    (ht : request.request.touches c.fd = true) :
    p.attempts = true ∨ (p.joining = true ∧ c.attached = false) ∨ p.inside = true ∨
      (c.attached = true ∧ c.registered.isEmpty = false) := by
  cases h with
  | submission h =>
      cases h with
      | attachDone ha | attachFailed ha => exact .inr (.inl ⟨rfl, ha⟩)
      | attempted _ => exact .inl rfl
      | completed => cases ht
  | attachment h =>
      cases h with
      | done ha | failed ha => exact .inr (.inl ⟨rfl, ha⟩)
  | dispatch h => cases h <;> exact .inr (.inr (.inl rfl))
  | closing h =>
      cases h with
      | @stopped b _ _ _ ha _ hl =>
          cases hl with
          | now hr _ =>
              refine .inr (.inr (.inr ⟨ha, ?_⟩))
              cases b <;> exact hr
      | released _ | releasedUnattached _ => cases ht
      | flushing hf => cases hf; cases ht

/-- An attempt begins before the channel joins an open socket's reactor, or while a queue is in
use. -/
theorem Party.Step.attempts (h : Party.Step c p x c' p') (hp' : p'.attempts = true) :
    p.attempts = true ∨ (c.attached = false ∧ c.isOpen = true) ∨
      (¬ p.Detached ∧ ∃ d, (c.queue d).isStopped = false) := by
  cases h with
  | @submission op _ _ _ _ h =>
      have free : ∀ {s : Submission} {d : Direction}, s.phase.detached = false →
          (c.queue d).isStopped = false →
          ¬ (Party.submission op s).Detached ∧ ∃ d, (c.queue d).isStopped = false := by
        intro s d hs hd
        refine ⟨fun h => ?_, d, hd⟩
        rw [Party.Detached, hs] at h
        cases h
      cases h with
      | enterEarly ha ho _ => exact .inr (.inl ⟨ha, ho⟩)
      | offerIdle hs _ => exact .inr (.inr (free rfl hs))
      | @enlistHinted _ op hs _ =>
          have used : (c.queue op.direction).isStopped = false := by simp [Queue.isStopped, hs]
          exact .inr (.inr (free rfl used))
      | attempted _ => exact .inl rfl
      | @attachJoined _ _ tried _ | @attachDone _ _ tried _ => cases tried <;> cases hp'
      | _ => cases hp'
  | _ => cases hp'

/-- The step of a submission in its attempt goes on with the same submission. -/
theorem Party.Step.submits (h : Party.Step c p x c' p') (hp' : p'.Submits n) : p.Submits n := by
  cases h with
  | @submission op sub _ _ _ h =>
      obtain ⟨_, _, he, ht⟩ := hp'
      cases he
      exact ⟨op, sub, rfl, ht⟩
  | _ =>
      obtain ⟨op, sub, he, -⟩ := hp'
      cases he

theorem Party.submits_of_attempts (h : p.attempts = true) : ∃ n, p.Submits n := by
  cases p with
  | submission op sub => exact ⟨op.ticket, op, sub, rfl, rfl⟩
  | _ => cases h

/-! ### Sealed channels -/

theorem ReleaseBegun.hasShut (run : Run use t s) (h : ReleaseBegun t s) : s.HasShut := by
  rcases h with ⟨p, hp, hr⟩ | released
  · exact ⟨p, hp, Party.hasShut_of_releases hr⟩
  · induction run with
    | start _ =>
        obtain ⟨e, he, -⟩ := released
        cases he
    | @join t s run p _ _ _ ih =>
        obtain ⟨e, he, hr⟩ := released
        rcases List.mem_cons.mp he with rfl | he
        · cases hr
        · obtain ⟨o, ho, hs⟩ := ih ⟨e, he, hr⟩
          exact ⟨o, List.mem_append_left _ ho, hs⟩
    | @act t c l₁ l₂ p run x turn yields ih =>
        have step := Party.step_of_yields yields
        obtain ⟨e, he, hr⟩ := released
        rcases List.mem_cons.mp he with rfl | he
        · cases x with
          | none => cases hr
          | some request => exact ⟨turn.phase, by simp, (step.releases hr).2⟩
        · obtain ⟨o, ho, hs⟩ := ih ⟨e, he, hr⟩
          rcases mem_middle.mp ho with rfl | ho
          · exact ⟨turn.phase, by simp, step.hasShut hs⟩
          · exact ⟨o, mem_middle.mpr (.inr ho), hs⟩

/-- A stop, or the end of the socket, seals the channel. -/
theorem Run.sealed (run : Run use t s) (h : s.channel.isOpen = false ∨ s.HasShut) :
    s.channel.Sealed := by
  have control := run.controlled
  cases ha : s.channel.attached with
  | true => exact .inl ⟨ha, control.shut ha h⟩
  | false =>
      refine .inr ⟨ha, ?_⟩
      rcases h with ho | ⟨p, hp, hs⟩
      · exact ho
      · cases p with
        | closing k =>
            obtain ⟨hk, -⟩ := (control.idle ha).2.2 _ hp
            exact control.socket k hp hk hs
        | _ => cases hs

/-- On a sealed channel nobody begins an attempt. -/
theorem Run.attempts_before (run : Run use t ⟨c, l₁ ++ p :: l₂⟩) (sealed : c.Sealed)
    (h : p.Step c x c' p') (hp' : p'.attempts = true) : p.attempts = true := by
  rcases h.attempts hp' with hp | ⟨ha, ho⟩ | ⟨used, d, hd⟩
  · exact hp
  · rcases sealed with ⟨ha', -⟩ | ⟨-, ho'⟩
    · rw [ha] at ha'
      cases ha'
    · rw [ho] at ho'
      cases ho'
  · rcases sealed with ⟨-, shut⟩ | ⟨ha, -⟩
    · rw [shut.stopped d] at hd
      cases hd
    · exact absurd ((run.controlled.idle ha).2.2 p (by simp)) used

/-- On a sealed channel only a submission in its attempt makes requests about the descriptor. -/
theorem Run.attempts_of_touches {request : Exchange Call} (run : Run use t ⟨c, l₁ ++ p :: l₂⟩)
    (sealed : c.Sealed) (h : p.Step c (some request) c' p')
    (ht : request.request.touches c.fd = true) : p.attempts = true := by
  have control := run.controlled
  have mem : p ∈ l₁ ++ p :: l₂ := by simp
  rcases h.touches ht with hp | ⟨hj, ha⟩ | hi | ⟨ha, hr⟩
  · exact hp
  · rcases sealed with ⟨ha', -⟩ | ⟨-, ho⟩
    · rw [ha] at ha'
      cases ha'
    · rw [control.closed ha ho p mem] at hj
      cases hj
  · rcases sealed with ⟨-, shut⟩ | ⟨ha, -⟩
    · have := run.orderly.dispatching hi
      rw [shut.dispatching] at this
      cases this
    · have detached := (control.idle ha).2.2 p mem
      cases p with
      | dispatch d =>
          have outside : d.inside = false := detached
          rw [Party.inside, outside] at hi
          cases hi
      | _ => cases hi
  · rcases sealed with ⟨-, shut⟩ | ⟨ha', -⟩
    · rw [shut.registered] at hr
      cases hr
    · rw [ha] at ha'
      cases ha'

/-! ### Attempts under way -/

/-- Whoever is in an attempt after a stop has been in it since then. -/
theorem Run.attempting_since (run : Run use (newer ++ e :: older) s) (shut : e.system.HasShut)
    (h : s.Attempting n) : e.system.Attempting n := by
  refine Classical.byContradiction fun before => ?_
  suffices last : s.HasShut ∧ ¬ s.Attempting n from last.2 h
  refine run.lasts (P := fun _ s => s.HasShut ∧ ¬ s.Attempting n) ?_ ?_ ⟨shut, before⟩
  · rintro t s p - begins ⟨⟨o, ho, hs⟩, none⟩
    refine ⟨⟨o, List.mem_append_left _ ho, hs⟩, ?_⟩
    rintro ⟨q, hq, hn, ha⟩
    rcases List.mem_append.mp hq with hq | hq
    · exact none ⟨q, hq, hn, ha⟩
    · rw [List.mem_singleton.mp hq] at ha
      cases begins <;> cases ha
  · rintro t c l₁ l₂ p x turn run yields ⟨shut, none⟩
    have step := Party.step_of_yields yields
    constructor
    · obtain ⟨o, ho, hs⟩ := shut
      rcases mem_middle.mp ho with rfl | ho
      · exact ⟨turn.phase, by simp, step.hasShut hs⟩
      · exact ⟨o, mem_middle.mpr (.inr ho), hs⟩
    · rintro ⟨q, hq, hn, ha⟩
      rcases mem_middle.mp hq with rfl | hq
      · have began := run.attempts_before (run.sealed (.inr shut)) step ha
        exact none ⟨p, by simp, step.submits hn, began⟩
      · exact none ⟨q, mem_middle.mpr (.inr hq), hn, ha⟩

/-- A submission in its attempt makes a request about the descriptor with its next step. -/
theorem Run.touches_of_attempting (run : Run use t s) (h : s.Attempting n) :
    ∃ e s', Run use (e :: t) s' ∧ e.system = s ∧ e.touches = true := by
  obtain ⟨p, hp, -, ha⟩ := h
  obtain ⟨l₁, l₂, hl⟩ := List.append_of_mem hp
  obtain ⟨c, parties⟩ := s
  cases hl
  unfold Party.attempts at ha
  split at ha
  · next op g a early =>
    obtain ⟨resume, hn⟩ :=
      Party.next_of_attempt (c := c) (p := .submission op ⟨g, .attempt a early⟩) rfl
    have yields := @Next.Yields.ask Call _ Channel Party c (.system (a.call c.fd).request) resume
      (.error 0 : (a.call c.fd).request.Reply)
    rw [← hn] at yields
    exact ⟨_, _, run.act yields, rfl, a.names_call c.fd⟩
  · cases ha

/-! ### Through the socket -/

theorem Party.attempts_of_begins {attached : Bool} (h : p.Begins attached) :
    p.attempts = false ∧ p.releases = false := by
  cases h <;> exact ⟨rfl, rfl⟩

theorem Party.keepsOpen_of_attempts (h : p.attempts = true) (hp : p.ThroughSocket) :
    p.keepsOpen = true := by
  cases p with
  | submission op sub =>
      obtain ⟨g, phase⟩ := sub
      have hg : g = true := hp
      subst hg
      cases phase <;> first | rfl | cases h
  | _ => cases h

theorem Party.Step.isOpen_of_attempts (h : Party.Step c p x c' p') (hp' : p'.attempts = true) :
    c'.isOpen = c.isOpen := by
  cases h with
  | submission h => exact h.attached.1
  | _ => cases hp'

/-- Once the socket is closed, no submission is in its attempt. -/
theorem Run.quiet (run : Run Party.ThroughSocket t s) (ho : s.channel.isOpen = false) :
    ∀ p ∈ s.parties, p.attempts = false := by
  induction run with
  | start h => simp [h.parties]
  | join _ begins _ _ ih => exact forall_joined (ih ho) (Party.attempts_of_begins begins).1
  | @act t c l₁ l₂ p run x turn yields ih =>
      have step := Party.step_of_yields yields
      have intact := run.orderly.next step
      have before : ∀ o ∈ l₁ ++ p :: l₂, o.attempts = false := by
        rcases step.isOpen intact with same | ⟨unused, -, -⟩
        · exact ih (same ▸ ho)
        · -- the close waited until nobody kept the socket open
          intro o hm
          cases ha : o.attempts with
          | false => rfl
          | true =>
              have counted := run.controlled.guards.trans unused
              have keeps := Party.keepsOpen_of_attempts ha (run.throughSocket o hm)
              exact absurd keeps (List.countP_eq_zero.mp counted o hm)
      refine forall_replaced before ?_
      cases ha : turn.phase.attempts with
      | false => rfl
      | true =>
          have closed := (step.isOpen_of_attempts ha).symm.trans ho
          have := run.attempts_before (run.sealed (.inl closed)) step ha
          rw [before p (by simp)] at this
          cases this

/-- The first close of the socket comes to release the descriptor, and no other one does. -/
theorem Party.Step.released (h : Party.Step c p x c' p') (hp : p.ThroughSocket)
    (hp' : p'.Intact) :
    (x.any (·.request.releases)).toNat + p'.releases.toNat + (!c.isOpen).toNat =
      p.releases.toNat + (!c'.isOpen).toNat := by
  -- the release is begun by the step that ends the socket
  have shut : ∀ {b : Bool} {c' : Channel}, b = true → Closing.Free b c →
      c'.isOpen = (Closing.shut b c).isOpen →
      0 + 1 + (!c.isOpen).toNat = 0 + (!c'.isOpen).toNat := by
    rintro b c' rfl free ho
    rw [free.isOpen rfl, ho]
    rfl
  cases h with
  | submission h =>
      rw [h.attached.1]
      cases h <;> rfl
  | attachment h =>
      rw [h.attached.1]
      cases h <;> rfl
  | dispatch h =>
      rw [(h.attached hp'.1).1]
      cases h with
      | hungUp _ hl => cases hl <;> rfl
      | flushing hf => cases hf <;> rfl
      | _ => rfl
  | closing h =>
      cases h with
      | again _ | flushed => rfl
      | unattached free _ => exact shut hp free rfl
      | stopped free _ _ hl =>
          have same := shut hp free hl.isOpen.1
          cases hl <;> exact same
      | stopBroken _ _ => exact absurd rfl (hp' _)
      | released _ | releasedUnattached _ => rfl
      | flushing hf =>
          rw [hf.attached.1]
          cases hf <;> rfl

/-- A socket comes to release its descriptor once, when it is closed. -/
theorem Run.one_release (run : Run Party.ThroughSocket t s) :
    t.countP (·.releases) + s.parties.countP (·.releases) = (!s.channel.isOpen).toNat := by
  induction run with
  | start h =>
      rw [h.parties]
      cases h <;> rfl
  | @join t s run p begins _ _ ih =>
      rw [List.countP_append, List.countP_cons, List.countP_cons,
        (Party.attempts_of_begins begins).2]
      exact ih
  | @act t c l₁ l₂ p run x turn yields ih =>
      have step := Party.step_of_yields yields
      have intact := run.orderly.next step
      have moved := step.released (run.throughSocket p (by simp)) intact
      have one : ∀ b : Bool, (if b = true then 1 else 0) = b.toNat := by decide
      simp only [List.countP_append, List.countP_cons, Event.releases, one] at ih ⊢
      omega

/-- What the socket, its submissions and its dispatches do leaves the descriptor alone once its
release has begun.  That happens once at most, and the reactor has forgotten the channel by then. -/
theorem Run.untouched_after_release (run : Run Party.ThroughSocket t s) :
    t.countP (·.releases) + s.parties.countP (·.releases) ≤ 1 ∧
      (ReleaseBegun t s → s.channel.attached = true → s.channel.registered = .none) ∧
      ∀ newer e older, t = newer ++ e :: older → ReleaseBegun older e.system →
        e.touches = false := by
  refine ⟨run.one_release ▸ Bool.toNat_le _, ?_, ?_⟩
  · intro begun ha
    rcases run.sealed (.inr (begun.hasShut run)) with ⟨-, shut⟩ | ⟨ha', -⟩
    · exact Readiness.eq_none_of_isEmpty shut.registered
    · rw [ha] at ha'
      cases ha'
  · rintro newer e older rfl begun
    obtain ⟨o, ho, hs⟩ := begun.hasShut run.before
    have closed := run.before.closed_of_hasShut ho hs
    obtain ⟨s', run'⟩ := run.earlier
    cases run' with
    | join _ _ _ _ => rfl
    | @act t c l₁ l₂ p run₀ x turn yields =>
        cases ht : (Event.acted ⟨c, l₁ ++ p :: l₂⟩ p x turn.phase).touches with
        | false => rfl
        | true =>
            cases x with
            | none => cases ht
            | some request =>
                have attempts := run₀.attempts_of_touches (run₀.sealed (.inl closed))
                  (Party.step_of_yields yields) ht
                rw [run₀.quiet closed p (by simp)] at attempts
                cases attempts

theorem untouched_after_release_accept : ∃ t s, Run Party.ThroughSocket t s ∧
    t.countP (·.releases) + s.parties.countP (·.releases) ≤ 1 ∧ s.channel.registered = .none ∧
      ∃ e older, t = e :: older ∧ ReleaseBegun older e.system ∧ e.touches = false := by
  have runs : (replay Party.ThroughSocket (ofSocket 10)
      (acceptThenClose ++ [.join (.dispatch .readable), .act 2 notReady])).isSome = true := by rfl
  have run := run_of_isSome (.socket 10) runs
  generalize hr : (replay Party.ThroughSocket (ofSocket 10)
    (acceptThenClose ++ [.join (.dispatch .readable), .act 2 notReady])).get runs = r at run
  obtain ⟨e, older, ht, released⟩ : ∃ e older, r.1 = e :: older ∧
      older.any (·.releases) = true := by
    rw [← hr]
    exact ⟨_, _, rfl, rfl⟩
  have begun : ReleaseBegun older e.system := .inr (List.any_eq_true.mp released)
  have ended : ReleaseBegun r.1 r.2 := by
    rw [ht]
    exact .inr (List.any_eq_true.mp (by rw [List.any_cons, released, Bool.or_true]))
  have attached : r.2.channel.attached = true := by
    rw [← hr]
    rfl
  obtain ⟨once, forgotten, untouched⟩ := run.untouched_after_release
  exact ⟨r.1, r.2, run, once, forgotten ended attached, e, older, ht, begun,
    untouched [] e older ht begun⟩

/-- The answers while four bytes can be read. -/
def fourBytes : (request : Call) → Protocol.Answer request
  | .system (.available _) => Except.ok (4 : Int)
  | .system (.receive ..) => Except.ok (⟨[1, 2, 3, 4], 0, default⟩ : Received)
  | request => notReady request

/-- A receive that has asked how much can be read, and a close that releases the descriptor before
the receive goes on. -/
def receiveAcrossClose : List Choice :=
  [.join (.submission false (.receive 7 (.single (.whole [0, 0, 0, 0])) 0 none)),
    .act 0 fourBytes, .act 0 fourBytes, .join (.closing false), .act 1 notReady, .act 1 notReady]

end Channel
end Proactor
