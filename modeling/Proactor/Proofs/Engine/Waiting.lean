import Proactor.Proofs.Engine.Startup
import Proactor.Proofs.Reactor.Batches
/-! # What the dispatch threads are told to wait

A configuration is checked in one place and taken over in others, where numbers are brought into
their ranges again and the longest wait is cut to whole milliseconds.

* **Waits** (`Reactor.wait?`).  What a dispatch thread asks for when it waits.
* **Settings** (`Reactor.Run.settings`).  Nothing that happens on a reactor changes them.
* **The law** (`Engine.runs_as_configured`).  No number of a valid configuration is changed, and a
  wait has a length exactly if the configuration asks for a millisecond at least.  A valid wait that
  is shorter becomes none at all (`Engine.half_millisecond_never_sleeps`). -/

namespace Proactor.Reactor

/-- What a wait is asked for. -/
structure Wait where
  queue : Descriptor
  maxEvents : Nat
  /-- Milliseconds; the kernel answers at once if there are none. -/
  timeout : Nat
deriving DecidableEq

/-- The wait that is asked for. -/
def wait? : Option (Exchange Call) → Option Wait
  | some ⟨.system (.wait queue maxEvents timeout), _⟩ => some ⟨queue, maxEvents, timeout⟩
  | _ => none

/-- A dispatch thread that is about to wait. -/
def Party.isWaiting : Party → Bool
  | .dispatcher d => d.loop.isWaiting
  | _ => false

/-- The wait that every dispatch thread of a reactor asks for. -/
def settings (r : Reactor) : Wait := ⟨r.queue, r.maxEvents, r.timeout⟩

variable {r r' : Reactor} {k k' : Watched} {x : Option (Exchange Call)} {n : Nat}
  {t : List Occurrence} {s : System}

theorem settings_putBack (r : Reactor) (fd : Descriptor) (previous : Option Handler) :
    (r.putBack fd previous).settings = r.settings := by
  cases previous <;> rfl

theorem Registering.settings {c : Registering} {turn : Turn Reactor Registering}
    (yields : (c.next r).Yields r x turn) :
    turn.state.settings = r.settings ∧ wait? x = none := by
  cases c with
  | enter fd interest h =>
      cases yields
      exact ⟨rfl, rfl⟩
  | add fd interest previous =>
      cases yields with
      | ask _ _ answer =>
          refine ⟨?_, rfl⟩
          cases answer with
          | ok _ => rfl
          | error raw =>
              dsimp only [afterAdd, Except.mapError]
              split
              · rfl
              · exact settings_putBack r fd previous
  | modify fd interest previous =>
      cases yields with
      | ask _ _ answer =>
          refine ⟨?_, rfl⟩
          cases answer with
          | ok _ => rfl
          | error raw => exact settings_putBack r fd previous
  | ended result => cases yields

theorem Unregistering.settings {c : Unregistering} {turn : Turn Reactor Unregistering}
    (yields : (c.next r).Yields r x turn) :
    turn.state.settings = r.settings ∧ wait? x = none := by
  cases c with
  | enter fd remaining =>
      rw [next] at yields
      split at yields <;> cases yields <;> exact ⟨rfl, rfl⟩
  | delete fd | narrow fd remaining =>
      cases yields with
      | ask _ _ answer => cases answer <;> exact ⟨rfl, rfl⟩
  | ended result => cases yields

theorem Loop.wait?_of_yields {loop : Loop} {turn : Turn Reactor Loop}
    (yields : (loop.next r).Yields r x turn) :
    wait? x = if loop.isWaiting then some r.settings else none := by
  cases loop with
  | check | deliver _ _ _ _ =>
      cases yields
      rfl
  | wait =>
      cases yields
      rfl
  | batch events =>
      cases events with
      | nil =>
          cases yields
          rfl
      | cons e rest =>
          obtain ⟨rfl, -⟩ := Loop.yields_batch yields
          rfl
  | ended => cases yields

theorem Party.Acts.settings {q q' : Party} (acts : q.Acts r k x r' k' q') :
    r'.settings = r.settings ∧ wait? x = if q.isWaiting then some r.settings else none := by
  cases q with
  | dispatcher d =>
      obtain ⟨rfl, -⟩ := Dispatcher.step_of_acts acts
      refine ⟨rfl, ?_⟩
      cases acts with
      | fetch yields | dispatch yields => exact Loop.wait?_of_yields yields
  | registering c =>
      cases acts with
      | register yields => exact Registering.settings yields
  | unregistering c =>
      cases acts with
      | unregister yields => exact Unregistering.settings yields

/-- Nothing that happens on a reactor changes its settings. -/
theorem Run.settings (run : Run r n t s) : s.reactor.settings = r.settings := by
  induction run with
  | start => rfl
  | join _ _ ih => exact ih
  | act _ _ acts ih => exact acts.settings.1.trans ih
  | close _ _ ih => exact ih
  | stop _ ih => exact ih

/-- A wait is asked for with the settings of the reactor, by a dispatch thread that is about to
wait. -/
theorem Run.wait?_of_acted (run : Run r n t s) {s' : System} {i : Nat} {q q' : Party}
    (acted : .acted s' i q x q' ∈ t) :
    wait? x = if q.isWaiting then some r.settings else none := by
  obtain ⟨newer, older, rfl⟩ := List.append_of_mem acted
  obtain ⟨s'', later⟩ := run.earlier
  cases later with
  | act before _ acts =>
      rw [← before.settings]
      exact acts.settings.2

/-- A dispatch thread waits, and the kernel has no event for it. -/
theorem exists_wait (r : Reactor) (some : 0 < n) : ∃ t s, Run r n t s ∧
    ∃ s' i q x q', .acted s' i q x q' ∈ t ∧ wait? x = .some r.settings := by
  have first : (List.replicate n (Party.dispatcher {}))[0]? = .some (.dispatcher {}) := by
    rw [List.getElem?_replicate, if_pos some]
  have checked := Run.act (.start (r := r)) first (.dispatch (.step _) rfl)
  have waiting : ((List.replicate n (Party.dispatcher {})).set 0
      (.dispatcher ⟨.wait, none, []⟩))[0]? = .some (.dispatcher ⟨.wait, none, []⟩) := by
    rw [List.getElem?_set_self (by simpa using some)]
  have waited := checked.act waiting
    (.fetch (.ask _ _ (.ok [] : Except Int (List Proactor.Event))) rfl (Nat.zero_le _) .nil)
  exact ⟨_, _, waited, _, 0, _, _, _, List.mem_cons_self .., rfl⟩

end Proactor.Reactor

namespace Proactor.Engine

open Reactor (wait? maxTimeout)

/-- An engine with the numbers of its configuration. -/
structure RunsAs (c : Config) (e : Engine) : Prop where
  workers : e.pool.size = c.workers ∧ e.workers.length = c.workers
  dispatchers : e.dispatchers.length = c.dispatchers
  /-- Whatever happens on the reactor, its dispatch threads ask for the same wait, and nobody else
  waits. -/
  waits : ∀ t s, Reactor.Run e.reactor e.dispatchers.length t s → ∀ s' i q x q',
    .acted s' i q x q' ∈ t → wait? x = if q.isWaiting then
      some ⟨e.reactor.queue, c.maxEvents, min c.wait.milliseconds maxTimeout⟩ else none
  events : 1 ≤ c.maxEvents ∧ c.maxEvents ≤ 2147483647
  /-- A wait has a length if one of a millisecond at least is configured. -/
  sleeps : 1 ≤ min c.wait.milliseconds maxTimeout ↔ 1000000 ≤ c.wait.nanoseconds

theorem settings_plan {c : Config} (valid : c.check = .ok ()) (queue counter : Descriptor) :
    ((plan c).reactor queue counter).settings =
      ⟨queue, c.maxEvents, min c.wait.milliseconds maxTimeout⟩ := by
  obtain ⟨-, -, ⟨some, -⟩, -⟩ := Config.ranges valid
  exact congrArg (Reactor.Wait.mk queue · _) (Nat.max_eq_left some)

/-- An engine that is started was made of the parts that its configuration asks for. -/
theorem parts_of_started {c : Config} (valid : c.check = .ok ()) {respond : Responder Host.Call}
    {e : Engine} (started : ((start c).record respond).1 = .ok e) :
    ∃ queue counter, e = ofParts c (.new c.workers) ((plan c).reactor queue counter) := by
  have told := Program.transcript_record respond (start c)
  rw [started] at told
  cases Setup.did_start valid told with
  | whole did made =>
      obtain ⟨queue, counter, parts, -⟩ := made
      exact ⟨queue, counter, parts⟩

/-- Whatever the host answers: an engine that is started has the numbers of its configuration. -/
theorem runs_as_configured (c : Config) (valid : c.check = .ok ()) (respond : Responder Host.Call)
    (e : Engine) (started : ((start c).record respond).1 = .ok e) : RunsAs c e := by
  obtain ⟨queue, counter, rfl⟩ := parts_of_started valid started
  obtain ⟨-, -, events, -⟩ := Config.ranges valid
  constructor
  case workers => exact ⟨Setup.size_new c.workers, Setup.workers_ofParts ..⟩
  case dispatchers => exact Setup.dispatchers_ofParts valid ..
  case waits =>
    intro t s run s' i q x q' acted
    rw [run.wait?_of_acted acted]
    exact congrArg (if q.isWaiting then some · else none) (settings_plan valid queue counter)
  case events => exact events
  case sleeps =>
    rw [Duration.milliseconds, maxTimeout]
    omega

/-- A longest wait of half a millisecond. -/
def halfMillisecond : Config := ⟨2, 1, 256, ⟨500000⟩, .ofMilliseconds 10, true⟩

/-- A host that grants everything. -/
def granting : Responder Host.Call := fun _ => Host.over Setup.kernel

theorem started_halfMillisecond : ∃ e, ((start halfMillisecond).record granting).1 = .ok e := by
  have started : ((start halfMillisecond).record granting).1.toBool = true := by decide +kernel
  cases result : ((start halfMillisecond).record granting).1 with
  | error _ =>
      rw [result] at started
      cases started
  | ok e => exact ⟨e, rfl⟩

theorem runs_as_half_millisecond : halfMillisecond.check = .ok () ∧
    ∃ e, ((start halfMillisecond).record granting).1 = .ok e ∧ RunsAs halfMillisecond e := by
  have valid : halfMillisecond.check = .ok () := rfl
  obtain ⟨e, started⟩ := started_halfMillisecond
  exact ⟨valid, e, started, runs_as_configured halfMillisecond valid granting e started⟩

/-- A valid wait of half a millisecond is none at all: the kernel is asked to answer at once. -/
theorem half_millisecond_never_sleeps : halfMillisecond.check = .ok () ∧
    ∃ e, ((start halfMillisecond).record granting).1 = .ok e ∧
      ∃ t s, Reactor.Run e.reactor e.dispatchers.length t s ∧
        ∃ s' i q x q', .acted s' i q x q' ∈ t ∧ wait? x = some ⟨e.reactor.queue, 256, 0⟩ := by
  have valid : halfMillisecond.check = .ok () := rfl
  obtain ⟨e, started⟩ := started_halfMillisecond
  obtain ⟨queue, counter, rfl⟩ := parts_of_started valid started
  refine ⟨valid, _, started, ?_⟩
  rw [Setup.dispatchers_ofParts valid]
  exact Reactor.exists_wait _ Nat.zero_lt_one

end Proactor.Engine
