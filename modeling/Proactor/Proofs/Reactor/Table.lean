import Proactor.Engine.Run
import Proactor.Proofs.Reactor.Batches
import Proactor.Proofs.Transcripts
/-! # The table of handlers

A registration puts its handler into the table before it asks the kernel, and so has something to
undo where the kernel refuses.

* **Calls** (`Engine.calls`).  Registrations and unregistrations one after another, each answered by
  somebody who answers as he likes.
* **Reference** (`told?`).  What a history of calls and their results says of a descriptor: its last
  registration that succeeded, unless it was dropped since.
* **Courses** (`Command.Course`).  What the kernel is asked by a call; its last answer is the
  result.
* **The law** (`Engine.table_follows`).  The table holds what the history says, and nothing else; a
  call that fails leaves it as it was. -/

namespace Proactor

/-! ### Runs of the reactor's activities -/

namespace Engine.Run

/-- An engine that is carried on while requests are made to the host. -/
abbrev Carried : Type → Type := StateT Engine (Program Host.Call)

section runs
variable {deliver : Handler → Readiness → Carried Bool} {φ : Type}
  {next : Reactor → φ → Next Reactor.Call Reactor φ} {phase : φ} {fuel : Nat} {e : Engine}
  {t : List (Exchange Host.Call)} {x : φ × Engine}

theorem run_get : (reactor deliver).get.run e = pure (e.reactor, e) := rfl

theorem run_set (r : Reactor) :
    ((reactor deliver).set r).run e = pure ((), { e with reactor := r }) := rfl

theorem run_answer (call : SystemCall) : ((reactor deliver).answer (.system call)).run e =
    Program.request (Host.Call.system call) >>= fun reply => pure (reply, e) := rfl

theorem transcript_write {lines : List Log.Entry} {y : Unit × Engine}
    (h : ((lines.forM write : Carried Unit).run e).Transcript t y) : t = [] ∧ y = ((), e) := by
  induction lines generalizing t with
  | nil => exact Program.transcript_pure_iff.mp h
  | cons entry lines ih =>
      cases h with
      | note _ rest => exact ih rest

/-- A turn that is taken over asks for nothing. -/
theorem transcript_settle {turn : Turn Reactor φ}
    (h : ((Activity.settle (reactor deliver) turn).run e).Transcript t x) :
    t = [] ∧ x = (turn.phase, { e with reactor := turn.state }) := by
  simp only [Activity.settle, StateT.run_bind, run_set, pure_bind] at h
  obtain ⟨t₁, t₂, y, rfl, written, later⟩ := Program.transcript_bind_iff.mp h
  obtain ⟨rfl, rfl⟩ := transcript_write written
  exact Program.transcript_pure_iff.mp later

/-- The activity with the given number of steps left. -/
def onward (deliver : Handler → Readiness → Carried Bool)
    (next : Reactor → φ → Next Reactor.Call Reactor φ) (fuel : Nat) (phase : φ) : Carried φ :=
  Activity.runFor (reactor deliver) next (fun _ => false) fuel phase

theorem transcript_ended (ended : next e.reactor phase = .ended)
    (h : ((onward deliver next (fuel + 1) phase).run e).Transcript t x) :
    t = [] ∧ x = (phase, e) := by
  simp only [onward, Activity.runFor, Bool.false_eq_true, if_false, StateT.run_bind, run_get,
    pure_bind, ended] at h
  exact Program.transcript_pure_iff.mp h

theorem transcript_step {turn : Turn Reactor φ} (step : next e.reactor phase = .step turn)
    (h : ((onward deliver next (fuel + 1) phase).run e).Transcript t x) :
    ((onward deliver next fuel turn.phase).run { e with reactor := turn.state }).Transcript t x := by
  simp only [onward, Activity.runFor, Bool.false_eq_true, if_false, StateT.run_bind, run_get,
    pure_bind, step] at h
  obtain ⟨t₁, t₂, y, rfl, settled, later⟩ := Program.transcript_bind_iff.mp h
  obtain ⟨rfl, rfl⟩ := transcript_settle settled
  exact later

theorem transcript_ask {call : SystemCall} {resume : call.Reply → Reactor → Turn Reactor φ}
    (ask : next e.reactor phase = .ask (.system call) resume)
    (h : ((onward deliver next (fuel + 1) phase).run e).Transcript t x) :
    ∃ (reply : call.Reply) (t' : List (Exchange Host.Call)), t = ⟨.system call, reply⟩ :: t' ∧
      ((onward deliver next fuel (resume reply e.reactor).phase).run
        { e with reactor := (resume reply e.reactor).state }).Transcript t' x := by
  simp only [onward, Activity.runFor, Bool.false_eq_true, if_false, StateT.run_bind, run_get,
    pure_bind, ask, run_answer] at h
  cases h with
  | ask reply rest =>
      change ((Activity.settle (reactor deliver) (resume reply e.reactor)).run e >>= fun y =>
        (onward deliver next fuel y.1).run y.2).Transcript _ x at rest
      obtain ⟨t₁, t₂, y, rfl, settled, later⟩ := Program.transcript_bind_iff.mp rest
      obtain ⟨rfl, rfl⟩ := transcript_settle settled
      exact ⟨reply, _, rfl, later⟩

end runs
end Engine.Run

namespace Reactor

open Engine.Run (Carried onward)

/-! ### Calls -/

/-- A call by which a descriptor is registered or unregistered. -/
inductive Command where
  | register (fd : Descriptor) (interest : Readiness) (handler : Handler)
  | unregister (fd : Descriptor) (remaining : Readiness)

/-- The event queue is asked for a change. -/
def watching (queue : Descriptor) (change : Watch) (answer : Except Int Unit) :
    Exchange Host.Call :=
  ⟨.system (.watch queue change), answer⟩

namespace Command

/-- Carry a call out. -/
def carryOut : Command → Carried (Except Errno Unit)
  | register fd interest h => Engine.Run.register fd interest h
  | unregister fd remaining => Engine.Run.unregister fd remaining

/-- What the event queue is asked by a call, and that its last answer is the result.  A descriptor
that is there already is asked for anew. -/
inductive Course (queue : Descriptor) :
    Command → List (Exchange Host.Call) → Except Errno Unit → Prop
  | added {fd : Descriptor} {interest : Readiness} {h : Handler} (answer : Except Int Unit)
      (notPresent : answer ≠ .error 17) :
      Course queue (register fd interest h)
        [watching queue (.add fd (toKernel interest) (token fd)) answer] (answer.mapError .ofRaw)
  | askedAnew {fd : Descriptor} {interest : Readiness} {h : Handler} (answer : Except Int Unit) :
      Course queue (register fd interest h)
        [watching queue (.add fd (toKernel interest) (token fd)) (.error 17),
          watching queue (.modify fd (toKernel interest) (token fd)) answer]
        (answer.mapError .ofRaw)
  | deleted {fd : Descriptor} {remaining : Readiness} (nothing : remaining.wanted.isEmpty = true)
      (answer : Except Int Unit) :
      Course queue (unregister fd remaining) [watching queue (.delete fd) answer]
        (answer.mapError .ofRaw)
  | narrowed {fd : Descriptor} {remaining : Readiness} (some : remaining.wanted.isEmpty = false)
      (answer : Except Int Unit) :
      Course queue (unregister fd remaining)
        [watching queue (.modify fd (toKernel remaining) (token fd)) answer]
        (answer.mapError .ofRaw)

/-- A call after which the descriptor has no handler, whatever the kernel says. -/
def Drops (fd : Descriptor) : Command → Prop
  | register .. => False
  | unregister fd' remaining => fd' = fd ∧ remaining.wanted.isEmpty = true

/-- A call that succeeds in giving a descriptor a handler. -/
def Gives (fd : Descriptor) (h : Handler) (command : Command) (result : Except Errno Unit) : Prop :=
  (∃ interest, command = register fd interest h) ∧ result = .ok ()

end Command

/-- The reactor after a call with the given result. -/
def after (r : Reactor) : Command → Except Errno Unit → Reactor
  | .register fd _ h, .ok () => r.install fd h
  | .register fd _ h, .error _ => (r.install fd h).putBack fd (r.handler? fd)
  | .unregister fd remaining, _ => if remaining.wanted.isEmpty then r.forget fd else r

theorem after_unregister (r : Reactor) (fd : Descriptor) (remaining : Readiness)
    (result : Except Errno Unit) : r.after (.unregister fd remaining) result =
      if remaining.wanted.isEmpty then r.forget fd else r := by
  cases result <;> rfl

section calls
variable {deliver : Handler → Readiness → Carried Bool} {fuel : Nat} {e : Engine}
  {fd : Descriptor} {interest remaining : Readiness} {previous : Option Handler}
  {t : List (Exchange Host.Call)}

/-- The reactor after the kernel's last answer to a registration. -/
def settled (r : Reactor) (fd : Descriptor) (previous : Option Handler) :
    Except Errno Unit → Reactor
  | .ok () => r
  | .error _ => r.putBack fd previous

theorem Registering.transcript_modify {y : Registering × Engine}
    (h : ((onward deliver next (fuel + 2) (modify fd interest previous)).run e).Transcript t y) :
    ∃ answer : Except Int Unit,
      t = [watching e.reactor.queue (.modify fd (toKernel interest) (token fd)) answer] ∧
      y.1.result = answer.mapError .ofRaw ∧
      y.2 = { e with reactor := e.reactor.settled fd previous y.1.result } := by
  obtain ⟨answer, t', rfl, later⟩ := Engine.Run.transcript_ask rfl h
  refine ⟨answer, ?_⟩
  cases answer with
  | ok _ =>
      obtain ⟨rfl, rfl⟩ := Engine.Run.transcript_ended rfl later
      exact ⟨rfl, rfl, rfl⟩
  | error raw =>
      obtain ⟨rfl, rfl⟩ := Engine.Run.transcript_ended rfl later
      exact ⟨rfl, rfl, rfl⟩

theorem Registering.transcript_add {y : Registering × Engine} {h : Handler}
    (told : ((onward deliver next (fuel + 3) (add fd interest previous)).run e).Transcript t y) :
    Command.Course e.reactor.queue (.register fd interest h) t y.1.result ∧
      y.2 = { e with reactor := e.reactor.settled fd previous y.1.result } := by
  obtain ⟨answer, t', rfl, later⟩ := Engine.Run.transcript_ask rfl told
  cases answer with
  | ok _ =>
      obtain ⟨rfl, rfl⟩ := Engine.Run.transcript_ended rfl later
      exact ⟨.added (.ok ()) nofun, rfl⟩
  | error raw =>
      dsimp only [afterAdd, Except.mapError] at later
      split at later
      -- the second request decides, so the handler stays in the table until then
      case isTrue present =>
        obtain rfl : raw = 17 := (Errno.ofRaw_eq_iff (by decide) raw).mp present
        obtain ⟨answer, rfl, result, state⟩ := transcript_modify later
        exact ⟨result ▸ .askedAnew answer, state⟩
      case isFalse other =>
        obtain ⟨rfl, rfl⟩ := Engine.Run.transcript_ended rfl later
        refine ⟨.added (.error raw) fun present => other ?_, rfl⟩
        cases present
        rfl

theorem Unregistering.transcript_finish {y : Unregistering × Engine} {change : Watch}
    {line : String} {phase : Unregistering}
    (asks : next e.reactor phase =
      .ask (.system (.watch e.reactor.queue change)) fun reply r => finish line reply r)
    (told : ((onward deliver next (fuel + 2) phase).run e).Transcript t y) :
    ∃ answer : Except Int Unit, t = [watching e.reactor.queue change answer] ∧
      y.1.result = answer.mapError .ofRaw ∧ y.2 = e := by
  obtain ⟨answer, t', rfl, later⟩ := Engine.Run.transcript_ask asks told
  refine ⟨answer, ?_⟩
  cases answer with
  | ok _ =>
      obtain ⟨rfl, rfl⟩ := Engine.Run.transcript_ended rfl later
      exact ⟨rfl, rfl, rfl⟩
  | error raw =>
      obtain ⟨rfl, rfl⟩ := Engine.Run.transcript_ended rfl later
      exact ⟨rfl, rfl, rfl⟩

theorem run_eq_onward {φ : Type} {next : Reactor → φ → Next Call Reactor φ} (phase : φ) :
    Activity.run (Engine.Run.reactor deliver) next phase =
      onward deliver next (999999999996 + 4) phase := rfl

/-- What a call asks, and what it leaves of the engine. -/
theorem Command.transcript_carryOut {command : Command} {x : Except Errno Unit × Engine}
    (told : (command.carryOut.run e).Transcript t x) :
    Course e.reactor.queue command t x.1 ∧
      x.2 = { e with reactor := e.reactor.after command x.1 } := by
  cases command with
  | register fd interest h =>
      rw [carryOut, Engine.Run.register, StateT.run_bind, run_eq_onward] at told
      obtain ⟨t₁, t₂, y, rfl, ran, ended⟩ := Program.transcript_bind_iff.mp told
      obtain ⟨rfl, rfl⟩ := Program.transcript_pure_iff.mp ended
      obtain ⟨course, state⟩ :=
        Registering.transcript_add (h := h) (Engine.Run.transcript_step rfl ran)
      rw [List.append_nil]
      refine ⟨course, state.trans ?_⟩
      cases y.1.result <;> rfl
  | unregister fd remaining =>
      rw [carryOut, Engine.Run.unregister, StateT.run_bind, run_eq_onward] at told
      obtain ⟨t₁, t₂, y, rfl, ran, ended⟩ := Program.transcript_bind_iff.mp told
      obtain ⟨rfl, rfl⟩ := Program.transcript_pure_iff.mp ended
      rw [List.append_nil]
      cases nothing : remaining.wanted.isEmpty with
      | true =>
          have entered : Unregistering.next e.reactor (.enter fd remaining) =
              .step ⟨e.reactor.forget fd, .delete fd, []⟩ := if_pos nothing
          obtain ⟨answer, rfl, result, state⟩ :=
            Unregistering.transcript_finish rfl (Engine.Run.transcript_step entered ran)
          refine ⟨result ▸ .deleted nothing answer, state.trans ?_⟩
          rw [after_unregister, if_pos nothing]
      | false =>
          have entered : Unregistering.next e.reactor (.enter fd remaining) =
              .step ⟨e.reactor, .narrow fd remaining, []⟩ := if_neg (by simp [nothing])
          obtain ⟨answer, rfl, result, state⟩ :=
            Unregistering.transcript_finish rfl (Engine.Run.transcript_step entered ran)
          refine ⟨result ▸ .narrowed nothing answer, state.trans ?_⟩
          rw [after_unregister, if_neg (by simp [nothing])]

end calls

/-! ### The table after a call -/

section table
variable {r : Reactor} {fd fd' : Descriptor} {h : Handler} {command : Command}
  {result : Except Errno Unit}

/-- No descriptor has two handlers. -/
def Single (r : Reactor) : Prop := (r.handlers.map (·.1)).Nodup

theorem Single.forget (single : r.Single) (fd : Descriptor) : (r.forget fd).Single :=
  single.sublist ((List.filter_sublist (p := _)).map _)

theorem Single.install (single : r.Single) (fd : Descriptor) (h : Handler) :
    (r.install fd h).Single := by
  refine List.nodup_cons.mpr ⟨?_, single.forget fd⟩
  simp [Reactor.forget]

theorem Single.putBack (single : r.Single) (fd : Descriptor) (previous : Option Handler) :
    (r.putBack fd previous).Single := by
  cases previous with
  | none => exact single.forget fd
  | some h => exact single.install fd h

theorem Single.after (single : r.Single) (command : Command) (result : Except Errno Unit) :
    (r.after command result).Single := by
  cases command with
  | register fd interest h =>
      cases result with
      | ok _ => exact single.install fd h
      | error _ => exact (single.install fd h).putBack fd _
  | unregister fd remaining =>
      rw [after_unregister]
      split
      · exact single.forget fd
      · exact single

theorem mem_handlers_iff (single : r.Single) : (fd, h) ∈ r.handlers ↔ r.handler? fd = some h := by
  constructor
  · intro hm
    obtain ⟨p, hp⟩ := Option.isSome_iff_exists.mp
      (List.find?_isSome (p := (·.1 == fd)).mpr ⟨_, hm, beq_self_eq_true fd⟩)
    have same : p.1 = fd := by simpa using List.find?_some hp
    have one := List.inj_on_of_nodup_map single (List.mem_of_find?_eq_some hp) hm same
    rw [handler?, hp, one, Option.map_some]
  · intro hf
    obtain ⟨p, hp, rfl⟩ := Option.map_eq_some_iff.mp hf
    have same : p.1 = fd := by simpa using List.find?_some hp
    exact same ▸ List.mem_of_find?_eq_some hp

/-- What was installed is undone. -/
theorem handler?_putBack_install (r : Reactor) (fd fd' : Descriptor) (h : Handler) :
    ((r.install fd h).putBack fd (r.handler? fd)).handler? fd' = r.handler? fd' := by
  by_cases same : fd' = fd
  · cases previous : r.handler? fd with
    | none => rw [putBack, handler?_forget, if_pos same, same, previous]
    | some h' => rw [putBack, handler?_install, if_pos same, same, previous]
  · cases r.handler? fd with
    | none => rw [putBack, handler?_forget, if_neg same, handler?_install, if_neg same]
    | some h' => rw [putBack, handler?_install, if_neg same, handler?_install, if_neg same]

/-- A call that failed leaves everybody's handler, unless it drops one. -/
theorem handler?_after_of_error {error : Errno} (keeps : ∀ fd, ¬ command.Drops fd)
    (fd : Descriptor) : (r.after command (.error error)).handler? fd = r.handler? fd := by
  cases command with
  | register fd' interest h => exact handler?_putBack_install r fd' fd h
  | unregister fd' remaining =>
      rw [after_unregister, if_neg fun nothing => keeps fd' ⟨rfl, nothing⟩]

theorem handler?_after_iff : (r.after command result).handler? fd = some h ↔
    command.Gives fd h result ∨
      ((∀ h', ¬ command.Gives fd h' result) ∧ ¬ command.Drops fd ∧ r.handler? fd = some h) := by
  cases command with
  | register fd' interest h' =>
      cases result with
      | ok _ =>
          change (r.install fd' h').handler? fd = some h ↔ _
          rw [handler?_install]
          split
          case isTrue same => simp [Command.Gives, Command.Drops, same]
          case isFalse other => simp [Command.Gives, Command.Drops, Ne.symm other]
      | error _ =>
          change ((r.install fd' h').putBack fd' (r.handler? fd')).handler? fd = some h ↔ _
          rw [handler?_putBack_install]
          simp [Command.Gives, Command.Drops]
  | unregister fd' remaining =>
      rw [after_unregister]
      split
      case isTrue nothing =>
        rw [handler?_forget]
        split
        case isTrue same => simp [Command.Gives, Command.Drops, nothing, same]
        case isFalse other => simp [Command.Gives, Command.Drops, Ne.symm other]
      case isFalse some => simp [Command.Gives, Command.Drops, some]

/-- Tables in which everybody has the same handler are equal up to order. -/
theorem handlers_perm {r' : Reactor} (single : r.Single) (single' : r'.Single)
    (same : ∀ fd, r'.handler? fd = r.handler? fd) : r'.handlers.Perm r.handlers := by
  refine (List.perm_ext_iff_of_nodup single'.of_map single.of_map).mpr fun (fd, h) => ?_
  rw [mem_handlers_iff single', mem_handlers_iff single, same]

end table

/-! ### Histories -/

/-- A call that was made: the engine before it, what it asked, and its result. -/
structure Called where
  command : Command
  before : Engine
  asked : List (Exchange Host.Call)
  result : Except Errno Unit

/-- A call gave a descriptor its handler, and no later call was told of it.  The newest call stands
first. -/
def LastGiven (history : List Called) (fd : Descriptor) (h : Handler) : Prop :=
  ∃ newer call older, history = newer ++ call :: older ∧ call.command.Gives fd h call.result ∧
    ∀ later ∈ newer, (∀ h', ¬ later.command.Gives fd h' later.result) ∧ ¬ later.command.Drops fd

theorem lastGiven_cons_iff {call : Called} {history : List Called} {fd : Descriptor} {h : Handler} :
    LastGiven (call :: history) fd h ↔ call.command.Gives fd h call.result ∨
      ((∀ h', ¬ call.command.Gives fd h' call.result) ∧ ¬ call.command.Drops fd ∧
        LastGiven history fd h) := by
  constructor
  · rintro ⟨newer, given, older, split, gives, untold⟩
    cases newer with
    | nil =>
        obtain ⟨rfl, -⟩ := List.cons.inj split
        exact .inl gives
    | cons later newer =>
        obtain ⟨rfl, rest⟩ := List.cons.inj split
        obtain ⟨notGiven, notDropped⟩ := untold call (List.mem_cons_self ..)
        exact .inr ⟨notGiven, notDropped, newer, given, older, rest, gives,
          fun later hl => untold later (List.mem_cons_of_mem _ hl)⟩
  · rintro (gives | ⟨notGiven, notDropped, newer, given, older, rfl, gives, untold⟩)
    · exact ⟨[], call, history, rfl, gives, List.forall_mem_nil _⟩
    · refine ⟨call :: newer, given, older, rfl, gives, fun later hl => ?_⟩
      rcases List.mem_cons.mp hl with rfl | hl
      · exact ⟨notGiven, notDropped⟩
      · exact untold later hl

/-- What a history of calls on an event queue says of the reactor that is left. -/
structure Reflects (queue : Descriptor) (history : List Called) (r : Reactor) : Prop where
  queue_eq : r.queue = queue
  /-- The table holds the handlers that were given last, and nothing else. -/
  holds : ∀ fd h, (fd, h) ∈ r.handlers ↔ LastGiven history fd h
  single : r.Single
  /-- The result of a call is the last answer that it got. -/
  answered : ∀ call ∈ history, call.command.Course queue call.asked call.result
  /-- A call that failed leaves the table as it was, unless it drops its descriptor. -/
  kept : ∀ call earlier, history = call :: earlier → (∃ error, call.result = .error error) →
    (∀ fd, ¬ call.command.Drops fd) → r.handlers.Perm call.before.reactor.handlers

theorem queue_after (r : Reactor) (command : Command) (result : Except Errno Unit) :
    (r.after command result).queue = r.queue := by
  cases command with
  | register fd interest h =>
      cases result with
      | ok _ => rfl
      | error _ =>
          change ((r.install fd h).putBack fd (r.handler? fd)).queue = r.queue
          cases r.handler? fd <;> rfl
  | unregister fd remaining =>
      rw [after_unregister]
      split <;> rfl

theorem Reflects.empty {r : Reactor} (empty : r.handlers = []) : Reflects r.queue [] r where
  queue_eq := rfl
  holds := by simp [empty, LastGiven]
  single := by simp [Single, empty]
  answered := List.forall_mem_nil _
  kept := by
    intro call earlier split
    cases split

/-- One more call. -/
theorem Reflects.call {queue : Descriptor} {history : List Called} {e : Engine} {command : Command}
    {t : List (Exchange Host.Call)} {x : Except Errno Unit × Engine}
    (reflects : Reflects queue history e.reactor)
    (told : (command.carryOut.run e).Transcript t x) :
    Reflects queue (⟨command, e, t, x.1⟩ :: history) x.2.reactor := by
  obtain ⟨course, state⟩ := Command.transcript_carryOut told
  have left : x.2.reactor = e.reactor.after command x.1 := congrArg Engine.reactor state
  have single := reflects.single.after command x.1
  rw [left]
  constructor
  case queue_eq => rw [queue_after, reflects.queue_eq]
  case holds =>
    intro fd h
    rw [mem_handlers_iff single, handler?_after_iff, lastGiven_cons_iff, ← reflects.holds,
      mem_handlers_iff reflects.single]
  case single => exact single
  case answered =>
    intro call hm
    rcases List.mem_cons.mp hm with rfl | hm
    · exact reflects.queue_eq ▸ course
    · exact reflects.answered call hm
  -- the order of a table may change, since a handler that is put back stands first
  case kept =>
    rintro call earlier split ⟨error, failed⟩ keeps
    obtain ⟨rfl, -⟩ := List.cons.inj split
    change x.1 = .error error at failed
    rw [failed] at single ⊢
    exact handlers_perm reflects.single single (handler?_after_of_error keeps)

end Reactor

namespace Engine

open Reactor

/-- Calls made one after another on an engine, the newest first, where each is answered by
somebody: what was called, and the engine that is left. -/
def calls (e : Engine) : List (Command × Responder Host.Call) → List Called × Engine
  | [] => ([], e)
  | (command, respond) :: earlier =>
    let past := e.calls earlier
    let made := (command.carryOut.run past.2).record respond
    (⟨command, past.2, made.2, made.1.1⟩ :: past.1, made.1.2)

theorem reflects_calls {e : Engine} (empty : e.reactor.handlers = [])
    (calls : List (Command × Responder Host.Call)) :
    Reflects e.reactor.queue (e.calls calls).1 (e.calls calls).2.reactor := by
  induction calls with
  | nil => exact .empty empty
  | cons call earlier ih => exact ih.call (Program.transcript_record call.2 _)

/-- Whatever is called and whatever the kernel answers: the table of a new reactor follows the
calls that succeed. -/
theorem table_follows_calls (c : Config) (pool : Pool Operation) (queue counter : Descriptor)
    (calls : List (Command × Responder Host.Call)) :
    let made := (ofParts c pool ((plan c).reactor queue counter)).calls calls
    Reflects queue made.1 made.2.reactor := by
  intro made
  exact reflects_calls (e := ofParts c pool ((plan c).reactor queue counter)) rfl calls

/-- The kernel gives these answers to changes of the event queue, one after another, and then grants
every change. -/
def answering (answers : List (Except Int Unit)) : Responder Host.Call := fun asked =>
  Host.over fun
    | .watch _ _ => (answers.getD asked.length (.ok ()) : Except Int Unit)
    | _ => .error 38

/-- Handler 1 takes the events of a descriptor.  Neither a registration of handler 2 that fails at
its second request nor an interest that cannot be narrowed changes that. -/
example : let made := (default : Engine).calls [
      (.unregister 10 .readable, answering [.error 2]),
      (.register 10 .readable 2, answering [.error 17, .error 12]),
      (.register 10 .readable 1, answering [])]
    made.2.reactor.handlers = [(10, 1)] ∧
      made.1.map (·.result) = [.error .noEntry, .error ⟨12⟩, .ok ()] := by
  exact ⟨rfl, rfl⟩

end Engine
end Proactor
