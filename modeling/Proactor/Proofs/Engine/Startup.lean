import Proactor.Engine
import Proactor.Proofs.Engine.Holdings
import Proactor.Proofs.Pool.Steps
import Proactor.Proofs.Transcripts
/-! # Starting is all or nothing

A start opens descriptors and starts threads one after another, and each of these steps can fail.

* **Parts** (`Did`).  The effects of every part of a start on what the engine holds, and its first
  failure.
* **Threads** (`Ends`).  A thread that is told to end does so, so that it can be waited for.
* **The law** (`Engine.start_all_or_nothing`).  Either nothing failed and the engine is what was
  asked for, or the first failure is the error and nothing is held any more. -/

namespace Proactor

/-! ### Numbers of a valid configuration -/

namespace Config

variable {c : Config}

/-- The ranges of a configuration that is valid. -/
theorem ranges (valid : c.check = .ok ()) :
    (1 ≤ c.workers ∧ c.workers ≤ 64) ∧ 1 ≤ c.dispatchers ∧
      (1 ≤ c.maxEvents ∧ c.maxEvents ≤ 2147483647) ∧ 1 ≤ c.wait.nanoseconds := by
  unfold check at valid
  split_ifs at valid with noWorkers tooMany noDispatchers noEvents tooManyEvents noWait
  simp only [Duration.isZero, beq_iff_eq] at noWait
  omega

/-- The number of workers is one that a pool can have. -/
theorem clampWorkers_workers (valid : c.check = .ok ()) :
    Pool.clampWorkers c.workers = c.workers := by
  obtain ⟨⟨some, few⟩, -⟩ := ranges valid
  rw [Pool.clampWorkers, Pool.maxWorkers]
  omega

theorem threads_plan (valid : c.check = .ok ()) : (Engine.plan c).threads = c.dispatchers := by
  obtain ⟨-, some, -⟩ := ranges valid
  exact Nat.max_eq_left some

end Config

namespace Setup

/-! ### Requests -/

/-- The error of an answer. -/
def error? {α : Type} : Except Int α → Option Errno
  | .ok _ => none
  | .error raw => some (.ofRaw raw)

/-- Why a request by which something is set up has failed. -/
def failure? : Exchange Host.Call → Option SetupFailure
  | ⟨.startWorker _, answer⟩ | ⟨.startDispatcher _, answer⟩ =>
    (error? (answer : Except Int Unit)).map fun _ => .spawn
  | ⟨.system (.eventQueue _), answer⟩ => (error? (answer : Except Int Descriptor)).map .reactor
  | ⟨.system (.eventCounter _), answer⟩ => (error? (answer : Except Int Descriptor)).map .system
  | ⟨.system (.watch _ (.add ..)), answer⟩ => (error? (answer : Except Int Unit)).map .reactor
  | _ => none

/-- The effect of a request. -/
def effect? : Exchange Host.Call → Option Effect
  | ⟨.system (.eventQueue _), answer⟩ | ⟨.system (.eventCounter _), answer⟩ =>
    (answer : Except Int Descriptor).toOption.map .opens
  | ⟨.system (.close fd), _⟩ => some (.closes fd)
  | ⟨.system (.write fd _), _⟩ => some (.raises fd)
  | ⟨.startWorker i, answer⟩ =>
    (answer : Except Int Unit).toOption.map fun _ => .starts (.worker i)
  | ⟨.startDispatcher i, answer⟩ =>
    (answer : Except Int Unit).toOption.map fun _ => .starts (.dispatcher i)
  | ⟨.haltWorkers, _⟩ => some .haltsWorkers
  | ⟨.haltDispatchers, _⟩ => some .haltsDispatchers
  | ⟨.joinWorker i, _⟩ => some (.joins (.worker i))
  | ⟨.joinDispatcher i, _⟩ => some (.joins (.dispatcher i))
  | _ => none

/-! ### Parts of a start -/

/-- Requests with these effects, and with this first failure. -/
structure Did (t : List (Exchange Host.Call)) (effects : List Effect)
    (failure : Option SetupFailure) : Prop where
  effects_eq : t.filterMap effect? = effects
  failure_eq : t.findSome? failure? = failure

/-- What a program that sets something up comes to: it is there, or its parts are undone and the
first failure is the error. -/
inductive SetUp {α : Type} (whole : α → List Effect → Prop) (undone : List Effect → Prop)
    (t : List (Exchange Host.Call)) : Except SetupFailure α → Prop
  | whole {a : α} {l : List Effect} (did : Did t l none) (made : whole a l) :
      SetUp whole undone t (.ok a)
  | undone {failure : SetupFailure} {l : List Effect} (did : Did t l failure) (left : undone l) :
      SetUp whole undone t (.error failure)

theorem SetUp.imp {α : Type} {whole whole' : α → List Effect → Prop}
    {undone undone' : List Effect → Prop} {t : List (Exchange Host.Call)}
    {result : Except SetupFailure α} (set : SetUp whole undone t result)
    (makes : ∀ a l, whole a l → whole' a l) (leaves : ∀ l, undone l → undone' l) :
    SetUp whole' undone' t result := by
  cases set with
  | whole did made => exact .whole did (makes _ _ made)
  | undone did left => exact .undone did (leaves _ left)

section parts
variable {t t₁ t₂ : List (Exchange Host.Call)} {l l₁ l₂ : List Effect}
  {f f₁ f₂ : Option SetupFailure} {fd : Descriptor} {u : Unit}

theorem Did.nil : Did [] [] none := ⟨rfl, rfl⟩

theorem Did.append (first : Did t₁ l₁ f₁) (later : Did t₂ l₂ f₂) :
    Did (t₁ ++ t₂) (l₁ ++ l₂) (f₁.or f₂) := by
  constructor
  · rw [List.filterMap_append, first.effects_eq, later.effects_eq]
  · rw [List.findSome?_append, first.failure_eq, later.failure_eq]

theorem transcript_perform {call : SystemCall} {result : Except Errno call.Value}
    (h : (Host.perform call).Transcript t result) :
    ∃ reply : call.Reply, t = [⟨.system call, reply⟩] ∧ result = reply.mapError .ofRaw :=
  Program.transcript_ask_done h

theorem did_discard (h : (Reactor.discard fd).Transcript t u) : Did t [.closes fd] none := by
  obtain ⟨t₁, t₂, result, rfl, asked, later⟩ := Program.transcript_bind_iff.mp h
  obtain ⟨reply, rfl, rfl⟩ := transcript_perform asked
  obtain ⟨rfl, -⟩ := Program.transcript_pure_iff.mp later
  exact ⟨rfl, rfl⟩

theorem did_raise (h : (Reactor.raise fd).Transcript t u) : Did t [.raises fd] none := by
  obtain ⟨t₁, t₂, result, rfl, asked, later⟩ := Program.transcript_bind_iff.mp h
  obtain ⟨reply, rfl, rfl⟩ := transcript_perform asked
  cases reply with
  | ok _ =>
      obtain ⟨rfl, -⟩ := Program.transcript_pure_iff.mp later
      exact ⟨rfl, rfl⟩
  | error raw =>
      dsimp only [Except.mapError] at later
      split at later
      · obtain ⟨rfl, -⟩ := Program.transcript_pure_iff.mp later
        exact ⟨rfl, rfl⟩
      · obtain rfl := Program.transcript_log_iff.mp later
        exact ⟨rfl, rfl⟩

/-- The first `count` threads are waited for, one after another, with a line about what each came
to. -/
theorem did_joins {wait : Nat → Program Host.Call Bool} {tell : Bool → Program Host.Call Unit}
    {thread : Nat → Thread} {count : Nat}
    (waits : ∀ i t b, (wait i).Transcript t b → Did t [.joins (thread i)] none)
    (tells : ∀ b t u, (tell b).Transcript t u → t = [])
    (h : ((List.range count).forM fun i => wait i >>= tell).Transcript t u) :
    Did t ((crew thread 0 count).map .joins) none := by
  rw [List.range_eq_range'] at h
  rw [crew]
  generalize List.range' 0 count = numbers at h
  induction numbers generalizing t with
  | nil =>
      obtain ⟨rfl, -⟩ := Program.transcript_pure_iff.mp h
      exact .nil
  | cons i numbers ih =>
      obtain ⟨t₁, t₂, v, rfl, first, later⟩ := Program.transcript_bind_iff.mp h
      obtain ⟨t₃, t₄, b, rfl, waited, told⟩ := Program.transcript_bind_iff.mp first
      obtain rfl := tells b t₄ v told
      rw [List.append_nil]
      exact (waits i t₃ b waited).append (ih later)

theorem tells_unless {line : Log.Entry} (b : Bool) (t : List (Exchange Host.Call)) (u : Unit)
    (h : (unless b do Program.log line : Program Host.Call Unit).Transcript t u) : t = [] := by
  cases b with
  | true => exact (Program.transcript_pure_iff.mp h).1
  | false => exact Program.transcript_log_iff.mp h

theorem did_joinWorker (i : Nat) (t : List (Exchange Host.Call)) (b : Bool)
    (h : (Host.joinWorker i).Transcript t b) : Did t [.joins (.worker i)] none := by
  obtain rfl := Program.transcript_request_iff.mp h
  exact ⟨rfl, rfl⟩

theorem did_joinDispatcher (i : Nat) (t : List (Exchange Host.Call)) (b : Bool)
    (h : (Host.joinDispatcher i).Transcript t b) : Did t [.joins (.dispatcher i)] none := by
  obtain rfl := Program.transcript_request_iff.mp h
  exact ⟨rfl, rfl⟩

theorem did_awaitWorkers {count : Nat} (h : (Pool.awaitWorkers count).Transcript t u) :
    Did t ((crew .worker 0 count).map .joins) none :=
  did_joins did_joinWorker (fun _ _ _ told => (Program.transcript_pure_iff.mp told).1) h

theorem did_stopPool {count : Nat} (h : (Pool.stop count).Transcript t u) :
    Did t (endsWorkers count) none := by
  obtain ⟨t₁, t₂, v, rfl, halted, waiting⟩ := Program.transcript_bind_iff.mp h
  obtain rfl := Program.transcript_request_iff.mp halted
  obtain ⟨t₂, t₃, v, rfl, waited, told⟩ := Program.transcript_bind_iff.mp waiting
  obtain rfl := Program.transcript_log_iff.mp told
  rw [List.append_nil]
  have first : Did [⟨Host.Call.haltWorkers, ()⟩] [.haltsWorkers] none := ⟨rfl, rfl⟩
  exact first.append (did_joins did_joinWorker tells_unless waited)

theorem did_stopReactor {r : Reactor} {count : Nat} (h : (r.stop count).Transcript t u) :
    Did t (endsDispatchers r.counter count) none := by
  obtain ⟨t₁, t₂, v, rfl, halted, later⟩ := Program.transcript_bind_iff.mp h
  obtain rfl := Program.transcript_request_iff.mp halted
  obtain ⟨t₂, t₃, v, rfl, raised, later⟩ := Program.transcript_bind_iff.mp later
  obtain ⟨t₃, t₄, v, rfl, waited, told⟩ := Program.transcript_bind_iff.mp later
  obtain rfl := Program.transcript_log_iff.mp told
  rw [List.append_nil]
  have first : Did [⟨Host.Call.haltDispatchers, ()⟩] [.haltsDispatchers] none := ⟨rfl, rfl⟩
  exact first.append ((did_raise raised).append
    (did_joins did_joinDispatcher tells_unless waited))

/-- Threads are started one after another; if one cannot be started, those that were are ended. -/
theorem did_starts {go : Nat → Nat → Program Host.Call (Except SetupFailure Unit)}
    (start : Nat → Program Host.Call (Except Int Unit)) (undo : Nat → Int → Program Host.Call Unit)
    {thread : Nat → Thread} {ends : Nat → List Effect}
    (zero : ∀ i, go i 0 = pure (.ok ()))
    (succ : ∀ i n, go i (n + 1) = start i >>= fun
      | .ok () => go (i + 1) n
      | .error raw => undo i raw >>= fun _ => pure (.error .spawn))
    (starts : ∀ i t, (start i).Transcript t (.ok ()) → Did t [.starts (thread i)] none)
    (fails : ∀ i t raw, (start i).Transcript t (.error raw) → Did t [] (some .spawn))
    (undoes : ∀ i raw t u, (undo i raw).Transcript t u → Did t (ends i) none)
    {index count : Nat} {result : Except SetupFailure Unit}
    (h : (go index count).Transcript t result) :
    SetUp (fun _ l => l = (crew thread index count).map .starts)
      (fun l => ∃ m, l = (crew thread index m).map .starts ++ ends (index + m)) t result := by
  -- the threads before `index` run already, and a failure ends them together with those from it on
  induction count generalizing index t with
  | zero =>
      rw [zero] at h
      obtain ⟨rfl, rfl⟩ := Program.transcript_pure_iff.mp h
      exact .whole .nil rfl
  | succ count ih =>
      rw [succ] at h
      obtain ⟨t₁, t₂, answer, rfl, asked, later⟩ := Program.transcript_bind_iff.mp h
      cases answer with
      | ok _ =>
          have first := starts index t₁ asked
          cases ih later with
          | whole did made => exact .whole (first.append did) (made ▸ rfl)
          | undone did left =>
              obtain ⟨m, rfl⟩ := left
              have more : index + 1 + m = index + (m + 1) := by omega
              exact .undone (first.append did) ⟨m + 1, more ▸ rfl⟩
      | error raw =>
          obtain ⟨t₂, t₃, v, rfl, undone, last⟩ := Program.transcript_bind_iff.mp later
          obtain ⟨rfl, rfl⟩ := Program.transcript_pure_iff.mp last
          rw [List.append_nil]
          exact .undone ((fails index t₁ raw asked).append (undoes index raw t₂ v undone)) ⟨0, rfl⟩

theorem did_startWorkers {index count : Nat} {result : Except SetupFailure Unit}
    (h : (Pool.startWorkers index count).Transcript t result) :
    SetUp (fun _ l => l = (crew .worker index count).map .starts)
      (fun l => ∃ m, l = (crew .worker index m).map .starts ++ endsWorkers (index + m)) t result := by
  let undo (i : Nat) (raw : Int) : Program Host.Call Unit := do
    .log (.error s!"completion worker {i} spawn failed: {Errno.systemText raw}")
    Host.haltWorkers
    Pool.awaitWorkers i
  refine did_starts Host.startWorker undo (fun _ => rfl) (fun i n => ?_) (fun i t told => ?_)
    (fun i t raw told => ?_) (fun i raw t u told => ?_) h
  case refine_1 =>
    refine congrArg (Host.startWorker i >>= ·) (funext fun answer => ?_)
    cases answer <;> rfl
  case refine_2 =>
    obtain rfl := Program.transcript_request_iff.mp told
    exact ⟨rfl, rfl⟩
  case refine_3 =>
    obtain rfl := Program.transcript_request_iff.mp told
    exact ⟨rfl, rfl⟩
  case refine_4 =>
    obtain ⟨t₀, t₁, v, rfl, line, halting⟩ := Program.transcript_bind_iff.mp told
    obtain rfl := Program.transcript_log_iff.mp line
    obtain ⟨t₁, t₂, w, rfl, halted, waited⟩ := Program.transcript_bind_iff.mp halting
    obtain rfl := Program.transcript_request_iff.mp halted
    have first : Did [⟨.haltWorkers, ()⟩] [.haltsWorkers] none := ⟨rfl, rfl⟩
    exact first.append (did_awaitWorkers waited)

theorem did_startPool {n : Nat} {result : Except SetupFailure (Pool Operation)}
    (h : (Pool.start n).Transcript t result) :
    SetUp (fun pool l => pool = .new (Pool.clampWorkers n) ∧
        l = (crew .worker 0 (Pool.clampWorkers n)).map .starts)
      (fun l => ∃ m, l = (crew .worker 0 m).map .starts ++ endsWorkers m) t result := by
  obtain ⟨t₁, t₂, answer, rfl, ran, later⟩ := Program.transcript_bind_iff.mp h
  cases did_startWorkers ran with
  | whole did made =>
      obtain ⟨rfl, rfl⟩ := Program.transcript_log_pure later
      rw [List.append_nil]
      exact .whole did ⟨rfl, made⟩
  | undone did left =>
      obtain ⟨rfl, rfl⟩ := Program.transcript_pure_iff.mp later
      obtain ⟨m, rfl⟩ := left
      rw [List.append_nil]
      exact .undone did ⟨m, by rw [Nat.zero_add]⟩

section reactor
variable {r : Reactor}

/-- What disposes of a reactor with `count` dispatch threads. -/
def disposes (queue counter : Descriptor) (count : Nat) : List Effect :=
  endsDispatchers counter count ++ [.closes queue, .closes counter]

theorem did_close (h : r.close.Transcript t u) :
    Did t [.closes r.queue, .closes r.counter] none := by
  obtain ⟨t₁, t₂, v, rfl, queue, counter⟩ := Program.transcript_bind_iff.mp h
  exact (did_discard queue).append (did_discard counter)

theorem did_dispose {count : Nat} (going : r.stopped = false)
    (h : (r.dispose count).Transcript t u) :
    Did t (disposes r.queue r.counter count) none := by
  rw [Reactor.dispose, going] at h
  obtain ⟨t₁, t₂, v, rfl, stopped, closed⟩ := Program.transcript_bind_iff.mp h
  exact (did_stopReactor stopped).append (did_close closed)

theorem did_startDispatchers {index count : Nat} {result : Except SetupFailure Unit}
    (going : r.stopped = false) (h : (r.startDispatchers index count).Transcript t result) :
    SetUp (fun _ l => l = (crew .dispatcher index count).map .starts)
      (fun l => ∃ m,
        l = (crew .dispatcher index m).map .starts ++ disposes r.queue r.counter (index + m))
      t result := by
  let undo (i : Nat) (raw : Int) : Program Host.Call Unit := do
    .log (.error s!"dispatch thread {i} spawn failed: {Errno.systemText raw}")
    r.dispose i
  refine did_starts Host.startDispatcher undo (fun _ => rfl) (fun i n => ?_) (fun i t told => ?_)
    (fun i t raw told => ?_) (fun i raw t u told => ?_) h
  case refine_1 =>
    refine congrArg (Host.startDispatcher i >>= ·) (funext fun answer => ?_)
    cases answer <;> rfl
  case refine_2 =>
    obtain rfl := Program.transcript_request_iff.mp told
    exact ⟨rfl, rfl⟩
  case refine_3 =>
    obtain rfl := Program.transcript_request_iff.mp told
    exact ⟨rfl, rfl⟩
  case refine_4 =>
    obtain ⟨t₀, t₁, v, rfl, line, disposed⟩ := Program.transcript_bind_iff.mp told
    obtain rfl := Program.transcript_log_iff.mp line
    exact did_dispose going disposed

theorem did_watchCounter {queue counter : Descriptor} {result : Except SetupFailure Unit}
    (h : (Reactor.watchCounter queue counter).Transcript t result) :
    SetUp (fun _ l => l = []) (fun l => l = [.closes queue, .closes counter]) t result := by
  obtain ⟨t₁, t₂, answer, rfl, asked, later⟩ := Program.transcript_bind_iff.mp h
  obtain ⟨reply, rfl, rfl⟩ := transcript_perform asked
  cases reply with
  | ok _ =>
      obtain ⟨rfl, rfl⟩ := Program.transcript_pure_iff.mp later
      exact .whole ⟨rfl, rfl⟩ rfl
  | error raw =>
      obtain ⟨t₁, t₂, v, rfl, queueClosed, closing⟩ := Program.transcript_bind_iff.mp later
      obtain ⟨t₂, t₃, v, rfl, counterClosed, last⟩ := Program.transcript_bind_iff.mp closing
      obtain ⟨rfl, rfl⟩ := Program.transcript_pure_iff.mp last
      rw [List.append_nil]
      have first : Did [⟨.system (.watch queue (.add counter 1 Reactor.counterToken)),
        (.error raw : Except Int Unit)⟩] [] (some (.reactor (.ofRaw raw))) := ⟨rfl, rfl⟩
      exact .undone (first.append ((did_discard queueClosed).append (did_discard counterClosed))) rfl

/-- The effects of a start of a reactor that failed. -/
inductive ReactorUndone : List Effect → Prop
  | noQueue : ReactorUndone []
  | noCounter (queue : Descriptor) : ReactorUndone [.opens queue, .closes queue]
  | unwatched (queue counter : Descriptor) :
      ReactorUndone [.opens queue, .opens counter, .closes queue, .closes counter]
  | dispatchers (queue counter : Descriptor) (count : Nat) :
      ReactorUndone ([.opens queue, .opens counter] ++
        ((crew .dispatcher 0 count).map .starts ++ disposes queue counter count))

theorem did_startReactor {plan : Reactor.Plan} {result : Except SetupFailure Reactor}
    (h : (Reactor.start plan).Transcript t result) :
    SetUp (fun r l => ∃ queue counter, r = plan.reactor queue counter ∧
        l = [.opens queue, .opens counter] ++ (crew .dispatcher 0 plan.threads).map .starts)
      ReactorUndone t result := by
  obtain ⟨t₁, t₂, answer, rfl, asked, later⟩ := Program.transcript_bind_iff.mp h
  obtain ⟨reply, rfl, rfl⟩ := transcript_perform asked
  cases reply with
  | error raw =>
      obtain ⟨rfl, rfl⟩ := Program.transcript_pure_iff.mp later
      exact .undone ⟨rfl, rfl⟩ .noQueue
  | ok queue =>
      have first : Did [⟨.system (.eventQueue 524288), (.ok queue : Except Int Descriptor)⟩]
        [.opens queue] none := ⟨rfl, rfl⟩
      obtain ⟨t₂, t₃, answer, rfl, askedCounter, watching⟩ := Program.transcript_bind_iff.mp later
      obtain ⟨reply, rfl, rfl⟩ := transcript_perform askedCounter
      cases reply with
      | error raw =>
          have second : Did [⟨.system (.eventCounter SystemCall.descriptorFlags),
            (.error raw : Except Int Descriptor)⟩] [] (some (.system (.ofRaw raw))) := ⟨rfl, rfl⟩
          obtain ⟨t₄, t₅, v, rfl, closed, last⟩ := Program.transcript_bind_iff.mp watching
          obtain ⟨rfl, rfl⟩ := Program.transcript_pure_iff.mp last
          rw [List.append_nil]
          exact .undone (first.append (second.append (did_discard closed))) (.noCounter queue)
      | ok counter =>
          have second : Did [⟨.system (.eventCounter SystemCall.descriptorFlags),
            (.ok counter : Except Int Descriptor)⟩] [.opens counter] none := ⟨rfl, rfl⟩
          obtain ⟨t₄, t₅, answer, rfl, watched, starting⟩ := Program.transcript_bind_iff.mp watching
          cases did_watchCounter watched with
          | undone did left =>
              obtain rfl := left
              obtain ⟨rfl, rfl⟩ := Program.transcript_pure_iff.mp starting
              rw [List.append_nil]
              exact .undone (first.append (second.append did)) (.unwatched queue counter)
          | whole did made =>
              obtain rfl := made
              obtain ⟨t₆, t₇, answer, rfl, ran, ending⟩ := Program.transcript_bind_iff.mp starting
              cases did_startDispatchers rfl ran with
              | undone started left =>
                  obtain ⟨m, rfl⟩ := left
                  obtain ⟨rfl, rfl⟩ := Program.transcript_pure_iff.mp ending
                  rw [List.append_nil]
                  rw [Nat.zero_add] at started
                  -- the reactor that could not go on has disposed of itself
                  exact .undone (first.append (second.append (did.append started)))
                    (.dispatchers queue counter m)
              | whole started made =>
                  obtain rfl := made
                  obtain ⟨rfl, rfl⟩ := Program.transcript_log_pure ending
                  rw [List.append_nil]
                  exact .whole (first.append (second.append (did.append started)))
                    ⟨queue, counter, rfl, rfl⟩

end reactor

/-- The effects of a start of an engine that failed. -/
inductive EngineUndone (workers : Nat) : List Effect → Prop
  | pool (count : Nat) : EngineUndone workers ((crew .worker 0 count).map .starts ++ endsWorkers count)
  | reactor {l : List Effect} (undone : ReactorUndone l) :
      EngineUndone workers ((crew .worker 0 workers).map .starts ++ (l ++ endsWorkers workers))

theorem size_new (n : Nat) : (Pool.new n : Pool Operation).size = n := List.length_replicate

theorem workers_ofParts (c : Config) (r : Reactor) :
    (Engine.ofParts c (.new c.workers) r).workers.length = c.workers :=
  List.length_replicate.trans (size_new c.workers)

theorem dispatchers_ofParts {c : Config} (valid : c.check = .ok ()) (pool : Pool Operation)
    (r : Reactor) : (Engine.ofParts c pool r).dispatchers.length = c.dispatchers :=
  List.length_replicate.trans (Config.threads_plan valid)

theorem did_start {c : Config} (valid : c.check = .ok ()) {result : Except SetupFailure Engine}
    (h : (Engine.start c).Transcript t result) :
    SetUp (fun e l => ∃ queue counter,
        e = .ofParts c (.new c.workers) ((Engine.plan c).reactor queue counter) ∧
        l = (crew .worker 0 c.workers).map .starts ++
          ([.opens queue, .opens counter] ++ (crew .dispatcher 0 c.dispatchers).map .starts))
      (EngineUndone c.workers) t result := by
  rw [Engine.start, valid] at h
  obtain ⟨t₁, t₂, answer, rfl, ran, later⟩ := Program.transcript_bind_iff.mp h
  have pooled := did_startPool ran
  rw [Config.clampWorkers_workers valid] at pooled
  cases pooled with
  | undone did left =>
      obtain ⟨m, rfl⟩ := left
      obtain ⟨rfl, rfl⟩ := Program.transcript_pure_iff.mp later
      rw [List.append_nil]
      exact .undone did (.pool m)
  | whole did made =>
      obtain ⟨rfl, rfl⟩ := made
      obtain ⟨t₂, t₃, answer, rfl, going, ending⟩ := Program.transcript_bind_iff.mp later
      have reacting := did_startReactor going
      rw [Config.threads_plan valid] at reacting
      cases reacting with
      | undone failed left =>
          obtain ⟨t₃, t₄, v, rfl, stopping, last⟩ := Program.transcript_bind_iff.mp ending
          obtain ⟨rfl, rfl⟩ := Program.transcript_pure_iff.mp last
          -- the pool outlives the reactor, and its workers are all there
          have stopped := did_stopPool stopping
          rw [size_new] at stopped
          rw [List.append_nil]
          exact .undone (did.append (failed.append stopped)) (.reactor left)
      | whole running made =>
          obtain ⟨queue, counter, rfl, rfl⟩ := made
          obtain ⟨rfl, rfl⟩ := Program.transcript_log_pure ending
          rw [List.append_nil]
          exact .whole (did.append running) ⟨queue, counter, rfl, rfl⟩

end parts

/-! ### The holdings of a start -/

open Holdings

theorem ReactorUndone.keeps {h : Holdings} {l : List Effect} (undone : ReactorUndone l)
    (quiet : ∀ i, .dispatcher i ∉ h.threads) : h.Keeps l := by
  cases undone with
  | noQueue => exact ⟨h, .nil h, rfl, rfl⟩
  | noCounter queue =>
      exact ⟨_, .cons (.opens queue) (.cons (.closes rfl quiet) (.nil _)), rfl, rfl⟩
  | unwatched queue counter =>
      exact ⟨_, .cons (.opens queue) (.cons (.opens counter) (comes_closes rfl quiet)), rfl, rfl⟩
  | dispatchers queue counter count =>
      let opened : Holdings := { h with descriptors := counter ::ₘ queue ::ₘ h.descriptors }
      have opens : Comes h [.opens queue, .opens counter] opened :=
        .cons (.opens queue) (.cons (.opens counter) (.nil _))
      have ends := comes_endsDispatchers
        (h := { opened with threads := ↑(crew .dispatcher 0 count) + h.threads })
        (Multiset.mem_cons_self counter _) rfl
      exact ⟨_, opens.append ((comes_starts opened _).append (ends.append (comes_closes rfl quiet))),
        rfl, rfl⟩

theorem EngineUndone.keeps {workers : Nat} {l : List Effect} (undone : EngineUndone workers l) :
    ({} : Holdings).Keeps l := by
  cases undone with
  | pool count => exact ⟨_, (comes_starts {} _).append (comes_endsWorkers rfl), rfl, rfl⟩
  | reactor undone =>
      have quiet (i : Nat) : .dispatcher i ∉ (↑(crew .worker 0 workers) + 0 : Multiset Thread) := by
        simp [crew]
      obtain ⟨h, comes, descriptors, threads⟩ := undone.keeps quiet
          (h := { threads := ↑(crew .worker 0 workers) + 0 })
      exact ⟨_, (comes_starts {} _).append (comes.append (comes_endsWorkers threads)), descriptors,
        rfl⟩

/-! ### Threads that are told to end -/

section ends
variable {ε σ φ : Type} [Protocol ε]

/-- Where `P` holds and goes on to hold, an activity comes to its end: it never waits for a lock,
and however it is answered, it has only so many steps left. -/
inductive Ends (P : σ → Prop) (next : σ → φ → Next ε σ φ) : φ → Prop
  | intro {phase : φ} (free : ∀ s, P s → next s phase ≠ .blocked)
      (keeps : ∀ s x turn, P s → (next s phase).Yields s x turn → P turn.state)
      (later : ∀ s x turn, P s → (next s phase).Yields s x turn → Ends P next turn.phase) :
      Ends P next phase

/-- A halted pool without a job for worker `i`. -/
def Idle (i : Nat) (p : Pool Operation) : Prop := p.halted = true ∧ p.queue i = []

section phases
variable {P : σ → Prop} {next : σ → φ → Next ε σ φ} {phase : φ}

theorem Ends.ended (ended : ∀ s, P s → next s phase = .ended) : Ends P next phase := by
  constructor
  case free =>
    intro s hs blocked
    cases (ended s hs).symm.trans blocked
  all_goals
    intro s x turn hs yields
    rw [ended s hs] at yields
    cases yields

theorem Ends.step (steps : ∀ s, P s → ∃ turn, next s phase = .step turn ∧ P turn.state ∧
    Ends P next turn.phase) : Ends P next phase := by
  constructor
  case free =>
    intro s hs blocked
    obtain ⟨turn, step, -⟩ := steps s hs
    cases step.symm.trans blocked
  all_goals
    intro s x turn hs yields
    obtain ⟨turn', step, kept, ends⟩ := steps s hs
    rw [step] at yields
    cases yields
    assumption

theorem Ends.ask (asks : ∀ s, P s → ∃ r resume, next s phase = .ask r resume ∧
    ∀ answer, P (resume answer s).state ∧ Ends P next (resume answer s).phase) :
    Ends P next phase := by
  constructor
  case free =>
    intro s hs blocked
    obtain ⟨r, resume, ask, -⟩ := asks s hs
    cases ask.symm.trans blocked
  case keeps =>
    intro s x turn hs yields
    obtain ⟨r, resume, ask, answered⟩ := asks s hs
    rw [ask] at yields
    cases yields with
    | ask _ _ answer => exact (answered answer).1
  case later =>
    intro s x turn hs yields
    obtain ⟨r, resume, ask, answered⟩ := asks s hs
    rw [ask] at yields
    cases yields with
    | ask _ _ answer => exact (answered answer).2

end phases

theorem ends_worker (i : Nat) (phase : Pool.Worker Operation) :
    Ends (Idle i) (Pool.Worker.next i) phase := by
  have ended : Ends (Idle i) (Pool.Worker.next i) .ended := .ended fun _ _ => rfl
  have confirm : Ends (Idle i) (Pool.Worker.next i) .confirm :=
    .step fun p idle => ⟨_, if_pos (by rw [idle.2]; rfl), idle, ended⟩
  have check : Ends (Idle i) (Pool.Worker.next i) .check :=
    .step fun p idle => ⟨_, rfl, idle, (if_pos idle.1).symm ▸ confirm⟩
  have pop : Ends (Idle i) (Pool.Worker.next i) .pop := by
    refine .step fun p idle => ⟨⟨p, .check, []⟩, ?_, idle, check⟩
    rw [Pool.Worker.next, Pool.pop_of_nil idle.2]
  cases phase with
  | pop => exact pop
  | run job => exact .ask fun p idle => ⟨_, _, rfl, fun outcome => ⟨idle, pop⟩⟩
  | check => exact check
  | confirm => exact confirm
  | park => exact .step fun p idle => ⟨_, if_neg fun asleep => asleep.2 idle.1, idle, pop⟩
  | ended => exact ended

theorem ends_dispatcher (phase : Reactor.Loop) :
    Ends (fun r : Reactor => r.stopped = true) Reactor.Loop.next phase := by
  -- from its end backwards; only a batch is of any length, and every event makes it shorter
  have ended : Ends (fun r : Reactor => r.stopped = true) Reactor.Loop.next .ended :=
    .ended fun _ _ => rfl
  have check : Ends (fun r : Reactor => r.stopped = true) Reactor.Loop.next .check :=
    .step fun r stopped => ⟨_, rfl, stopped, (if_pos stopped).symm ▸ ended⟩
  have batch (events : List Event) :
      Ends (fun r : Reactor => r.stopped = true) Reactor.Loop.next (.batch events) := by
    induction events with
    | nil => exact .step fun r stopped => ⟨_, rfl, stopped, check⟩
    | cons e rest ih =>
        have deliver (fd : Descriptor) (h : Handler) (events : Readiness) :
            Ends (fun r : Reactor => r.stopped = true) Reactor.Loop.next
              (.deliver fd h events rest) :=
          .ask fun r stopped => ⟨_, _, rfl, fun heard => ⟨stopped, ih⟩⟩
        refine .step fun r stopped => ?_
        rw [Reactor.Loop.next]
        split
        · exact ⟨⟨r, .batch rest, []⟩, rfl, stopped, ih⟩
        · dsimp only
          cases r.handler? (Reactor.descriptor e.token) with
          | none => exact ⟨⟨r, .batch rest, _⟩, rfl, stopped, ih⟩
          | some h => exact ⟨⟨r, .deliver _ h _ rest, []⟩, rfl, stopped, deliver _ h _⟩
  cases phase with
  | check => exact check
  | wait =>
      refine .ask fun r stopped => ⟨_, _, rfl, fun reply => ?_⟩
      cases reply with
      | ok events => exact ⟨stopped, batch events⟩
      | error raw =>
          dsimp only [Reactor.Loop.afterWait, Except.mapError]
          split
          · exact ⟨stopped, check⟩
          · exact ⟨stopped, ended⟩
  | batch events => exact batch events
  | deliver fd h events rest =>
      exact .ask fun r stopped => ⟨_, _, rfl, fun heard => ⟨stopped, batch rest⟩⟩
  | ended => exact ended

end ends

/-! ### The law -/

/-- A thread that was told to end does so, wherever it stands. -/
def EndsWhenTold : Thread → Prop
  | .main => False
  | .worker i => ∀ phase, Ends (Idle i) (Pool.Worker.next i) phase
  | .dispatcher _ => ∀ phase, Ends (fun r : Reactor => r.stopped = true) Reactor.Loop.next phase

/-- Nothing is held after these effects, each of which is in order. -/
structure Undone (effects : List Effect) : Prop where
  nothingHeld : ∃ h, Comes {} effects h ∧ h.descriptors = 0 ∧ h.threads = 0
  closed : ∀ fd, effects.count (.closes fd) = effects.count (.opens fd)
  joined : ∀ thread, effects.count (.joins thread) = effects.count (.starts thread)
  ends : ∀ thread, .joins thread ∈ effects → EndsWhenTold thread

/-- An engine that was started by these effects is what was asked for. -/
structure AsAsked (c : Config) (e : Engine) (effects : List Effect) : Prop where
  pool : e.pool.size = c.workers
  workers : e.workers.length = c.workers
  dispatchers : e.dispatchers.length = c.dispatchers
  made : effects = (crew .worker 0 c.workers).map .starts ++
    ([.opens e.reactor.queue, .opens e.reactor.counter] ++
      (crew .dispatcher 0 c.dispatchers).map .starts)
  unclosed : ∀ fd, .closes fd ∉ effects

theorem undone_of_keeps {effects : List Effect} (keeps : ({} : Holdings).Keeps effects) :
    Undone effects := by
  obtain ⟨h, comes, descriptors, threads⟩ := keeps
  refine ⟨⟨h, comes, descriptors, threads⟩, fun fd => ?_, fun thread => ?_, fun thread joins => ?_⟩
  · have counts := comes.count_descriptors fd
    rw [descriptors] at counts
    omega
  · have counts := comes.count_threads thread
    rw [threads] at counts
    omega
  · obtain ⟨holdings, told⟩ := comes.told_of_joins joins
    cases thread with
    | main => cases told
    | worker i => exact ends_worker i
    | dispatcher i => exact ends_dispatcher

/-! ### A host that runs short -/

/-- A kernel that gives an event queue and a counter, and grants what is asked of them. -/
def kernel : (call : SystemCall) → call.Reply
  | .eventQueue _ => (.ok 5 : Except Int Descriptor)
  | .eventCounter _ => (.ok 6 : Except Int Descriptor)
  | .watch .. | .write .. | .close _ => (.ok () : Except Int Unit)
  | _ => .error 38

/-- A host that cannot start a second dispatch thread. -/
def shortOfThreads : Responder Host.Call := fun _ call =>
  match call with
  | .startDispatcher 1 => (.error 11 : Except Int Unit)
  | call => Host.over kernel call

/-- Two workers and two dispatch threads. -/
def twoEach : Config := ⟨2, 2, 16, .ofMilliseconds 100, .ofMilliseconds 10, true⟩

end Setup

namespace Engine

open Setup

/-- Whatever the host answers: a start of an engine that may be started gives the engine that was
asked for, or the error of the first failure with nothing left behind. -/
theorem start_all_or_nothing (c : Config) (valid : c.check = .ok ())
    (respond : Responder Host.Call) :
    SetUp (AsAsked c) Undone ((start c).record respond).2 ((start c).record respond).1 := by
  have set := did_start valid (Program.transcript_record respond (start c))
  refine set.imp ?_ fun l undone => undone_of_keeps undone.keeps
  rintro e l ⟨queue, counter, rfl, rfl⟩
  exact ⟨size_new c.workers, workers_ofParts .., dispatchers_ofParts valid .., rfl, by simp⟩

/-- With one of two dispatch threads running, both descriptors are closed and all three threads are
waited for. -/
theorem start_short_of_threads : twoEach.check = .ok () ∧
    ((start twoEach).record shortOfThreads).2.filterMap effect? = [
      .starts (.worker 0), .starts (.worker 1), .opens 5, .opens 6, .starts (.dispatcher 0),
      .haltsDispatchers, .raises 6, .joins (.dispatcher 0), .closes 5, .closes 6,
      .haltsWorkers, .joins (.worker 0), .joins (.worker 1)] ∧
    ((start twoEach).record shortOfThreads).2.findSome? failure? = some .spawn ∧
    SetUp (AsAsked twoEach) Undone ((start twoEach).record shortOfThreads).2
      ((start twoEach).record shortOfThreads).1 := by
  have valid : twoEach.check = .ok () := rfl
  exact ⟨valid, by decide +kernel, by decide +kernel,
    start_all_or_nothing twoEach valid shortOfThreads⟩

end Engine
end Proactor
