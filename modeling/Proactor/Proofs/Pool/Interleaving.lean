import Proactor.Pool.Setup
import Proactor.Proofs.Interleaving
/-! # Interleavings on a pool

Workers, callers who schedule jobs and callers who shut the pool down work on one pool at a time.
Any of them may take the next step, and new calls may begin at any moment.

* **Parties** (`Party`).  A worker or a call in progress, at its place.  A job takes time: between
  the step that begins it and the step that finishes it its party is `inside`.  What the job itself
  schedules meanwhile are calls like all others.
* **Runs** (`Run`).  What the parties did, newest first, and the system that they reached.  Every
  event is kept with the system in which it happened.  Jobs are told apart: none is scheduled
  twice.
* **Replays** (`replay`).  A run that is given by its choices, computed. -/

namespace Proactor.Pool

variable {J : Type}

/-- What a party of a pool is at. -/
inductive Role (J : Type) where
  | worker (i : Nat) (w : Worker J)
  /-- A scheduling is kept together with the job that it brought. -/
  | scheduling (brought : J) (s : Scheduling J)
  /-- A shutdown is the first one if it found that the pool was not halted. -/
  | shutdown (first : Bool) (k : Shutdown J)

namespace Role

/-- The next step of a role. -/
def next (p : Pool J) : Role J → Next (Call J) (Pool J) (Role J)
  | worker i w => (w.next i p).map (worker i)
  | scheduling brought s => (s.next p).map (scheduling brought)
  | shutdown _ .enter => (Shutdown.enter.next p).map (shutdown !p.halted)
  | shutdown first k => (k.next p).map (shutdown first)

/-- The job that a scheduling brought. -/
def brought? : Role J → Option J
  | scheduling job _ => some job
  | _ => none

/-- The job that was taken from a queue and is not finished. -/
def job? : Role J → Option J
  | worker _ (.run job) => some job
  | scheduling _ (.run _ job) => some job
  | shutdown _ (.run _ job) => some job
  | _ => none

/-- The queue from which it is about to take a job. -/
def source? : Role J → Option Nat
  | worker i .pop => some i
  | scheduling _ (.drain i) => some i
  | shutdown _ (.drain i) => some i
  | _ => none

/-- A call is in progress, rather than a worker. -/
def isCall : Role J → Bool
  | worker .. => false
  | _ => true

end Role

/-- A worker or a call in progress. -/
structure Party (J : Type) where
  role : Role J
  /-- It is inside the job that it runs. -/
  inside : Bool := false

/-- What a party may do in the state `p` of the pool: the state and the party afterwards. -/
inductive Party.Acts (p : Pool J) : Party J → Pool J → Party J → Prop
  | step {r : Role J} {turn : Turn (Pool J) (Role J)} (h : r.next p = .step turn) :
      Acts p ⟨r, false⟩ turn.state ⟨turn.phase, false⟩
  | begin {r : Role J} {job : J}
      {resume : Protocol.Answer (Call.run job) → Pool J → Turn (Pool J) (Role J)}
      (h : r.next p = .ask (.run job) resume) : Acts p ⟨r, false⟩ p ⟨r, true⟩
  | finish {r : Role J} {job : J}
      {resume : Protocol.Answer (Call.run job) → Pool J → Turn (Pool J) (Role J)}
      (h : r.next p = .ask (.run job) resume) (outcome : Outcome) :
      Acts p ⟨r, true⟩ (resume outcome p).state ⟨(resume outcome p).phase, false⟩
  /-- A sleep has an end, also when there is nothing to do. -/
  | wake (i : Nat) : Acts p ⟨.worker i .park, false⟩ p ⟨.worker i .pop, false⟩

/-- A pool and everyone who works on it. -/
structure System (J : Type) where
  pool : Pool J
  parties : List (Party J)

namespace System

/-- A pool for which `n` workers were asked, before its first job. -/
def initial (n : Nat) : System J where
  pool := new (clampWorkers n)
  parties := (List.range (clampWorkers n)).map fun i => ⟨.worker i .pop, false⟩

/-- The jobs that were brought so far. -/
def brought (s : System J) : List J := s.parties.filterMap (·.role.brought?)

end System

/-! ### Events -/

/-- A call that is to begin. -/
inductive Newcomer (J : Type) where
  | scheduling (lane : Lane) (job : J)
  | shutdown

namespace Newcomer

def party : Newcomer J → Party J
  | scheduling lane job => ⟨.scheduling job (.push lane job), false⟩
  | shutdown => ⟨.shutdown false .enter, false⟩

def job? : Newcomer J → Option J
  | scheduling _ job => some job
  | shutdown => none

end Newcomer

/-- What happened, with the system before it. -/
inductive Event (J : Type) where
  /-- A call began. -/
  | joined (s : System J) (newcomer : Newcomer J)
  /-- A party took a step. -/
  | acted (s : System J) (q q' : Party J)

namespace Event

/-- The system in which it happened. -/
def system : Event J → System J
  | joined s _ => s
  | acted s _ _ => s

/-- The job that was put into its queue, if that was for one of these lanes. -/
def put? (lanes : Lane → Bool) : Event J → Option J
  | acted _ ⟨.scheduling _ (.push lane job), _⟩ _ => if lanes lane then some job else none
  | _ => none

/-- The job that was taken from a queue, if that was one of these. -/
def taken? (queues : Nat → Bool) : Event J → Option J
  | acted _ q q' => if q.role.source?.any queues then q'.role.job? else none
  | joined .. => none

/-- The job that began. -/
def begun? : Event J → Option J
  | acted _ q q' => if q'.inside && !q.inside then q.role.job? else none
  | joined .. => none

/-- The job that was finished. -/
def finished? : Event J → Option J
  | acted _ q q' => if q.inside && !q'.inside then q.role.job? else none
  | joined .. => none

end Event

/-! ### Runs -/

/-- What happened in a pool for which `n` workers were asked, newest first, and the system that was
reached. -/
inductive Run (n : Nat) : List (Event J) → System J → Prop
  | start : Run n [] (.initial n)
  | join {t : List (Event J)} {s : System J} (run : Run n t s) {newcomer : Newcomer J}
      (fresh : ∀ job, newcomer.job? = some job → job ∉ s.brought) :
      Run n (.joined s newcomer :: t) ⟨s.pool, s.parties ++ [newcomer.party]⟩
  | act {t : List (Event J)} {p p' : Pool J} {l₁ l₂ : List (Party J)} {q q' : Party J}
      (run : Run n t ⟨p, l₁ ++ q :: l₂⟩) (acts : q.Acts p p' q') :
      Run n (.acted ⟨p, l₁ ++ q :: l₂⟩ q q' :: t) ⟨p', l₁ ++ q' :: l₂⟩

section moments
variable {n : Nat} {newer older : List (Event J)} {e : Event J} {s : System J}

/-- A run up to some moment is a run. -/
theorem Run.earlier (run : Run n (newer ++ older) s) : ∃ s', Run n older s' := by
  induction newer generalizing s with
  | nil => exact ⟨s, run⟩
  | cons e rest ih =>
      cases run with
      | join run _ => exact ih run
      | act run _ => exact ih run

/-- What had happened before an event led to the system in which it happened. -/
theorem Run.before (run : Run n (newer ++ e :: older) s) : Run n older e.system := by
  obtain ⟨s', run⟩ := run.earlier
  cases run with
  | join run _ => exact run
  | act run _ => exact run

end moments

/-! ### Replays -/

/-- What happens next in a run. -/
inductive Choice (J : Type) where
  | join (newcomer : Newcomer J)
  /-- The party with this number takes a step; a job that it finishes ends with `outcome`. -/
  | act (number : Nat) (outcome : Outcome)

section replay
variable [DecidableEq J]

/-- The run with one choice more; nothing if the choice cannot be made. -/
def Choice.take (choice : Choice J) (now : List (Event J) × System J) :
    Option (List (Event J) × System J) :=
  let (t, s) := now
  match choice with
  | join newcomer =>
    if newcomer.job?.all (· ∉ s.brought) then
      some (.joined s newcomer :: t, ⟨s.pool, s.parties ++ [newcomer.party]⟩)
    else none
  | act i outcome =>
    match s.parties[i]? with
    | none => none
    | some q =>
      let went (p : Pool J) (q' : Party J) :=
        some (.acted s q q' :: t, (⟨p, s.parties.set i q'⟩ : System J))
      match q.role.next s.pool, q.inside with
      | .step turn, false => went turn.state ⟨turn.phase, false⟩
      | .ask (.run _) _, false => went s.pool ⟨q.role, true⟩
      | .ask (.run _) resume, true =>
        let turn := resume outcome s.pool
        went turn.state ⟨turn.phase, false⟩
      | _, _ => none

/-- The run that makes these choices one after another. -/
def replay (n : Nat) (choices : List (Choice J)) : Option (List (Event J) × System J) :=
  choices.foldlM (fun now choice => choice.take now) ([], .initial n)

end replay

variable {n : Nat} {t t' : List (Event J)} {s s' : System J}

theorem Run.act_set (run : Run n t s) {i : Nat} {q q' : Party J} (hq : s.parties[i]? = some q)
    {p' : Pool J} (acts : q.Acts s.pool p' q') :
    Run n (.acted s q q' :: t) ⟨p', s.parties.set i q'⟩ := by
  obtain ⟨p, parties⟩ := s
  obtain ⟨hi, rfl⟩ := List.getElem?_eq_some_iff.mp hq
  have hl : parties = parties.take i ++ parties[i] :: parties.drop (i + 1) := by simp
  have run' : Run n t ⟨p, parties.take i ++ parties[i] :: parties.drop (i + 1)⟩ := hl ▸ run
  rw [List.set_eq_take_append_cons_drop, if_pos hi]
  have act := run'.act acts
  rw [← hl] at act
  exact act

variable [DecidableEq J]

theorem Choice.run_of_take {choice : Choice J} (run : Run n t s)
    (h : choice.take (t, s) = some (t', s')) : Run n t' s' := by
  cases choice with
  | join newcomer =>
      simp only [take] at h
      split at h
      · next fresh =>
        cases h
        refine run.join fun job hj => ?_
        rw [hj] at fresh
        simpa using fresh
      · cases h
  | act i outcome =>
      simp only [take] at h
      split at h
      · cases h
      · next q hq =>
        obtain ⟨r, inside⟩ := q
        split at h
        · next turn hn hi =>
          cases hi
          cases h
          exact run.act_set hq (.step hn)
        · next job resume hn hi =>
          cases hi
          cases h
          exact run.act_set hq (.begin hn)
        · next job resume hn hi =>
          cases hi
          cases h
          exact run.act_set hq (.finish hn outcome)
        · cases h

/-- A replay is a run. -/
theorem run_of_replay {choices : List (Choice J)} (h : replay n choices = some (t, s)) :
    Run n t s := by
  have all : ∀ (choices : List (Choice J)) (t₀ : List (Event J)) (s₀ : System J), Run n t₀ s₀ →
      choices.foldlM (fun now choice => choice.take now) (t₀, s₀) = some (t, s) → Run n t s := by
    intro choices
    induction choices with
    | nil =>
        intro t₀ s₀ run h
        cases h
        exact run
    | cons choice rest ih =>
        intro t₀ s₀ run h
        rw [List.foldlM_cons, Option.bind_eq_bind, Option.bind_eq_some_iff] at h
        obtain ⟨⟨t₁, s₁⟩, hc, hr⟩ := h
        exact ih t₁ s₁ (choice.run_of_take run hc) hr
  exact all choices [] (.initial n) .start h

theorem run_of_isSome {choices : List (Choice J)} (runs : (replay n choices).isSome = true) :
    Run n ((replay n choices).get runs).1 ((replay n choices).get runs).2 :=
  run_of_replay (Option.some_get runs).symm

end Proactor.Pool
