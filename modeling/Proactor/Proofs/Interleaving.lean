import Proactor.Channel.Closing
import Proactor.Channel.Dispatch
import Proactor.Channel.Submission
/-! # Interleavings on a channel

Several parties work on one channel at a time: submissions, requests for the channel itself,
dispatches and closes.  Any of them may take the next step, and new ones may join at any moment.

* **Parties** (`Party`).  A call in progress, at its place.  A submission is kept together with the
  operation as it was submitted.
* **Steps** (`Next.Yields`).  A step is a critical section, or a request with its answer.  The
  answer of the kernel and of the reactor is arbitrary.  A system call counts at the moment at
  which it takes effect: what happens inside the call, before or after that moment, comes before
  or after the step.
* **Runs** (`Run`).  What the parties did, newest first, and the system that they reached.  Every
  event is kept with the system in which it happened.
* **Replays** (`replay`).  A run that is given by its choices, computed. -/

namespace Proactor

/-- A request and its answer. -/
structure Exchange (ε : Type) [Protocol ε] where
  request : ε
  answer : Protocol.Answer request

/-- The turns to which a step may lead in the shared state `state`, with the request if it made
one. -/
inductive Next.Yields {ε : Type} [Protocol ε] {σ φ : Type} (state : σ) :
    Next ε σ φ → Option (Exchange ε) → Turn σ φ → Prop
  | step (turn : Turn σ φ) : Yields state (.step turn) none turn
  | ask (request : ε) (resume : Protocol.Answer request → σ → Turn σ φ)
      (answer : Protocol.Answer request) :
      Yields state (.ask request resume) (some ⟨request, answer⟩) (resume answer state)

theorem Next.Yields.of_map {ε : Type} [Protocol ε] {σ φ ψ : Type} {state : σ} {f : φ → ψ}
    {n : Next ε σ φ} {x : Option (Exchange ε)} {turn : Turn σ ψ}
    (h : (n.map f).Yields state x turn) : ∃ t, n.Yields state x t ∧ turn = t.map f := by
  cases n with
  | ended => cases h
  | blocked => cases h
  | step t =>
      cases h
      exact ⟨t, .step t, rfl⟩
  | ask r resume =>
      cases h with
      | ask _ _ answer => exact ⟨resume answer state, .ask r resume answer, rfl⟩

theorem Next.Yields.exchange {ε : Type} [Protocol ε] {σ φ : Type} {state : σ} {r : ε}
    {resume : Protocol.Answer r → σ → Turn σ φ} {x : Option (Exchange ε)} {turn : Turn σ φ}
    (h : (Next.ask r resume).Yields state x turn) : ∃ answer, x = some ⟨r, answer⟩ := by
  cases h with
  | ask _ _ answer => exact ⟨answer, rfl⟩

/-- Either the one in the middle, or one of the others. -/
theorem mem_middle {α : Type} {l₁ l₂ : List α} {p o : α} :
    o ∈ l₁ ++ p :: l₂ ↔ o = p ∨ o ∈ l₁ ++ l₂ := by
  simp only [List.mem_append, List.mem_cons]
  exact or_left_comm

/-- Where nobody shares something with anybody, the others do not share it with this one. -/
theorem others_of_nodup {α β : Type} {l₁ l₂ : List α} {p : α} {f : α → β}
    (h : ((l₁ ++ p :: l₂).map f).Nodup) : ∀ o ∈ l₁ ++ l₂, f o ≠ f p := by
  rw [(List.perm_middle.map f).nodup_iff, List.map_cons, List.nodup_cons] at h
  exact fun o ho same => h.1 (same ▸ List.mem_map_of_mem ho)

section members
variable {α : Type} {l l₁ l₂ : List α} {p p' : α} {P : α → Prop}

/-- What holds of everybody still does when one has gone on. -/
theorem forall_replaced (h : ∀ o ∈ l₁ ++ p :: l₂, P o) (hp : P p') : ∀ o ∈ l₁ ++ p' :: l₂, P o := by
  intro o ho
  rcases mem_middle.mp ho with rfl | ho
  · exact hp
  · exact h o (mem_middle.mpr (.inr ho))

/-- What holds of everybody still does when one has joined. -/
theorem forall_joined (h : ∀ o ∈ l, P o) (hp : P p) : ∀ o ∈ l ++ [p], P o := by
  intro o ho
  rcases List.mem_append.mp ho with ho | ho
  · exact h o ho
  · rw [List.mem_singleton.mp ho]
    exact hp

end members

namespace Channel

/-- A call in progress. -/
inductive Party where
  | submission (op : Operation) (s : Submission)
  | attachment (a : Attachment)
  | dispatch (d : Dispatch)
  | closing (k : Closing)

namespace Party

/-- The next step of a party. -/
def next (c : Channel) : Party → Next Call Channel Party
  | submission op s => (s.next c).map (submission op)
  | attachment a => (a.next c).map attachment
  | dispatch d => (d.next c).map dispatch
  | closing k => (k.next c).map closing

/-- The operation that a submission brings. -/
def operation? : Party → Option Operation
  | submission op _ => some op
  | _ => none

/-- The party is a submission of the operation with this ticket. -/
def Submits (p : Party) (ticket : Nat) : Prop := ∃ op s, p = submission op s ∧ op.ticket = ticket

/-- The call has returned to its caller. -/
def HasReturned : Party → Prop
  | submission _ s => ∃ answer, s.phase = .answered answer
  | attachment a => ∃ result, a = .ended result
  | dispatch d => d = .ended
  | closing k => ∃ result, k.phase = .ended result

/-- A party that begins: through the socket, or, where `attached`, on the channel itself. -/
inductive Begins (attached : Bool) : Party → Prop
  | socketSubmission (op : Operation) : Begins attached (.submission op (.throughSocket op))
  | submission (op : Operation) (h : attached = true) :
      Begins attached (.submission op (.direct op))
  | attachment : Begins attached (.attachment .enter)
  | dispatch (events : Readiness) : Begins attached (.dispatch (.enter events))
  | socketClosing : Begins attached (.closing .socket)
  | closing (h : attached = true) : Begins attached (.closing .channel)

/-- A party that uses the channel only through its socket, or the reactor's dispatch. -/
def ThroughSocket : Party → Prop
  | submission _ s => s.guarded = true
  | attachment _ => True
  | dispatch _ => True
  | closing k => k.ofSocket = true

instance : DecidablePred ThroughSocket
  | submission _ s => inferInstanceAs (Decidable (s.guarded = true))
  | attachment _ => isTrue trivial
  | dispatch _ => isTrue trivial
  | closing k => inferInstanceAs (Decidable (k.ofSocket = true))

end Party

/-- A channel and everyone who works on it. -/
structure System where
  channel : Channel
  parties : List Party

/-- The operation that a step handed to the scheduler. -/
def handedOver : Option (Exchange Call) → Option Operation
  | some ⟨.schedule _ op, _⟩ => some op
  | _ => none

/-- What happened, with the system before it. -/
inductive Event where
  /-- A call began. -/
  | joined (s : System) (p : Party)
  /-- A party took a step. -/
  | acted (s : System) (p : Party) (exchange : Option (Exchange Call)) (p' : Party)

namespace Event

/-- The system in which it happened. -/
def system : Event → System
  | joined s _ => s
  | acted s _ _ _ => s

/-- The call that was made in an event, and its answer. -/
def exchange? : Event → Option (Exchange Call)
  | joined _ _ => none
  | acted _ _ x _ => x

/-- The operation that was handed to the scheduler. -/
def scheduled? : Event → Option Operation
  | acted _ _ x _ => handedOver x
  | joined _ _ => none

end Event

/-- No submission of this ticket has been made. -/
def System.Unused (s : System) (ticket : Nat) : Prop := ∀ p ∈ s.parties, ¬ p.Submits ticket

/-- A socket before its first use. -/
def ofSocket (fd : Descriptor) : System := ⟨{ fd }, []⟩

/-- A channel that has joined the reactor and was not used yet. -/
def ofChannel (fd : Descriptor) : System :=
  ⟨{ fd, attached := true, registered := .standard }, []⟩

/-- Where a run begins. -/
inductive Initial : System → Prop
  | socket (fd : Descriptor) : Initial (ofSocket fd)
  | channel (fd : Descriptor) : Initial (ofChannel fd)

/-- What happened from the beginning on, newest first, and the system that was reached.  Every
party that joins satisfies `use`, and no two operations have the same ticket. -/
inductive Run (use : Party → Prop) : List Event → System → Prop
  | start {s : System} (h : Initial s) : Run use [] s
  | join {t : List Event} {s : System} (run : Run use t s) {p : Party}
      (begins : p.Begins s.channel.attached) (allowed : use p)
      (unused : ∀ op, p.operation? = some op → s.Unused op.ticket) :
      Run use (.joined s p :: t) ⟨s.channel, s.parties ++ [p]⟩
  | act {t : List Event} {c : Channel} {l₁ l₂ : List Party} {p : Party}
      (run : Run use t ⟨c, l₁ ++ p :: l₂⟩) {x : Option (Exchange Call)} {turn : Turn Channel Party}
      (yields : (p.next c).Yields c x turn) :
      Run use (.acted ⟨c, l₁ ++ p :: l₂⟩ p x turn.phase :: t) ⟨turn.state, l₁ ++ turn.phase :: l₂⟩

/-! ### Moments of a run -/

section moments
variable {use : Party → Prop} {newer older : List Event} {e : Event} {s : System}

/-- A run up to some moment is a run. -/
theorem Run.earlier (run : Run use (newer ++ older) s) : ∃ s', Run use older s' := by
  induction newer generalizing s with
  | nil => exact ⟨s, run⟩
  | cons e rest ih =>
      cases run with
      | join run _ _ _ => exact ih run
      | act run _ => exact ih run

/-- What had happened before an event led to the system in which it happened. -/
theorem Run.before (run : Run use (newer ++ e :: older) s) : Run use older e.system := by
  obtain ⟨s', run⟩ := run.earlier
  cases run with
  | join run _ _ _ => exact run
  | act run _ => exact run

section lasting
variable {P : List Event → System → Prop}
  (join : ∀ {t : List Event} {s : System} {p : Party}, Run use t s →
    p.Begins s.channel.attached → P t s → P (.joined s p :: t) ⟨s.channel, s.parties ++ [p]⟩)
  (act : ∀ {t : List Event} {c : Channel} {l₁ l₂ : List Party} {p : Party}
    {x : Option (Exchange Call)} {turn : Turn Channel Party}, Run use t ⟨c, l₁ ++ p :: l₂⟩ →
    (p.next c).Yields c x turn → P t ⟨c, l₁ ++ p :: l₂⟩ →
    P (.acted ⟨c, l₁ ++ p :: l₂⟩ p x turn.phase :: t) ⟨turn.state, l₁ ++ turn.phase :: l₂⟩)
include join act

/-- What holds at some moment, and what everything that happens keeps, holds from then on. -/
theorem Run.lasts_after (run : Run use (newer ++ older) s)
    (first : ∀ s', Run use older s' → P older s') : P (newer ++ older) s := by
  induction newer generalizing s with
  | nil => exact first s run
  | cons e rest ih =>
      cases run with
      | join run begins _ _ => exact join run begins (ih run)
      | act run yields => exact act run yields (ih run)

/-- What holds before an event, and what everything that happens keeps, holds from then on. -/
theorem Run.lasts (run : Run use (newer ++ e :: older) s) (first : P older e.system) :
    P (newer ++ e :: older) s := by
  refine run.lasts_after join act fun s' run' => ?_
  cases run' with
  | join run begins _ _ => exact join run begins first
  | act run yields => exact act run yields first

end lasting
end moments

/-! ### Replays -/

/-- A party that is to begin. -/
inductive Newcomer where
  /-- A submission, through the socket or on the channel itself. -/
  | submission (throughSocket : Bool) (op : Operation)
  | attachment
  | dispatch (events : Readiness)
  /-- A close of the socket or of the channel itself. -/
  | closing (ofSocket : Bool)

namespace Newcomer

def party : Newcomer → Party
  | submission true op => .submission op (.throughSocket op)
  | submission false op => .submission op (.direct op)
  | attachment => .attachment .enter
  | dispatch events => .dispatch (.enter events)
  | closing true => .closing .socket
  | closing false => .closing .channel

/-- It may begin in this system. -/
def welcome (s : System) : Newcomer → Bool
  | submission throughSocket op =>
    (throughSocket || s.channel.attached) &&
      s.parties.all fun p => p.operation?.all (·.ticket != op.ticket)
  | closing ofSocket => ofSocket || s.channel.attached
  | attachment | dispatch _ => true

theorem begins {s : System} {n : Newcomer} (h : n.welcome s = true) :
    n.party.Begins s.channel.attached := by
  cases n with
  | submission throughSocket op =>
      cases throughSocket with
      | true => exact .socketSubmission op
      | false =>
          simp only [welcome, Bool.and_eq_true] at h
          exact .submission op (by simpa using h.1)
  | attachment => exact .attachment
  | dispatch events => exact .dispatch events
  | closing ofSocket =>
      cases ofSocket with
      | true => exact .socketClosing
      | false => exact .closing (by simpa [welcome] using h)

theorem unused {s : System} {n : Newcomer} (h : n.welcome s = true) (op : Operation)
    (ho : n.party.operation? = some op) : s.Unused op.ticket := by
  cases n with
  | submission throughSocket op' =>
      have hop : op' = op := by
        cases throughSocket <;> exact Option.some.inj ho
      subst hop
      simp only [welcome, Bool.and_eq_true, List.all_eq_true] at h
      rintro p hp ⟨op, s, rfl, ht⟩
      have := h.2 _ hp
      simp [Party.operation?, ht] at this
  | attachment => cases ho
  | dispatch events => cases ho
  | closing ofSocket => cases ofSocket <;> cases ho

end Newcomer

/-- What happens next in a run. -/
inductive Choice where
  | join (newcomer : Newcomer)
  /-- The party with this number takes a step; `answer` is what it is answered. -/
  | act (number : Nat) (answer : (request : Call) → Protocol.Answer request)

/-- The answers while nothing is ready: system calls say so, everything else succeeds. -/
def notReady : (request : Call) → Protocol.Answer request
  | .system _ => Except.error 11
  | .register .. => Except.ok ()
  | .unregister .. => Except.ok ()
  | .schedule .. => ()
  | .release _ => Except.ok ()

/-- The run with one choice more; nothing if the choice cannot be made. -/
def Choice.take (use : Party → Prop) [DecidablePred use] (choice : Choice)
    (now : List Event × System) : Option (List Event × System) :=
  let (t, s) := now
  match choice with
  | join n =>
    if n.welcome s ∧ use n.party then
      some (.joined s n.party :: t, ⟨s.channel, s.parties ++ [n.party]⟩)
    else none
  | act i answer =>
    match s.parties[i]? with
    | none => none
    | some p =>
      match p.next s.channel with
      | .ended | .blocked => none
      | .step turn =>
        some (.acted s p none turn.phase :: t, ⟨turn.state, s.parties.set i turn.phase⟩)
      | .ask r resume =>
        let turn := resume (answer r) s.channel
        some (.acted s p (some ⟨r, answer r⟩) turn.phase :: t,
          ⟨turn.state, s.parties.set i turn.phase⟩)

/-- The run that makes these choices one after another. -/
def replay (use : Party → Prop) [DecidablePred use] (start : System) (choices : List Choice) :
    Option (List Event × System) :=
  choices.foldlM (fun now choice => choice.take use now) ([], start)

theorem Run.act_set {use : Party → Prop} {t : List Event} {s : System} {i : Nat} {p : Party}
    (run : Run use t s) (hp : s.parties[i]? = some p) {x : Option (Exchange Call)}
    {turn : Turn Channel Party} (yields : (p.next s.channel).Yields s.channel x turn) :
    Run use (.acted s p x turn.phase :: t) ⟨turn.state, s.parties.set i turn.phase⟩ := by
  obtain ⟨c, parties⟩ := s
  obtain ⟨hi, rfl⟩ := List.getElem?_eq_some_iff.mp hp
  have hl : parties = parties.take i ++ parties[i] :: parties.drop (i + 1) := by simp
  have run' : Run use t ⟨c, parties.take i ++ parties[i] :: parties.drop (i + 1)⟩ := hl ▸ run
  rw [List.set_eq_take_append_cons_drop, if_pos hi]
  have act := run'.act yields
  rw [← hl] at act
  exact act

theorem Choice.run_of_take {use : Party → Prop} [DecidablePred use] {choice : Choice}
    {t t' : List Event} {s s' : System} (run : Run use t s)
    (h : choice.take use (t, s) = some (t', s')) : Run use t' s' := by
  cases choice with
  | join n =>
      simp only [take] at h
      split at h
      · next hn =>
        cases h
        exact .join run (Newcomer.begins hn.1) hn.2 (Newcomer.unused hn.1)
      · cases h
  | act i answer =>
      simp only [take] at h
      split at h
      · cases h
      · next p hp =>
        split at h
        · cases h
        · cases h
        · next turn hn =>
          cases h
          apply run.act_set hp
          rw [hn]
          exact .step turn
        · next r resume hn =>
          cases h
          apply run.act_set hp
          rw [hn]
          exact .ask r resume (answer r)

/-- Who goes on in a replay gets its answers from it. -/
theorem Choice.acted_of_take {use : Party → Prop} [DecidablePred use] {i : Nat}
    {answer : (request : Call) → Protocol.Answer request} {t t' : List Event} {s s' : System}
    (h : (act i answer).take use (t, s) = some (t', s')) :
    ∃ p x p', t' = .acted s p x p' :: t ∧
      ∀ y, x = some y → ∃ request, y = ⟨request, answer request⟩ := by
  simp only [take] at h
  split at h
  · cases h
  · split at h
    · cases h
    · cases h
    · cases h
      exact ⟨_, _, _, rfl, nofun⟩
    · cases h
      refine ⟨_, _, _, rfl, ?_⟩
      rintro y ⟨⟩
      exact ⟨_, rfl⟩

/-- A replay is a run. -/
theorem run_of_replay {use : Party → Prop} [DecidablePred use] {start : System}
    (initial : Initial start) {choices : List Choice} {t : List Event} {s : System}
    (h : replay use start choices = some (t, s)) : Run use t s := by
  have all : ∀ (choices : List Choice) (t₀ : List Event) (s₀ : System), Run use t₀ s₀ →
      choices.foldlM (fun now choice => choice.take use now) (t₀, s₀) = some (t, s) →
        Run use t s := by
    intro choices
    induction choices with
    | nil =>
        intro t₀ s₀ run h
        cases h
        exact run
    | cons choice rest ih =>
        intro t₀ s₀ run h
        rw [List.foldlM_cons, Option.bind_eq_bind, Option.bind_eq_some_iff] at h
        obtain ⟨⟨t₁, s₁⟩, hc, hr⟩ := h
        exact ih t₁ s₁ (choice.run_of_take run hc) hr
  exact all choices [] start (.start initial) h

theorem run_of_isSome {use : Party → Prop} [DecidablePred use] {start : System}
    (initial : Initial start) {choices : List Choice}
    (runs : (replay use start choices).isSome = true) :
    Run use ((replay use start choices).get runs).1 ((replay use start choices).get runs).2 :=
  run_of_replay initial (Option.some_get runs).symm

end Channel
end Proactor
