import Proactor.Proofs.Standing
import Proactor.Proofs.Tenure
import Proactor.Proofs.Turns
/-! # The pending error

A dispatch that is told of an error fetches it from the kernel.  It hands the error to the first
operation that is not ready or that fails, and to nobody else (`Run.hands_out`).

* **Results** (`Result`).  What a dispatch has found out about an operation when it has attempted it
  to the end, or when it turns it away.
* **Rounds** (`Round`).  The operations are served in rounds.  Which these are and in what order,
  the report says (`Round.order`).
* **Handing out** (`HandsOut`).  What is completed, given the results and the error. -/

namespace Proactor

/-- How far an attempt has come with a call and its answer. -/
def Attempt.after (a : Attempt) (fd : Descriptor) :
    Option (Exchange Channel.Call) → Option Progress
  | some ⟨.system call, reply⟩ =>
    if h : call = (a.call fd).request then
      some ((a.call fd).resume (cast (congrArg SystemCall.Reply h) reply))
    else none
  | _ => none

theorem Attempt.after_reply (a : Attempt) (fd : Descriptor) (reply : (a.call fd).request.Reply) :
    a.after fd (some ⟨.system (a.call fd).request, reply⟩) = some ((a.call fd).resume reply) := by
  simp [Attempt.after]

/-- What is removed says nothing of bits that are not removed. -/
theorem Readiness.contains_remove {a b d : Readiness} (h : ~~~b.bits &&& d.bits = d.bits) :
    (a.remove b).contains d = a.contains d := by
  show (a.bits &&& ~~~b.bits &&& d.bits == d.bits) = _
  rw [UInt32.and_assoc, h]
  rfl

theorem Readiness.contains_remove_self {a b : Readiness} (h : b.bits ≠ 0) :
    (a.remove b).contains b = false := by
  show (a.bits &&& ~~~b.bits &&& b.bits == b.bits) = false
  rw [UInt32.and_assoc, UInt32.not_and_self, UInt32.and_zero]
  simpa using h.symm


namespace Channel

/-- The sweep that serves an operation. -/
def Stage.of (op : Operation) : Stage :=
  match op.work with
  | .accept .. => .accepts
  | .connect .. => .connects
  | .receive _ => .receives
  | .send _ => .sends

/-- A part of a dispatch. -/
inductive Round where
  /-- The last attempts of what waited in a direction that was stopped. -/
  | forced (d : Direction)
  /-- What was parked meanwhile is turned away. -/
  | parked
  | swept (stage : Stage)
deriving DecidableEq, Repr

/-- The rounds that a report asks for. -/
def Round.order (events : Readiness) : List Round :=
  if events.contains .hangUp then [forced .receive, forced .send, forced .connection, parked]
  else if events.contains .peerClosed then
    [forced .receive, parked] ++
      if events.contains .writable then [swept .connects, swept .sends] else []
  else
    (if events.contains .readable then [swept .accepts, swept .receives] else []) ++
      if events.contains .writable then [swept .connects, swept .sends] else []

/-- Things are done in rounds: those of the first round, then those of the second, and so on. -/
inductive Follows : List Round → List Round → Prop
  | nil {rounds : List Round} : Follows rounds []
  | skip {round : Round} {rounds done : List Round} (h : Follows rounds done) :
      Follows (round :: rounds) done
  | take {round : Round} {rounds done : List Round} (h : Follows (round :: rounds) done) :
      Follows (round :: rounds) (round :: done)

/-- What a dispatch has found out about an operation. -/
inductive Result where
  /-- It was attempted, perhaps for the last time, and has a result of its own. -/
  | ready (last : Bool) (op : Operation)
  | notReady (last : Bool) (op : Operation)
  /-- It was parked, and is turned away. -/
  | parked (op : Operation)
deriving Repr

namespace Result

def op : Result → Operation
  | ready _ op | notReady _ op | parked op => op

def round : Result → Round
  | ready last op | notReady last op => if last then .forced op.direction else .swept (.of op)
  | parked _ => .parked

/-- The operation was attempted without success. -/
def fails : Result → Bool
  | ready _ op => !op.status.isSuccess
  | notReady _ _ => true
  | parked _ => false

/-- How the operation completes without the pending error, if it does. -/
def own? : Result → Option Operation
  | ready _ op => some op
  | notReady true op | parked op => some (op.withStatus .shutdown)
  | notReady false _ => none

/-- The result of an attempt that has come to its end. -/
def ofProgress (last : Bool) : Progress → Option Result
  | .calling _ => none
  | .ready op => some (ready last op)
  | .notReady op => some (notReady last op)

/-- How the operation completes, and what is left of the pending error. -/
def give (pending : Option Status) (r : Result) : Option Operation × Option Status :=
  if r.fails then
    match pending with
    | some status => (some (r.op.withStatus status), none)
    | none => (r.own?, none)
  else (r.own?, pending)

end Result

/-- What the next step of a dispatch finds out. -/
def Dispatch.result? (c : Channel) (x : Option (Exchange Call)) : Dispatch → Option Result
  | force (op :: _) _ _ => Result.ofProgress true (Attempt.start op)
  | forcing a _ _ _ => (a.after c.fd x).bind (Result.ofProgress true)
  | checkOut s =>
    match (c.queue s.stage.direction).checkOut s.bound s.stage.wants with
    | .ok (_, .ready op) => Result.ofProgress false (Attempt.start op)
    | _ => none
  | attempt a _ => (a.after c.fd x).bind (Result.ofProgress false)
  | flush (.complete (op :: _)) _ _ => some (.parked op)
  | _ => none

/-- What a dispatch found out in an event. -/
def Event.result? : Event → Option Result
  | acted s (.dispatch k) x _ => k.result? s.channel x
  | _ => none

/-- The operation that a dispatch handed to the scheduler in an event. -/
def Event.completed? : Event → Option Operation
  | acted _ (.dispatch _) x _ => handedOver x
  | _ => none

/-- What dispatches found out, the oldest first. -/
def results (newer : List Event) : List Result := newer.reverse.filterMap (·.result?)

/-- What dispatches completed, the oldest first. -/
def completions (newer : List Event) : List Operation := newer.reverse.filterMap (·.completed?)

/-- The operation that a dispatch has done and is about to complete. -/
def Party.finishes? : Party → Option Operation
  | dispatch k => (dispatch k).done?
  | _ => none

/-- What dispatches have done and are about to complete. -/
def System.finishing (s : System) : List Operation := s.parties.filterMap (·.finishes?)

/-- Who gets the pending error: `left` is what is left of it. -/
inductive HandsOut (error : Status) : List Result → Option Status → List Operation → Prop
  /-- Nobody has failed, and everything completes by itself. -/
  | kept {results : List Result} (none_fails : ∀ r ∈ results, r.fails = false) :
      HandsOut error results (some error) (results.filterMap (·.own?))
  /-- The first that has failed gets it; everything else completes by itself. -/
  | taken {before after : List Result} {first : Result}
      (none_fails : ∀ r ∈ before, r.fails = false) (fails : first.fails = true) :
      HandsOut error (before ++ first :: after) none
        (before.filterMap (·.own?) ++ first.op.withStatus error :: after.filterMap (·.own?))

/-- A dispatch was told of `events` and was answered `n` when it asked for the pending error;
`newer` is what has happened since, and it has kept the lock. -/
def Fetched (events : Readiness) (n : Int) (newer t : List Event) : Prop :=
  Held newer ∧ ∃ s p' older, t = newer ++ .acted s (.dispatch (.query events))
    (some ⟨.system (.pendingError s.channel.fd), (Except.ok n : Except Int Int)⟩) p' :: older

variable {use : Party → Prop} {c c' : Channel} {l₁ l₂ : List Party} {p p' : Party}
  {x : Option (Exchange Call)} {t newer older : List Event} {s : System} {k k' : Dispatch}
  {e : Event} {op : Operation} {events : Readiness} {n : Int} {error : Status}
  {rs : List Result} {ops : List Operation} {left : Option Status}

/-! ### Sweeps and what they serve -/

namespace Stage

theorem of_of_wants {stage : Stage} (hd : op.direction = stage.direction)
    (hw : stage.wants op = true) : of op = stage := by
  obtain ⟨ticket, status, work⟩ := op
  cases stage <;> cases work <;>
    simp_all [of, wants, direction, Operation.isAccept, Operation.isConnect, Operation.direction]

theorem direction_of (op : Operation) : (of op).direction = op.direction := by
  cases hw : op.work <;> simp [of, direction, Operation.direction, hw]

theorem wants_of {stage : Stage} (h : of op = stage) : stage.wants op = true := by
  subst h
  cases hw : op.work <;> simp [of, wants, hw, Operation.isAccept, Operation.isConnect]

/-- In a direction with one stage, the direction says the stage. -/
theorem of_eq_of_key {op' : Operation} (same : op'.key = op.key) (hd : op.direction ≠ .connection) :
    of op' = of op := by
  have hd' := Operation.direction_eq_of_key same
  obtain ⟨ticket, status, work⟩ := op
  obtain ⟨ticket', status', work'⟩ := op'
  cases work <;> cases work' <;> first | rfl | exact absurd rfl hd | cases hd'

theorem of_start (op : Operation) : of (Attempt.start op).op = of op := by
  cases hw : op.work with
  | send t => exact of_eq_of_key (Attempt.key_start op) (by simp [Operation.direction, hw])
  | _ => simp [Attempt.start, hw, Progress.op]

theorem of_afterAccept {address : Address} {accepted : Descriptor} (reply : Except Int Accepted) :
    of (Attempt.afterAccept op address accepted reply).op = accepts := by
  cases reply with
  | ok got => rfl
  | error raw =>
      unfold Attempt.afterAccept
      dsimp only
      split <;> rfl

theorem of_afterConnect {address : Address} {started : Bool} (reply : Except Int Unit) :
    of (Attempt.afterConnect op address started reply).op = connects := by
  cases reply with
  | ok _ => rfl
  | error raw =>
      unfold Attempt.afterConnect
      dsimp only
      split_ifs <;> rfl

/-- An operation stays with its sweep while it is attempted. -/
theorem of_resume (a : Attempt) (fd : Descriptor) (reply : (a.call fd).request.Reply) :
    of ((a.call fd).resume reply).op = of a.op := by
  have same := a.key_resume fd reply
  obtain ⟨⟨ticket, status, work⟩, readable⟩ := a
  cases work with
  | accept address n => exact of_afterAccept reply
  | connect address started => exact of_afterConnect reply
  | receive t => exact of_eq_of_key same nofun
  | send t => exact of_eq_of_key same nofun

end Stage

/-! ### Rounds -/

namespace Follows

variable {round : Round} {rounds rounds' done : List Round}

/-- Where no round is to come, nothing is done. -/
theorem of_nil (h : Follows [] done) : Follows rounds done := by
  cases h
  exact .nil

/-- The later rounds may be others that allow as much. -/
theorem imp (h : Follows (round :: rounds) done)
    (later : ∀ done, Follows rounds done → Follows (round :: rounds') done) :
    Follows (round :: rounds') done := by
  generalize hr : round :: rounds = all at h
  induction h with
  | nil => exact .nil
  | skip h _ =>
      cases hr
      exact later _ h
  | take _ ih =>
      cases hr
      exact (ih rfl).take

/-- Many rounds of one kind allow no more than one. -/
theorem merge (same : ∀ r ∈ rounds, r = round) (h : Follows (rounds ++ rounds') done) :
    Follows (round :: rounds') done := by
  induction rounds generalizing done with
  | nil => exact h.skip
  | cons r rounds ih =>
      obtain rfl := same r (.head _)
      exact h.imp fun _ h => ih (fun r' hr => same r' (.tail _ hr)) h

end Follows

/-- The rounds that are still to come after the operations that were handed out. -/
def Dispatch.remaining (rest : Option (List Stage)) : List Round :=
  .parked :: (rest.getD []).map .swept

/-- The rounds that are still to come in a dispatch, with the one in progress. -/
def Dispatch.upcoming : Dispatch → List Round
  | hangUp _ => .forced .receive :: .forced .send :: .forced .connection :: remaining none
  | endInput rest _ => .forced .receive :: remaining (some rest)
  | force ops rest _ | forced _ ops rest _ => ops.map (.forced ·.direction) ++ remaining rest
  | forcing a ops rest _ =>
    .forced a.op.direction :: (ops.map (.forced ·.direction) ++ remaining rest)
  | flush _ rest _ => remaining rest
  | narrow rest _ | sweep rest _ _ => rest.map .swept
  | checkOut s | attempt _ s | restore _ s | complete _ s | retire s =>
    .swept s.stage :: s.rest.map .swept
  | _ => []

/-- The pending error was asked for.  A head that is attempted is one that the sweep serves, and a
head is put back only when no error is pending. -/
def Dispatch.Serving : Dispatch → Prop
  | query _ => False
  | attempt a s => Stage.of a.op = s.stage
  | restore _ s => s.pending = none
  | _ => True

theorem Dispatch.upcoming_route (events : Readiness) (pending : Option Status) :
    (route events pending).upcoming = Round.order events := by
  unfold route Round.order
  split
  · rfl
  split
  · have gone : (events.remove .readable).contains .readable = false :=
      Readiness.contains_remove_self (by decide)
    have kept : (events.remove .readable).contains .writable = events.contains .writable :=
      Readiness.contains_remove (by decide)
    simp only [upcoming, Stage.ofReadiness, gone, kept]
    cases events.contains .writable <;> rfl
  · unfold upcoming Stage.ofReadiness
    dsimp only
    split <;> split <;> rfl

/-! ### What a step of the dispatch adds -/

/-- How an operation of which something may have been found out completes, and what is left of the
pending error. -/
def settled (pending : Option Status) : Option Result → Option Operation × Option Status
  | some r => r.give pending
  | none => (none, pending)

/-- A step of a dispatch from `k` to `k'` accounts for what it has found out. -/
structure Dispatch.Accounts (k : Dispatch) (x : Option (Exchange Call)) (k' : Dispatch)
    (found : Option Result) : Prop where
  serving : k'.Serving
  order : ∀ done, Follows k'.upcoming done →
    Follows k.upcoming ((found.map (·.round)).toList ++ done)
  hands : (handedOver x).toList ++ (Party.dispatch k').done?.toList =
    (Party.dispatch k).done?.toList ++ (settled k.pending found).1.toList
  left : k'.inside = true → k'.pending = (settled k.pending found).2

namespace Dispatch

theorem serving_route (events : Readiness) (pending : Option Status) :
    (route events pending).Serving := by
  rcases route_cases events pending with h | ⟨todo, h⟩ | ⟨todo, h⟩ <;> rw [h] <;> trivial

/-- The step finds out nothing, and goes on to rounds that were to come. -/
theorem Accounts.quiet (serving : k'.Serving)
    (order : ∀ done, Follows k'.upcoming done → Follows k.upcoming done)
    (hands : (handedOver x).toList ++ (Party.dispatch k').done?.toList =
      (Party.dispatch k).done?.toList)
    (left : k'.inside = true → k'.pending = k.pending) : Accounts k x k' none :=
  ⟨serving, order, by simpa [settled] using hands, left⟩

theorem give_ready (last : Bool) (op : Operation) (pending : Option Status) :
    (Result.ready last op).give pending =
      (some (takePending op pending).1, (takePending op pending).2) := by
  cases hs : op.status.isSuccess <;> cases pending <;>
    simp [Result.give, Result.fails, Result.op, Result.own?, takePending, hs]

/-- A part of a last attempt accounts for what it finds out. -/
theorem accounts_ofForced {rest : Option (List Stage)} {r : Progress} {d : Direction}
    (hd : r.op.direction = d)
    (order : k.upcoming = .forced d :: (ops.map (.forced ·.direction) ++ remaining rest))
    (hx : handedOver x = none) (hk : (Party.dispatch k).done? = none) :
    Accounts k x (ofForced ops rest k.pending r) (Result.ofProgress true r) := by
  subst hd
  have next : ∀ done, Follows (ops.map (.forced ·.direction) ++ remaining rest) done →
      Follows k.upcoming (.forced r.op.direction :: done) := fun done h => by
    rw [order]
    exact h.skip.take
  cases r with
  | calling a =>
      refine .quiet trivial (fun done h => ?_) (by rw [hx, hk]; rfl) fun _ => rfl
      rw [order]
      exact h
  | ready op =>
      refine ⟨trivial, next, ?_, fun _ => ?_⟩
      · rw [hx, hk]
        show [(takePending op k.pending).1] = ((Result.ready true op).give k.pending).1.toList
        rw [give_ready]
        rfl
      · show (takePending op k.pending).2 = ((Result.ready true op).give k.pending).2
        rw [give_ready]
  | notReady op =>
      refine ⟨trivial, next, ?_, fun _ => ?_⟩
      · rw [hx, hk]
        cases k.pending <;> rfl
      · cases k.pending <;> rfl

/-- A part of an attempt of a head accounts for what it finds out. -/
theorem accounts_ofSwept {sw : Sweep} {r : Progress} (serves : Stage.of r.op = sw.stage)
    (order : k.upcoming = .swept sw.stage :: sw.rest.map .swept)
    (hx : handedOver x = none) (hk : (Party.dispatch k).done? = none)
    (hp : k.pending = sw.pending) :
    Accounts k x (ofSwept sw r) (Result.ofProgress false r) := by
  have next : ∀ done, Follows (.swept sw.stage :: sw.rest.map .swept) done →
      Follows k.upcoming (.swept (.of r.op) :: done) := fun done h => by
    rw [order, serves]
    exact h.take
  cases r with
  | calling a =>
      refine .quiet serves (fun done h => ?_) (by rw [hx, hk]; rfl) fun _ => hp.symm
      rw [order]
      exact h
  | ready op =>
      refine ⟨trivial, next, ?_, fun _ => ?_⟩
      · rw [hx, hk, hp]
        show [(takePending op sw.pending).1] = ((Result.ready false op).give sw.pending).1.toList
        rw [give_ready]
        rfl
      · show (takePending op sw.pending).2 = ((Result.ready false op).give k.pending).2
        rw [hp, give_ready]
  | notReady op =>
      unfold ofSwept
      dsimp only
      cases hs : sw.pending with
      | none =>
          refine ⟨hs, next, ?_, fun _ => ?_⟩
          · rw [hx, hk, hp, hs]
            rfl
          · rw [hp, hs]
            exact hs
      | some status =>
          refine ⟨trivial, next, ?_, fun _ => ?_⟩
          · rw [hx, hk, hp, hs]
            rfl
          · rw [hp, hs]
            rfl

/-- What a hang-up hands out is served in the order of the directions. -/
theorem follows_waiting (valid : ∀ d, (c.queue d).Valid d) {done : List Round}
    (h : Follows (c.waiting.map (.forced ·.direction) ++ remaining none) done) :
    Follows (.forced .receive :: .forced .send :: .forced .connection :: remaining none) done := by
  have same : ∀ d, ∀ r ∈ (c.queue d).waiting.map (Round.forced ·.direction), r = .forced d := by
    intro d r hr
    obtain ⟨op, ho, rfl⟩ := List.mem_map.mp hr
    rw [(valid d).waiting op ho]
  simp only [Channel.waiting, List.map_append, List.append_assoc] at h
  exact (h.merge (same .receive)).imp fun _ h => ((h.merge (same .send)).imp fun _ h =>
    (h.merge (same .connection)).skip).skip

theorem Step.accounts (h : Dispatch.Step c k x c' k') (inside : k.inside = true)
    (serving : k.Serving) (fits : k.Fits) (valid : ∀ d, (c.queue d).Valid d)
    (whole : ∀ v, k' ≠ .broken v) : Accounts k x k' (k.result? c x) := by
  cases h with
  | enterIgnored _ _ | enterFailed _ _ _ | enterReady _ _ _ => cases inside
  | queried _ => exact absurd serving id
  | hangUpBroken _ | endInputBroken _ | checkOutBroken _ | restoreBroken _ | retireBroken _ =>
      exact absurd rfl (whole _)
  | hungUp _ hl =>
      refine .quiet trivial (fun done h => ?_) ?_ fun _ => rfl
      · exact follows_waiting valid h
      · cases hl <;> rfl
  | inputEnded _ =>
      refine .quiet trivial (fun done h => ?_) rfl fun _ => rfl
      refine h.merge fun r hr => ?_
      obtain ⟨op, ho, rfl⟩ := List.mem_map.mp hr
      rw [(valid .receive).waiting op ho]
  | forceNone => exact .quiet trivial (fun _ h => h) rfl fun _ => rfl
  | @forceNext op ops rest pending =>
      exact accounts_ofForced (Operation.direction_eq_of_key (Attempt.key_start op)) rfl rfl rfl
  | @forcing a ops rest pending reply =>
      simp only [result?, Attempt.after_reply, Option.bind_some]
      exact accounts_ofForced (Operation.direction_eq_of_key (a.key_resume c.fd reply)) rfl rfl rfl
  | forced => exact .quiet trivial (fun _ h => h) rfl fun _ => rfl
  | flushing hf =>
      cases hf with
      | completed => exact ⟨trivial, fun _ h => h.take, rfl, fun _ => rfl⟩
      | _ => exact .quiet trivial (fun _ h => h) rfl fun _ => rfl
  | flushedAll => exact .quiet trivial (fun _ h => h.of_nil) rfl nofun
  | flushedInput => exact .quiet trivial (fun _ h => h.skip) rfl fun _ => rfl
  | narrowSkipped _ | narrowed _ _ => exact .quiet trivial (fun _ h => h) rfl fun _ => rfl
  | sweptBehind => exact .quiet trivial (fun _ h => h) rfl fun _ => rfl
  | swept => exact .quiet trivial (fun _ h => h) rfl nofun
  | sweepStopped _ => exact .quiet trivial (fun _ h => h.skip) rfl fun _ => rfl
  | sweepBegun _ => exact .quiet trivial (fun _ h => h) rfl fun _ => rfl
  | @checkOutEmpty sw he =>
      have nothing : (checkOut sw).result? c none = none := by simp [result?, Queue.checkOut, he]
      rw [nothing]
      exact .quiet trivial (fun _ h => h.skip) rfl fun _ => rfl
  | @checkOutBeyond sw _ _ he hb =>
      have nothing : (checkOut sw).result? c none = none := by
        simp [result?, Queue.checkOut, he, hb]
      rw [nothing]
      exact .quiet trivial (fun _ h => h.skip) rfl fun _ => rfl
  | @checkOutSkipped sw _ _ _ he hb hw =>
      have nothing : (checkOut sw).result? c none = none := by
        simp [result?, Queue.checkOut, he, hw, Nat.not_le.mpr hb]
      rw [nothing]
      exact .quiet trivial (fun _ h => h.skip) rfl fun _ => rfl
  | @checkOutReady sw n op rest he hb hw =>
      simp only [result?, Queue.checkOut_ready he hb hw]
      refine accounts_ofSwept ((Stage.of_start op).trans ?_) rfl rfl rfl rfl
      refine Stage.of_of_wants ((valid _).waiting op ?_) hw
      simp [Queue.waiting, he]
  | @attempted a sw reply =>
      simp only [result?, Attempt.after_reply, Option.bind_some]
      exact accounts_ofSwept ((Stage.of_resume a c.fd reply).trans serving) rfl rfl rfl rfl
  | restored _ => exact .quiet trivial (fun _ h => h.skip) rfl fun _ => rfl
  | completed | retired _ => exact .quiet trivial (fun _ h => h) rfl fun _ => rfl
  | rearmSkipped _ | rearmed _ _ => exact .quiet trivial (fun _ h => h) rfl nofun

end Dispatch

/-! ### What the dispatch has added -/

theorem Dispatch.fetched_of_ne (hn : n ≠ 0) : fetched (.ok n) = some (.ofErrno n) := by
  unfold fetched
  split
  · next h =>
    cases h
    exact absurd rfl hn
  · next h =>
    cases h
    rfl
  · next h => cases h

theorem Dispatch.done?_of_outside (h : k.inside = false) : (Party.dispatch k).done? = none := by
  cases k <;> first | rfl | cases h

/-- Only the dispatch that has the lock is about to complete something. -/
theorem Orderly.finishing (orderly : Orderly s) (hk : .dispatch k ∈ s.parties)
    (lock : k.inside = s.channel.dispatching) :
    s.finishing = (Party.dispatch k).done?.toList := by
  obtain ⟨c, parties⟩ := s
  obtain ⟨l₁, l₂, rfl⟩ := List.append_of_mem hk
  have alone : (Party.dispatch k).inside = true ∨ c.dispatching = false := by
    cases hc : c.dispatching with
    | true => exact .inl (lock.trans hc)
    | false => exact .inr rfl
  have others := Orderly.others_outside orderly.lock alone
  have nothing : ∀ l, (∀ o ∈ l, o ∈ l₁ ++ l₂) → System.finishing ⟨c, l⟩ = [] := by
    intro l hl
    refine List.filterMap_eq_nil_iff.mpr fun o ho => ?_
    have outside := others o (hl o ho)
    cases o with
    | dispatch k₀ => exact Dispatch.done?_of_outside outside
    | _ => rfl
  have first := nothing l₁ fun o ho => List.mem_append_left _ ho
  have last := nothing l₂ fun o ho => List.mem_append_right _ ho
  unfold System.finishing at first last ⊢
  rw [List.filterMap_append, List.filterMap_cons, first, last]
  cases h : (Party.dispatch k).done? <;> simp [Party.finishes?, h]

theorem filterMap_concat {α β : Type} (f : α → Option β) (l : List α) (a : α) :
    (l ++ [a]).filterMap f = l.filterMap f ++ (f a).toList := by
  rw [List.filterMap_append]
  cases h : f a <;> simp [h]

theorem results_cons (e : Event) (newer : List Event) :
    results (e :: newer) = results newer ++ e.result?.toList := by
  rw [results, List.reverse_cons, filterMap_concat]
  rfl

theorem completions_cons (e : Event) (newer : List Event) :
    completions (e :: newer) = completions newer ++ e.completed?.toList := by
  rw [completions, List.reverse_cons, filterMap_concat]
  rfl

/-- One result more. -/
theorem HandsOut.next (h : HandsOut error rs left ops) (found : Option Result) :
    HandsOut error (rs ++ found.toList) (settled left found).2
      (ops ++ (settled left found).1.toList) := by
  cases found with
  | none => simpa [settled] using h
  | some r =>
      simp only [settled, Option.toList_some]
      cases h with
      | kept none_fails =>
          cases hf : r.fails with
          | false =>
              have give : r.give (some error) = (r.own?, some error) := by simp [Result.give, hf]
              have none_fails' : ∀ r' ∈ rs ++ [r], r'.fails = false := by
                intro r' hr
                rcases List.mem_append.mp hr with hr | hr
                · exact none_fails r' hr
                · rwa [List.mem_singleton.mp hr]
              have kept : HandsOut error (rs ++ [r]) _ _ := .kept none_fails'
              rw [give]
              rwa [filterMap_concat] at kept
          | true =>
              have give : r.give (some error) = (some (r.op.withStatus error), none) := by
                simp [Result.give, hf]
              rw [give]
              exact .taken none_fails hf
      | @taken before after first none_fails fails =>
          have give : r.give none = (r.own?, none) := by simp [Result.give]
          rw [give, List.append_assoc, List.append_assoc, List.cons_append, List.cons_append]
          have taken : HandsOut error (before ++ first :: (after ++ [r])) _ _ :=
            .taken none_fails fails
          rwa [filterMap_concat] at taken

/-- Only dispatches find anything out. -/
theorem Event.aside (hp : ∀ k, p ≠ .dispatch k) :
    (acted s p x p').result? = none ∧ (acted s p x p').completed? = none := by
  cases p with
  | dispatch k => exact absurd rfl (hp k)
  | _ => exact ⟨rfl, rfl⟩

/-- A dispatch for `events` has handed out `error` as it should. -/
structure Dispatch.Accounted (events : Readiness) (error : Status) (newer : List Event)
    (k : Dispatch) : Prop where
  serving : k.Serving
  order : ∀ done, Follows k.upcoming done →
    Follows (Round.order events) ((results newer).map (·.round) ++ done)
  hands : ∃ left, HandsOut error (results newer) left
    (completions newer ++ (Party.dispatch k).done?.toList) ∧ (k.inside = true → k.pending = left)

namespace Dispatch.Accounted

theorem fetched : (route events (some error)).Accounted events error [] where
  serving := serving_route events _
  order := fun done h => by rwa [upcoming_route] at h
  hands := by
    refine ⟨some error, ?_, fun _ => pending_route events _⟩
    rw [done?_route]
    exact .kept fun _ hr => absurd hr List.not_mem_nil

/-- What happens around the dispatch adds nothing. -/
theorem aside (h : k.Accounted events error newer) (hr : e.result? = none)
    (hc : e.completed? = none) : k.Accounted events error (e :: newer) := by
  obtain ⟨serving, order, hands⟩ := h
  refine ⟨serving, ?_, ?_⟩
  · rw [results_cons, hr]
    simpa using order
  · rw [results_cons, completions_cons, hr, hc]
    simpa using hands

theorem own (h : k.Accounted events error newer) {found : Option Result}
    (step : Accounts k x k' found) (inside : k.inside = true) (hr : e.result? = found)
    (hc : e.completed? = handedOver x) : k'.Accounted events error (e :: newer) := by
  obtain ⟨left, hands, pending⟩ := h.hands
  refine ⟨step.serving, fun done hd => ?_, (settled left found).2, ?_, fun inside' => ?_⟩
  · have := h.order _ (step.order done hd)
    rw [results_cons, hr, List.map_append, List.append_assoc]
    cases found <;> exact this
  · have next := hands.next found
    rw [List.append_assoc, ← pending inside, ← step.hands, ← List.append_assoc] at next
    rw [results_cons, completions_cons, hr, hc, ← pending inside]
    exact next
  · rw [step.left inside', pending inside]

end Dispatch.Accounted

/-- What holds of a dispatch that has just fetched an error, and what everything that happens keeps,
holds for as long as it has the lock. -/
theorem Abides.since_fetched {P : List Event → System → Dispatch → Prop} (abides : Abides use P)
    (run : Run use t s) (fetched : Fetched events n newer t) (hn : n ≠ 0)
    (first : ∀ s', P [] s' (.route events (some (.ofErrno n)))) :
    ∃ k, .dispatch k ∈ s.parties ∧ k.inside = s.channel.dispatching ∧ P newer s k := by
  obtain ⟨held, s₀, p₀, older, rfl⟩ := fetched
  refine abides.tenure run held fun s' run' => ?_
  cases run' with
  | @act _ c l₁ l₂ _ run' _ turn yields =>
      obtain ⟨c', p', lines⟩ := turn
      have locked : c.dispatching = true := run'.orderly.dispatching rfl
      have step : Party.Step c _ _ c' p' := Party.step_of_yields yields
      cases step with
      | dispatch step =>
          cases step with
          | queried reply =>
              rw [Dispatch.fetched_of_ne hn]
              refine ⟨_, mem_middle.mpr (.inl rfl), ?_, first _⟩
              rw [Dispatch.inside_route]
              exact locked.symm

theorem Dispatch.Accounted.abides :
    Abides use fun newer _ k => k.Accounted events error newer where
  join h := h.aside rfl rfl
  aside _ _ hp h := by
    obtain ⟨hr, hc⟩ := Event.aside hp
    exact h.aside hr hc
  own run step inside fits whole h :=
    h.own (step.accounts inside h.serving fits run.orderly.valid whole) inside rfl rfl

/-- The first operation of which a dispatch finds out that it is not ready, or failed, completes
with the error that the dispatch has fetched; everything else completes by itself.  The rounds are
those for which the report asks.  Once the lock is free nothing is about to complete. -/
theorem Run.hands_out (run : Run use t s) (fetched : Fetched events n newer t) (hn : n ≠ 0) :
    Follows (Round.order events) ((results newer).map (·.round)) ∧
      (∃ left, HandsOut (.ofErrno n) (results newer) left (completions newer ++ s.finishing)) ∧
      (s.channel.dispatching = false → s.finishing = []) := by
  obtain ⟨k, hk, lock, accounted⟩ :=
    Dispatch.Accounted.abides.since_fetched run fetched hn fun _ => .fetched
  have finishing := run.orderly.finishing hk lock
  refine ⟨by simpa using accounted.order [] .nil, ?_, fun free => ?_⟩
  · obtain ⟨left, hands, -⟩ := accounted.hands
    exact ⟨left, by rwa [finishing]⟩
  · rw [finishing, Dispatch.done?_of_outside (lock.trans free)]
    rfl

/-- The answers while an error is pending and nothing can be received. -/
def refuses : (request : Call) → Protocol.Answer request
  | .system (.pendingError _) => Except.ok (111 : Int)
  | .system (.available _) => Except.ok (0 : Int)
  | request => notReady request

/-- A party joins as the one with this number and takes this many steps, with an error pending. -/
def meetsError (newcomer : Newcomer) (number steps : Nat) : List Choice :=
  .join newcomer :: List.replicate steps (.act number refuses)

/-- A receive waits.  A dispatch is told that there is something to read, and of an error; but there
is nothing to read. -/
def receiveMeetsError : List Choice :=
  meetsError (.submission true (.receive 7 (.single (.whole [0, 0])) 0 none)) 0 6 ++
    meetsError (.dispatch (.readable ||| .failed)) 1 12

/-- The receive gets the error. -/
theorem hands_out_receive : ∃ events n t newer s, Run Party.ThroughSocket t s ∧
    Fetched events n newer t ∧ n ≠ 0 ∧ s.channel.dispatching = false ∧
    (∃ left, HandsOut (.ofErrno n) (results newer) left (completions newer ++ s.finishing)) ∧
    (completions newer).map (·.status) = [.connectionRefused] := by
  have run := run_of_isSome (.socket 10)
    (show (replay Party.ThroughSocket (ofSocket 10) receiveMeetsError).isSome = true by rfl)
  generalize hr : Option.get _ _ = r at run
  have held : Held (r.1.take 10) := by
    rw [← hr]
    decide +kernel
  have asks : ∃ s₀ p₀, r.1 = r.1.take 10 ++ .acted s₀ (.dispatch (.query (.readable ||| .failed)))
      (some ⟨.system (.pendingError s₀.channel.fd), (Except.ok 111 : Except Int Int)⟩) p₀ ::
        r.1.drop 11 := by
    rw [← hr]
    exact ⟨_, _, rfl⟩
  obtain ⟨s₀, p₀, ht⟩ := asks
  have fetched : Fetched (.readable ||| .failed) 111 (r.1.take 10) r.1 := ⟨held, s₀, p₀, _, ht⟩
  have free : r.2.channel.dispatching = false := by
    rw [← hr]
    rfl
  have completed : (completions (r.1.take 10)).map (·.status) = [.connectionRefused] := by
    rw [← hr]
    decide +kernel
  obtain ⟨-, hands, -⟩ := run.hands_out fetched (by decide)
  exact ⟨_, _, r.1, _, r.2, run, fetched, by decide, free, hands, completed⟩

end Channel
end Proactor
