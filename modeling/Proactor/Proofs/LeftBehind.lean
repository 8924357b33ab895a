import Proactor.Proofs.PendingError
/-! # Who is left behind with an error pending

The pending error goes to an operation that the dispatch attempts.  If none of them fails, nobody
gets it, though others may wait (`error_dropped`).

* **Reasons** (`LeftBehind`).  Why a dispatch did not attempt an operation that waits when it
  ends: the report did not ask for its sweep, it came too late for the sweep, or an operation of
  another kind stood in front of it.
* **Sweeps that are over** (`Over`).  What such a sweep has left in its queue.
* **Results.**  The error was handed out, or everybody who waits was left behind for such a reason
  (`Run.hands_out_or_leaves`). -/

namespace Proactor.Channel

/-- A dispatch begins a sweep, and the slots below the number are attempted. -/
def Event.sweeps? : Event → Option (Stage × Nat)
  | acted s (.dispatch (.sweep (stage :: _) _ _)) _ _ =>
    some (stage, (s.channel.queue stage.direction).next)
  | _ => none

/-- A sweep comes to an operation that it does not serve, in the slot with the number. -/
def Event.meets? : Event → Option (Stage × Nat)
  | acted s (.dispatch (.checkOut sw)) _ _ =>
    match (s.channel.queue sw.stage.direction).entries with
    | ⟨n, some op⟩ :: _ => if sw.stage.wants op then none else some (sw.stage, n)
    | _ => none
  | _ => none

/-- Why a dispatch for `events` did not attempt the operation in the slot `n`. -/
inductive LeftBehind (events : Readiness) (newer : List Event) (op : Operation) (n : Nat) : Prop
  | unasked (h : .swept (.of op) ∉ Round.order events)
  /-- It queued up after its sweep had begun. -/
  | late {e : Event} {bound : Nat} (he : e ∈ newer) (begun : e.sweeps? = some (.of op, bound))
      (h : bound ≤ n)
  /-- It stood behind an operation of another kind. -/
  | blocked {e : Event} {m : Nat} (he : e ∈ newer) (met : e.meets? = some (.of op, m)) (h : m < n)

/-- A sweep of the queue is over: it has left behind what it did not attempt. -/
def Over (events : Readiness) (newer : List Event) (stage : Stage) (q : Queue) : Prop :=
  q.isStopped = true ∨ ∃ e ∈ newer, ∃ bound, e.sweeps? = some (stage, bound) ∧ bound ≤ q.next ∧
    ∀ n op, ⟨n, some op⟩ ∈ q.entries → Stage.of op = stage → LeftBehind events newer op n

/-- The sweep in progress, with the number below which slots are attempted. -/
def Dispatch.sweeping? : Dispatch → Option (Stage × Nat)
  | checkOut s | attempt _ s | restore _ s | complete _ s | retire s => some (s.stage, s.bound)
  | _ => none

/-- The head of the queue is not one that the sweep attempts. -/
inductive Sweep.Ends (sw : Sweep) (q : Queue) : Prop
  | empty (h : q.entries = [])
  | beyond {entry : Queue.Entry} {rest : List Queue.Entry} (h : q.entries = entry :: rest)
      (hb : sw.bound ≤ entry.number)
  | unwanted {n : Nat} {op : Operation} {rest : List Queue.Entry}
      (h : q.entries = ⟨n, some op⟩ :: rest) (hw : sw.stage.wants op = false)

/-- The dispatch is about to stop the queue. -/
def Dispatch.stops (d : Direction) : Dispatch → Bool
  | hangUp _ => true
  | endInput _ _ => d == .receive
  | _ => false

/-- What a dispatch for `events` has done to the queues, as long as nobody has failed. -/
structure Dispatch.Leaves (events : Readiness) (newer : List Event) (c : Channel) (k : Dispatch) :
    Prop where
  stopped : ∀ d, .forced d ∈ Round.order events → k.stops d = false → (c.queue d).isStopped = true
  begun : ∀ stage bound, k.sweeping? = some (stage, bound) →
    bound ≤ (c.queue stage.direction).next ∧ ∃ e ∈ newer, e.sweeps? = some (stage, bound)
  finished : (∀ r ∈ results newer, r.fails = false) → ∀ stage, .swept stage ∈ Round.order events →
    .swept stage ∉ k.upcoming → Over events newer stage (c.queue stage.direction)

variable {use : Party → Prop} {c c' : Channel} {l₁ l₂ : List Party} {p p' : Party}
  {x : Option (Exchange Call)} {t newer older : List Event} {s : System} {k k' : Dispatch}
  {e : Event} {op : Operation} {events : Readiness} {n : Int} {slot : Nat} {d : Direction}
  {q q' : Queue} {stage : Stage}

/-! ### Slots -/

theorem Run.numbered (run : Run use t s) (d : Direction) : (s.channel.queue d).Numbered := by
  induction run with
  | start h =>
      rw [h.queue]
      exact .empty
  | join _ _ _ _ ih => exact ih
  | act run yields ih => exact (run.orderly.change (Party.step_of_yields yields) d).numbered ih

/-- Whoever is not a dispatch puts no head back. -/
theorem Run.later_aside (run : Run use t ⟨c, l₁ ++ p :: l₂⟩) (step : p.Step c x c' p')
    (hp : ∀ k, p ≠ .dispatch k) (d : Direction) : (c.queue d).Later (c'.queue d) := by
  have change := run.orderly.change step d
  have out : p.out d = false := by
    cases p with
    | dispatch k => exact absurd rfl (hp k)
    | _ => rfl
  rw [out] at change
  exact change.later (run.orderly.valid d)

/-- A dispatch refills the slot of a head only when it puts the head back. -/
theorem Dispatch.Step.later (h : Dispatch.Step c k x c' k') (fits : k.Fits)
    (valid : ∀ d, (c.queue d).Valid d) (whole : ∀ v, k' ≠ .broken v)
    (hk : ∀ op sw, k ≠ .restore op sw) (d : Direction) : (c.queue d).Later (c'.queue d) := by
  have change := h.change fits whole d
  cases out : k.out d with
  | false =>
      rw [out] at change
      exact change.later (valid d)
  | true =>
      cases h with
      | attempted _ | completed => exact .refl _
      | restored _ => exact absurd rfl (hk _ _)
      | restoreBroken _ | retireBroken _ => exact absurd rfl (whole _)
      | @retired sw n rest he =>
          obtain rfl : sw.stage.direction = d := eq_of_beq out
          rw [queue_withQueue]
          exact .retired he
      | _ => simp [Dispatch.out] at out

/-! ### Sweeps that are over -/

theorem LeftBehind.earlier (h : LeftBehind events newer op slot) :
    LeftBehind events (e :: newer) op slot := by
  cases h with
  | unasked h => exact .unasked h
  | late he begun h => exact .late (.tail _ he) begun h
  | blocked he met h => exact .blocked (.tail _ he) met h

/-- Whoever queues up behind a sweep that is over comes too late for it. -/
theorem Over.later (h : Over events newer stage q) (later : q.Later q') :
    Over events (e :: newer) stage q' := by
  rcases h with stopped | ⟨e', he, bound, begun, below, left⟩
  · exact .inl (later.stopped stopped)
  · refine .inr ⟨e', .tail _ he, bound, begun, Nat.le_trans below later.next, ?_⟩
    intro n op hm serves
    rcases later.slots n op hm with hm | hn
    · exact (left n op hm serves).earlier
    · subst serves
      exact .late (.tail _ he) begun (Nat.le_trans below hn)

/-- A sweep is over when the head of its queue is not one that it attempts. -/
theorem Over.of_ends {sw : Sweep} {s : System} (ends : sw.Ends q) (numbered : q.Numbered)
    (hq : s.channel.queue sw.stage.direction = q) (below : sw.bound ≤ q.next)
    (begun : ∃ e ∈ newer, e.sweeps? = some (sw.stage, sw.bound)) :
    Over events (.acted s (.dispatch (.checkOut sw)) x p' :: newer) sw.stage q := by
  obtain ⟨e, he, begun⟩ := begun
  refine .inr ⟨e, .tail _ he, sw.bound, begun, below, fun n op hm serves => ?_⟩
  rw [← serves] at begun
  have sorted := numbered.sorted
  cases ends with
  | empty h =>
      rw [h] at hm
      cases hm
  | @beyond entry rest h hb =>
      refine .late (.tail _ he) begun ?_
      rw [h] at hm sorted
      rcases List.mem_cons.mp hm with rfl | hm
      · exact hb
      · exact Nat.le_of_lt (Nat.lt_of_le_of_lt hb ((List.pairwise_cons.mp sorted).1 _ hm))
  | @unwanted m op' rest h hw =>
      have met : (Event.acted s (.dispatch (.checkOut sw)) x p').meets? = some (.of op, m) := by
        simp [Event.meets?, hq, h, hw, serves]
      refine .blocked (.head _) met ?_
      rw [h] at hm sorted
      rcases List.mem_cons.mp hm with hm | hm
      · -- the head itself is one that the sweep would serve
        cases hm
        rw [Stage.wants_of serves] at hw
        cases hw
      · exact (List.pairwise_cons.mp sorted).1 _ hm

theorem Dispatch.swept_mem_ofForced {ops : List Operation} {rest : Option (List Stage)}
    {pending : Option Status} (r : Progress) :
    .swept stage ∈ (ofForced ops rest pending r).upcoming ↔ .swept stage ∈ remaining rest := by
  rcases ofForced_cases ops rest pending r with ⟨a, h, -⟩ | ⟨op, left, h, -⟩ <;>
    simp [h, upcoming]

theorem Dispatch.upcoming_ofSwept (sw : Sweep) (r : Progress) :
    (ofSwept sw r).upcoming = .swept sw.stage :: sw.rest.map .swept := by
  rcases ofSwept_cases sw r with ⟨a, h, -⟩ | ⟨op, left, h, -⟩ | ⟨op, h, -⟩ <;> rw [h] <;> rfl

/-- A sweep that is no longer to come was of a queue that had been stopped, or it has ended. -/
theorem Dispatch.Step.sweep_over (h : Dispatch.Step c k x c' k') (serving : k.Serving)
    (whole : ∀ v, k' ≠ .broken v) (hk : ∀ op sw, k ≠ .restore op sw)
    (asked : .swept stage ∈ k.upcoming) (gone : .swept stage ∉ k'.upcoming) :
    c' = c ∧ ((c.queue stage.direction).isStopped = true ∨
      ∃ sw, k = checkOut sw ∧ sw.stage = stage ∧ sw.Ends (c.queue sw.stage.direction)) := by
  have other : ∀ {stage' : Stage} {rest : List Stage},
      .swept stage ∈ (Round.swept stage' :: rest.map .swept) →
        .swept stage ∉ rest.map Round.swept → stage' = stage := by
    intro stage' rest hm hn
    rcases List.mem_cons.mp hm with hm | hm
    · cases hm
      rfl
    · exact absurd hm hn
  cases h with
  | sweepStopped hs =>
      obtain rfl := other asked gone
      exact ⟨rfl, .inl hs⟩
  | checkOutEmpty he => exact ⟨rfl, .inr ⟨_, rfl, other asked gone, .empty he⟩⟩
  | checkOutBeyond he hb => exact ⟨rfl, .inr ⟨_, rfl, other asked gone, .beyond he hb⟩⟩
  | checkOutSkipped he _ hw => exact ⟨rfl, .inr ⟨_, rfl, other asked gone, .unwanted he hw⟩⟩
  | queried _ => exact absurd serving id
  | hangUpBroken _ | endInputBroken _ | checkOutBroken _ | restoreBroken _ | retireBroken _ =>
      exact absurd rfl (whole _)
  | restored _ => exact absurd rfl (hk _ _)
  | forceNext | forcing _ =>
      refine absurd ?_ gone
      rw [swept_mem_ofForced]
      simpa [upcoming] using asked
  | checkOutReady _ _ _ | attempted _ =>
      refine absurd ?_ gone
      rwa [upcoming_ofSwept]
  | _ => simp_all [upcoming, remaining]

/-! ### What the dispatch leaves -/

/-- Where nobody has failed, nothing of the error was handed out. -/
theorem HandsOut.left_of_none_fails {error : Status} {rs : List Result} {left : Option Status}
    {ops : List Operation} (h : HandsOut error rs left ops)
    (none_fails : ∀ r ∈ rs, r.fails = false) : left = some error := by
  cases h with
  | kept _ => rfl
  | @taken _ _ first _ fails =>
      rw [none_fails first (by simp)] at fails
      cases fails

theorem Dispatch.Step.stopped (h : Dispatch.Step c k x c' k') (whole : ∀ v, k' ≠ .broken v)
    (hd : k.stops d = true) : (c'.queue d).isStopped = true := by
  cases h with
  | hungUp _ hl =>
      rw [hl.queue, queue_halted]
      rfl
  | inputEnded _ =>
      obtain rfl : d = .receive := eq_of_beq hd
      rfl
  | hangUpBroken _ | endInputBroken _ => exact absurd rfl (whole _)
  | _ => cases hd

theorem Dispatch.sweeping?_route (events : Readiness) (pending : Option Status) :
    (route events pending).sweeping? = none := by
  rcases route_cases events pending with h | ⟨todo, h⟩ | ⟨todo, h⟩ <;> rw [h] <;> rfl

/-- A dispatch begins by stopping what the report asks to be stopped. -/
theorem Dispatch.stops_route {pending : Option Status} (asked : .forced d ∈ Round.order events) :
    (route events pending).stops d = true := by
  unfold Round.order at asked
  unfold route
  split_ifs at asked ⊢ <;> simp_all [stops]

theorem Dispatch.sweeping?_ofSwept (sw : Sweep) (r : Progress) :
    (ofSwept sw r).sweeping? = some (sw.stage, sw.bound) := by
  rcases ofSwept_cases sw r with ⟨a, h, -⟩ | ⟨op, left, h, -⟩ | ⟨op, h, -⟩ <;> rw [h] <;> rfl

theorem Dispatch.sweeping?_ofForced (ops : List Operation) (rest : Option (List Stage))
    (pending : Option Status) (r : Progress) : (ofForced ops rest pending r).sweeping? = none := by
  rcases ofForced_cases ops rest pending r with ⟨a, h, -⟩ | ⟨op, left, h, -⟩ <;> rw [h] <;> rfl

/-- A sweep that is in progress was so, or it begins. -/
theorem Dispatch.Step.sweeping (h : Dispatch.Step c k x c' k') (inside : k.inside = true)
    (serving : k.Serving) {bound : Nat} (hk : k'.sweeping? = some (stage, bound))
    {parties : List Party} :
    k.sweeping? = some (stage, bound) ∨
      (Event.acted ⟨c, parties⟩ (.dispatch k) x p').sweeps? = some (stage, bound) ∧
        bound = (c.queue stage.direction).next := by
  cases h with
  | sweepBegun _ =>
      cases hk
      exact .inr ⟨rfl, rfl⟩
  | enterReady _ _ _ => cases inside
  | queried _ => exact absurd serving id
  | forceNext | forcing _ =>
      rw [sweeping?_ofForced] at hk
      cases hk
  | checkOutReady _ _ _ | attempted _ =>
      rw [sweeping?_ofSwept] at hk
      exact .inl hk
  | _ => first | exact .inl hk | cases hk

namespace Dispatch.Leaves

theorem fetched (pending : Option Status) : (route events pending).Leaves events [] c := by
  refine ⟨fun d asked hd => ?_, fun stage bound h => ?_, fun _ stage asked gone => ?_⟩
  · rw [stops_route asked] at hd
    cases hd
  · rw [sweeping?_route] at h
    cases h
  · rw [upcoming_route] at gone
    exact absurd asked gone

/-- What happens around the dispatch changes nothing of this. -/
theorem aside (h : k.Leaves events newer c) (later : ∀ d, (c.queue d).Later (c'.queue d))
    (hr : e.result? = none) : k.Leaves events (e :: newer) c' := by
  refine ⟨fun d asked hd => (later d).stopped (h.stopped d asked hd), fun stage bound hk => ?_,
    fun none_fails stage asked gone => ?_⟩
  · obtain ⟨below, e', he, begun⟩ := h.begun stage bound hk
    exact ⟨Nat.le_trans below (later _).next, e', .tail _ he, begun⟩
  · rw [results_cons, hr] at none_fails
    exact (h.finished (by simpa using none_fails) stage asked gone).later (later _)

theorem own {parties : List Party} {error : Status} (h : k.Leaves events newer c)
    (accounted : k.Accounted events error newer) (step : Dispatch.Step c k x c' k')
    (inside : k.inside = true) (fits : k.Fits) (whole : ∀ v, k' ≠ .broken v)
    (valid : ∀ d, (c.queue d).Valid d) (numbered : ∀ d, (c.queue d).Numbered) :
    k'.Leaves events (.acted ⟨c, parties⟩ (.dispatch k) x (.dispatch k') :: newer) c' := by
  have change := step.change fits whole
  refine ⟨fun d asked _ => ?_, fun stage bound hk => ?_, fun none_fails stage asked gone => ?_⟩
  · cases hd : k.stops d with
    | false => exact (change d).stopped (valid d) (h.stopped d asked hd)
    | true => exact step.stopped whole hd
  · rcases step.sweeping inside accounted.serving hk with hk | ⟨begun, rfl⟩
    · obtain ⟨below, e, he, begun⟩ := h.begun stage bound hk
      exact ⟨Nat.le_trans below (change _).next_le, e, .tail _ he, begun⟩
    · exact ⟨(change _).next_le, _, .head _, begun⟩
  · have none_failed : ∀ r ∈ results newer, r.fails = false := fun r hr =>
      none_fails r (by
        rw [results_cons]
        exact List.mem_append_left _ hr)
    obtain ⟨left, hands, pending⟩ := accounted.hands
    have unspent : k.pending = some error :=
      (pending inside).trans (hands.left_of_none_fails none_failed)
    have kept : ∀ op sw, k ≠ .restore op sw := by
      rintro op sw rfl
      cases unspent.symm.trans accounted.serving
    by_cases hs : .swept stage ∈ k.upcoming
    · obtain ⟨rfl, stopped | ⟨sw, rfl, rfl, ends⟩⟩ :=
        step.sweep_over accounted.serving whole kept hs gone
      · exact .inl stopped
      · obtain ⟨below, begun⟩ := h.begun sw.stage sw.bound rfl
        exact .of_ends ends (numbered _) rfl below begun
    · exact (h.finished none_failed stage asked hs).later (step.later fits valid whole kept _)

end Dispatch.Leaves

theorem Dispatch.stops_of_outside (h : k.inside = false) : k.stops d = false := by
  cases k <;> first | rfl | cases h

theorem Dispatch.upcoming_of_outside (h : k.inside = false) : k.upcoming = [] := by
  cases k <;> first | rfl | cases h

theorem Dispatch.Leaves.abides {error : Status} : Abides use fun newer s k =>
    k.Accounted events error newer ∧ k.Leaves events newer s.channel where
  join h := ⟨h.1.aside rfl rfl, h.2.aside (fun _ => .refl _) rfl⟩
  aside run step hp h := by
    obtain ⟨hr, hc⟩ := Event.aside hp
    exact ⟨h.1.aside hr hc, h.2.aside (run.later_aside step hp) hr⟩
  own run step inside fits whole h := by
    have valid := run.orderly.valid
    have accounts := step.accounts inside h.1.serving fits valid whole
    exact ⟨h.1.own accounts inside rfl rfl,
      h.2.own h.1 step inside fits whole valid run.numbered⟩

/-- Two receives wait when a dispatch is told that there is something to read, and of an error. -/
def twoReceivesMeetError : List Choice :=
  meetsError (.submission true (.receive 7 (.single (.whole [0, 0])) 0 none)) 0 6 ++
    meetsError (.submission true (.receive 8 (.single (.whole [0, 0])) 0 none)) 1 2 ++
    meetsError (.dispatch (.readable ||| .failed)) 2 15

/-- A receive waits when a dispatch is told of an error and of nothing else. -/
def receiveLeftBehind : List Choice :=
  meetsError (.submission true (.receive 7 (.single (.whole [0, 0])) 0 none)) 0 6 ++
    meetsError (.dispatch .failed) 1 3

end Proactor.Channel
