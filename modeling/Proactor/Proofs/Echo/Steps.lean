import Proactor.Proofs.Echo.Interleaving
/-! # The steps of the echo server

What the next step of a task can be (`Task.Moves`), and what becomes of a socket when something
happens on it (`Port.Then`). -/

namespace Proactor

/-! ### Channels -/

namespace Channel

variable {use : Party → Prop} {t : List Event} {s s' : System} {p p' : Party}
  {x : Option (Exchange Call)} {e : Event} {c c' : Channel} {r : Except Status Unit}

/-- The party that begins in an event. -/
def Event.newcomer? : Event → Option Party
  | joined _ p => some p
  | acted .. => none

theorem Party.Step.closing? (h : p.Step c x c' p') : p'.closing?.isSome = p.closing?.isSome := by
  cases h <;> rfl

/-- A close that is over takes no step. -/
theorem Party.Step.closing_goes_on {k : Closing} (h : p.Step c x c' p') (hk : p.closing? = some k) :
    k.phase ≠ .ended r := by
  cases h with
  | closing h =>
      cases hk
      cases h <;> nofun
  | _ => cases hk

/-- What an event makes of a system. -/
theorem Run.cons_cases (run : Run use (e :: t) s') :
    (∃ p, e.newcomer? = some p ∧ s' = ⟨e.system.channel, e.system.parties ++ [p]⟩) ∨
      e.newcomer? = none ∧ ∃ c c' l₁ l₂ p x p', e.system = ⟨c, l₁ ++ p :: l₂⟩ ∧
        p.Step c x c' p' ∧ s' = ⟨c', l₁ ++ p' :: l₂⟩ := by
  cases run with
  | join run _ _ _ => exact .inl ⟨_, rfl, rfl⟩
  | act run yields =>
      exact .inr ⟨rfl, _, _, _, _, _, _, _, rfl, Party.step_of_yields yields, rfl⟩

/-- Whoever begins submits what he brings. -/
theorem Run.submitted_cons (run : Run use (e :: t) s') :
    s'.submitted = e.system.submitted ++ (e.newcomer?.bind (·.operation?)).toList := by
  rcases run.cons_cases with ⟨p, hp, rfl⟩ | ⟨hp, c, c', l₁, l₂, p, x, p', he, step, rfl⟩
  · rw [hp]
    exact System.submitted_joined _ p
  · rw [hp, he, System.submitted_acted step]
    exact (List.append_nil _).symm

/-- Whoever begins a close has one close more. -/
theorem Run.length_closings_cons (run : Run use (e :: t) s') :
    s'.closings.length =
      e.system.closings.length + (e.newcomer?.bind (·.closing?)).toList.length := by
  rcases run.cons_cases with ⟨p, hp, rfl⟩ | ⟨hp, c, c', l₁, l₂, p, x, p', he, step, rfl⟩
  · rw [hp]
    cases h : p.closing? <;> simp [System.closings, h]
  · rw [hp, he]
    have same := step.closing?
    cases h : p.closing? <;> cases h' : p'.closing? <;>
      simp_all [System.closings]

/-- A close that is over stays what it is. -/
theorem Run.ended_cons (run : Run use (e :: t) s')
    (h : ∃ k ∈ e.system.closings, k.phase = .ended r) : ∃ k ∈ s'.closings, k.phase = .ended r := by
  obtain ⟨k, hk, ended⟩ := h
  obtain ⟨q, hq, closing⟩ := List.mem_filterMap.mp hk
  refine ⟨k, List.mem_filterMap.mpr ⟨q, ?_, closing⟩, ended⟩
  rcases run.cons_cases with ⟨p, hp, rfl⟩ | ⟨hp, c, c', l₁, l₂, p, x, p', he, step, rfl⟩
  · exact List.mem_append_left _ hq
  · rw [he] at hq
    refine mem_middle.mpr (.inr ((mem_middle.mp hq).resolve_left ?_))
    rintro rfl
    exact step.closing_goes_on closing ended

end Channel

namespace Echo

/-! ### Sockets -/

/-- What happens without a call of the server neither submits nor closes. -/
theorem Foreign.brings_nothing {e : Channel.Event} (h : Foreign e) :
    e.newcomer?.bind (·.operation?) = none ∧ e.newcomer?.bind (·.closing?) = none := by
  cases h <;> exact ⟨rfl, rfl⟩

namespace Port

variable {p p' : Port} {e : Channel.Event} {op : Operation}

/-- What was taken was submitted. -/
theorem submitted_of_taken (p : Port) (h : op ∈ p.taken) :
    ∃ op₀ ∈ p.system.submitted, op₀.ticket = op.ticket := by
  obtain ⟨op₀, sub, submitted, ticket⟩ :=
    p.run.submission_of_standing (Channel.mem_standings_of_scheduled (p.handed op h))
  exact ⟨op₀, List.mem_filterMap.mpr ⟨_, submitted, rfl⟩, ticket⟩

theorem Then.run (h : p.Then e p') :
    Channel.Run Channel.Party.ThroughSocket (e :: p.history) p'.system :=
  h.history ▸ p'.run

/-- Whatever is submitted is outstanding. -/
theorem Then.outstanding (h : p.Then e p') :
    p'.outstanding = p.outstanding ++ (e.newcomer?.bind (·.operation?)).toList := by
  have submitted := h.run.submitted_cons
  have nodup := h.run.submitted_nodup
  rw [h.here] at submitted
  rw [Port.outstanding, Port.outstanding, h.taken, submitted, List.filter_append]
  congr 1
  refine List.filter_eq_self.mpr fun op hop => ?_
  rw [List.all_eq_true]
  intro o ho
  obtain ⟨op₀, h₀, ticket⟩ := p.submitted_of_taken ho
  rw [submitted, List.map_append, List.nodup_append] at nodup
  have other := nodup.2.2 _ (List.mem_map_of_mem h₀) _ (List.mem_map_of_mem hop)
  rw [ticket] at other
  simpa using other

theorem Then.length_closings (h : p.Then e p') :
    p'.closings.length = p.closings.length + (e.newcomer?.bind (·.closing?)).toList.length := by
  rw [Port.closings, Port.closings, ← h.here]
  exact h.run.length_closings_cons

theorem Then.ended (h : p.Then e p') {r : Except Status Unit}
    (ended : ∃ k ∈ p.closings, k.phase = .ended r) : ∃ k ∈ p'.closings, k.phase = .ended r :=
  h.run.ended_cons (h.here ▸ ended)

/-- An operation that was handed back is outstanding until it is taken. -/
theorem outstanding_of_scheduled (p : Port) (scheduled : op ∈ Channel.scheduled p.history)
    (untaken : ∀ o ∈ p.taken, o.ticket ≠ op.ticket) :
    ∃ op₀ sub o₁ o₂, .submission op₀ sub ∈ p.system.parties ∧ op₀.ticket = op.ticket ∧
      p.outstanding = o₁ ++ op₀ :: o₂ ∧ (∀ o ∈ o₁ ++ o₂, o.ticket ≠ op.ticket) ∧
      (p.took op scheduled).outstanding = o₁ ++ o₂ := by
  obtain ⟨op₀, sub, submitted, ticket⟩ :=
    p.run.submission_of_standing (Channel.mem_standings_of_scheduled scheduled)
  have ticket : op₀.ticket = op.ticket := ticket
  have mem : op₀ ∈ p.outstanding := by
    refine List.mem_filter.mpr ⟨List.mem_filterMap.mpr ⟨_, submitted, rfl⟩, ?_⟩
    rw [List.all_eq_true]
    intro o ho
    simpa [ticket] using untaken o ho
  obtain ⟨o₁, o₂, split⟩ := List.append_of_mem mem
  have nodup : ((o₁ ++ op₀ :: o₂).map (·.ticket)).Nodup :=
    split ▸ p.run.submitted_nodup.sublist (List.filter_sublist.map _)
  have only : ∀ o ∈ o₁ ++ o₂, o.ticket ≠ op.ticket := ticket ▸ others_of_nodup nodup
  refine ⟨op₀, sub, o₁, o₂, submitted, ticket, split, only, ?_⟩
  have still : (p.took op scheduled).outstanding =
      p.outstanding.filter fun o => op.ticket != o.ticket := by
    rw [Port.outstanding, Port.outstanding, List.filter_filter]
    rfl
  have kept : (o₁ ++ o₂).filter (fun o => op.ticket != o.ticket) = o₁ ++ o₂ :=
    List.filter_eq_self.mpr fun o ho => by simpa using (only o ho).symm
  rw [still, split, List.filter_append, List.filter_cons_of_neg (by simp [ticket]),
    ← List.filter_append, kept]

end Port

/-! ### Tasks -/

/-- What the next step of a task can do. -/
inductive Task.Moves (s : Server) : Task → Option (Exchange Call) → Server → Task → Prop
  | accepts : Moves s .accept (some ⟨.accept, ()⟩) s .ended
  | accepted {fd : Descriptor} : Moves s (.accepted fd .success) none s (.adopt fd)
  | acceptStopped {fd : Descriptor} : Moves s (.accepted fd .shutdown) none s .ended
  | acceptFailed {fd : Descriptor} {status : Status} (failed : status ≠ .success)
      (goesOn : status ≠ .shutdown) :
      Moves s (.accepted fd status) none { s with stats.errors := s.stats.errors + 1 } .accept
  | adopted {fd : Descriptor} (c : Connection) :
      Moves s (.adopt fd) (some ⟨.adopt fd, .ok c⟩) { s with stats.accepts := s.stats.accepts + 1 }
        (.receive c true)
  | refused {fd : Descriptor} (failure : SetupFailure) :
      Moves s (.adopt fd) (some ⟨.adopt fd, .error failure⟩)
        { s with stats.errors := s.stats.errors + 1 } (.discard fd)
  | discarded {fd : Descriptor} : Moves s (.discard fd) (some ⟨.discard fd, ()⟩) s .accept
  | receives {c : Connection} {more : Bool} (running : s.running = true) :
      Moves s (.receive c more) (some ⟨.receive c room, ()⟩) s (after more)
  | leaves {c : Connection} {more : Bool} (stopped : s.running = false) :
      Moves s (.receive c more) none s (.finish c none more)
  | receiveFailed {c : Connection} {bytes : Bytes} {status : Status} (failed : status ≠ .success) :
      Moves s (.received c bytes status) none s (.finish c (some status) false)
  | receivedLast {c : Connection} {bytes : Bytes} :
      Moves s (.received c bytes .success) none s (.finish c none false)
  | received {c : Connection} {bytes : Bytes} (some : bytes ≠ []) :
      Moves s (.received c bytes .success) none
        { s with stats.bytesIn := s.stats.bytesIn + bytes.length } (.send c bytes)
  | sends {c : Connection} {bytes : Bytes} :
      Moves s (.send c bytes) (some ⟨.send c bytes, ()⟩) s .ended
  | sendFailed {c : Connection} {count : Nat} {status : Status} (failed : status ≠ .success) :
      Moves s (.sent c count status) none s (.finish c (some status) false)
  | sent {c : Connection} {count : Nat} :
      Moves s (.sent c count .success) none
        { s with stats.bytesOut := s.stats.bytesOut + count } (.receive c false)
  | finishes {c : Connection} {error : Option Status} {more : Bool} (errors : Nat) :
      Moves s (.finish c error more) none { s with stats.errors := errors } (.close c more)
  | closes {c : Connection} {more : Bool} :
      Moves s (.close c more) (some ⟨.close c, .ok ()⟩)
        { s with stats.closes := s.stats.closes + 1 } (after more)
  | closeFailed {c : Connection} {more : Bool} (status : Status) :
      Moves s (.close c more) (some ⟨.close c, .error status⟩) s (after more)

theorem Task.moves_of_yields {s : Server} {j : Task} {x : Option (Exchange Call)}
    {turn : Turn Server Task} (h : (j.next s).Yields s x turn) :
    j.Moves s x turn.state turn.phase := by
  cases j with
  | accept =>
      cases h with
      | ask _ _ answer => exact .accepts
  | accepted fd status =>
      rw [next] at h
      split_ifs at h with success stopped
      · cases (Status.isSuccess_iff status).mp success
        cases h
        exact .accepted
      · subst stopped
        cases h
        exact .acceptStopped
      · cases h
        exact .acceptFailed (fun hs => success ((Status.isSuccess_iff status).mpr hs)) stopped
  | adopt fd =>
      cases h with
      | ask _ _ answer =>
          cases answer with
          | ok c => exact .adopted c
          | error failure => exact .refused failure
  | discard fd =>
      cases h with
      | ask _ _ answer => exact .discarded
  | receive c more =>
      rw [next] at h
      split_ifs at h with running
      · cases h with
        | ask _ _ answer => exact .receives running
      · cases h
        exact .leaves (Bool.eq_false_iff.mpr running)
  | received c bytes status =>
      rw [next] at h
      split_ifs at h with success last
      · cases (Status.isSuccess_iff status).mp success
        cases h
        exact .receivedLast
      · cases (Status.isSuccess_iff status).mp success
        cases h
        exact .received fun none => last (.inl (List.isEmpty_iff.mpr none))
      · cases h
        exact .receiveFailed fun hs => success ((Status.isSuccess_iff status).mpr hs)
  | send c bytes =>
      cases h with
      | ask _ _ answer => exact .sends
  | sent c count status =>
      rw [next] at h
      split_ifs at h with success
      · cases (Status.isSuccess_iff status).mp success
        cases h
        exact .sent
      · cases h
        exact .sendFailed fun hs => success ((Status.isSuccess_iff status).mpr hs)
  | finish c error more =>
      cases error with
      | none =>
          cases h
          exact .finishes s.stats.errors
      | some e =>
          simp only [next] at h
          split_ifs at h
          · cases h
            exact .finishes s.stats.errors
          · cases h
            exact .finishes (s.stats.errors + 1)
  | close c more =>
      cases h with
      | ask _ _ answer =>
          cases answer with
          | ok _ => exact .closes
          | error status => exact .closeFailed status
  | ended => cases h

end Echo
end Proactor
