import Proactor.Proofs.Fates
/-! # What becomes of accepted connections

The kernel hands out a descriptor with every connection that it accepts.  Somebody has to be told of
it, and nobody twice.

* **Connections** (`connections`).  The descriptors that the kernel handed out, each with the ticket
  of the accept that asked for it.
* **In hand** (`Holds`).  An accept has no descriptor while it waits or is attempted.  It is done
  with the one that it got and with success, or it got none and reports `-1`.
* **Handed over** (`Run.handed_over`).  A failed accept has no descriptor.  Once everything has
  returned and the channel is closed, what was accepted is what the callers were given. -/

namespace Proactor

/-- The descriptor that an accept reports. -/
def Operation.descriptor? (op : Operation) : Option Descriptor :=
  match op.work with
  | .accept _ fd => some fd
  | _ => none

/-- The operation has no connection. -/
def Operation.EmptyHanded (op : Operation) : Prop := ∀ fd ∈ op.descriptor?, fd = -1

/-- What the caller of an accept is given. -/
theorem Operation.accepted_iff {op : Operation} {fd : Descriptor} {status : Status} :
    (∃ address, op.completion.outcome = .accepted fd address status) ↔
      op.descriptor? = some fd ∧ op.status = status := by
  unfold descriptor? completion
  cases op.work <;> simp

/-- The descriptor of a connection that the kernel hands out. -/
def Channel.accepted? : Option (Exchange Channel.Call) → Option Descriptor
  | some ⟨.system (.accept ..), .ok (got : Accepted)⟩ => some got.fd
  | _ => none

namespace Operation

theorem EmptyHanded.of_none {op : Operation} (h : op.descriptor? = none) : op.EmptyHanded := by
  rw [EmptyHanded, h]
  nofun

theorem EmptyHanded.of_eq {op op' : Operation} (h : op.EmptyHanded)
    (same : op'.descriptor? = op.descriptor?) : op'.EmptyHanded := by
  rwa [EmptyHanded, same]

/-- What is submitted has no connection. -/
theorem emptyHanded_accept (ticket : Nat) (address : Address) :
    (accept ticket address).EmptyHanded := by
  rintro fd ⟨⟩
  rfl

theorem emptyHanded_of_direction {op : Operation} (h : op.direction ≠ .connection) :
    op.EmptyHanded := by
  refine .of_none ?_
  unfold direction at h
  unfold descriptor?
  split
  · next hw => exact absurd (by rw [hw]) h
  · rfl

end Operation

namespace Attempt

theorem descriptor?_start (op : Operation) : (start op).op.descriptor? = op.descriptor? := by
  rcases start_cases op with ⟨-, h⟩ | ⟨-, h⟩ <;> rw [h] <;> rfl

theorem emptyHanded_afterAccept {op : Operation} (address : Address) (raw : Int) :
    (afterAccept op address (-1) (.error raw)).op.EmptyHanded := by
  unfold afterAccept
  dsimp only
  split <;> rintro fd ⟨⟩ <;> rfl

theorem descriptor?_afterConnect (op : Operation) (address : Address) (started : Bool)
    (r : Except Int Unit) : (afterConnect op address started r).op.descriptor? = none := by
  cases r with
  | ok got => rfl
  | error raw =>
      unfold afterConnect
      dsimp only
      split_ifs <;> rfl

/-- A part of an attempt leaves the operation without a connection, unless it got one. -/
theorem resume_connection (a : Attempt) (fd : Descriptor) (reply : (a.call fd).request.Reply)
    (h : a.op.EmptyHanded) :
    (Channel.accepted? (some ⟨.system (a.call fd).request, reply⟩) = none ∧
        ((a.call fd).resume reply).op.EmptyHanded) ∨
      ∃ got op, Channel.accepted? (some ⟨.system (a.call fd).request, reply⟩) = some got ∧
        (a.call fd).resume reply = .ready op ∧ op.descriptor? = some got ∧
          op.status = .success := by
  have elsewhere (hd : a.op.direction ≠ .connection) :
      ((a.call fd).resume reply).op.EmptyHanded := by
    refine Operation.emptyHanded_of_direction ?_
    rwa [Operation.direction_eq_of_key (key_resume a fd reply)]
  obtain ⟨⟨ticket, status, work⟩, readable⟩ := a
  cases work with
  | accept address n =>
      cases reply with
      | ok got => exact .inr ⟨_, _, rfl, rfl, rfl, rfl⟩
      | error raw =>
          cases h n rfl
          exact .inl ⟨rfl, emptyHanded_afterAccept address raw⟩
  | connect address started =>
      exact .inl ⟨rfl, .of_none (descriptor?_afterConnect _ address started reply)⟩
  | receive t =>
      refine .inl ⟨?_, elsewhere nofun⟩
      cases readable <;> rfl
  | send t => exact .inl ⟨rfl, elsewhere nofun⟩

end Attempt

theorem Became.descriptor? {r : Progress} {σ : Standing} (h : Became r σ) :
    σ.op.descriptor? = r.op.descriptor? := by
  cases h with
  | itself _ => rw [Standing.op_ofProgress]
  | instead _ _ => rfl
  | givenUp _ => rfl

namespace Channel

/-- The connection that an event brings, with the ticket of the accept that asked for it. -/
def Event.connection? : Event → Option (Nat × Descriptor)
  | acted _ p x _ => (accepted? x).bind fun fd => p.attempt?.map fun a => (a.op.ticket, fd)
  | joined _ _ => none

/-- The connections that the kernel accepted, newest first. -/
def connections (t : List Event) : List (Nat × Descriptor) := t.filterMap (·.connection?)

/-- The descriptors that the accept with ticket `n` got. -/
def granted (n : Nat) (t : List Event) : List Descriptor :=
  ((connections t).filter (·.1 == n)).map (·.2)

/-- The descriptors that the callers were given, with the tickets of their accepts. -/
def reported (t : List Event) : List (Nat × Descriptor) :=
  (scheduled t).filterMap fun op => op.descriptor?.map (op.ticket, ·)

/-- What an accept has got so far. -/
inductive Holds (n : Nat) (t : List Event) : Standing → Prop
  | nothing {σ : Standing} (hg : granted n t = []) (he : σ.op.EmptyHanded) : Holds n t σ
  | connection {op : Operation} {fd : Descriptor} (hg : granted n t = [fd])
      (hd : op.descriptor? = some fd) (hs : op.status = .success) : Holds n t (.done op)

variable {use : Party → Prop} {c : Channel} {l₁ l₂ : List Party} {p p' : Party}
  {x : Option (Exchange Call)} {t : List Event} {s : System} {e : Event} {n : Nat}
  {fd : Descriptor} {op : Operation} {σ σ' : Standing}

theorem Onward.descriptor? (h : Onward c p x σ σ') : σ'.op.descriptor? = σ.op.descriptor? := by
  cases h <;> rfl

/-! ### Connections and their accepts -/

theorem Event.connection?_of_attempt {a : Attempt} (s : System) (x : Option (Exchange Call))
    (p' : Party) (ha : p.attempt? = some a) :
    (acted s p x p').connection? = (accepted? x).map (a.op.ticket, ·) := by
  rw [connection?, ha]
  cases accepted? x <;> rfl

/-- Who gets a connection is tried. -/
theorem Event.tried_of_connection (h : e.connection? = some (n, fd)) :
    ∃ op, e.tried? = some op ∧ op.ticket = n := by
  cases e with
  | joined _ _ => cases h
  | acted s p x p' =>
      obtain ⟨_, -, h⟩ := Option.bind_eq_some_iff.mp h
      obtain ⟨a, ha, h⟩ := Option.map_eq_some_iff.mp h
      cases h
      exact ⟨a.op, by rw [tried?, Party.tries, ha]; rfl, rfl⟩

theorem granted_cons_none (h : e.connection? = none) : granted n (e :: t) = granted n t := by
  rw [granted, connections, List.filterMap_cons_none h]
  rfl

theorem granted_cons_some (h : e.connection? = some (n, fd)) :
    granted n (e :: t) = fd :: granted n t := by
  rw [granted, connections, List.filterMap_cons_some h]
  simp [granted, connections]

/-- Nothing is granted to what is not tried. -/
theorem granted_of_untried (h : ∀ op, e.tried? = some op → op.ticket ≠ n) :
    granted n (e :: t) = granted n t := by
  cases hc : e.connection? with
  | none => exact granted_cons_none hc
  | some grant =>
      obtain ⟨m, fd⟩ := grant
      obtain ⟨op, ho, hm⟩ := Event.tried_of_connection hc
      have other : m ≠ n := hm ▸ h op ho
      rw [granted, connections, List.filterMap_cons_some hc]
      simp [granted, connections, other]

theorem mem_granted : fd ∈ granted n t ↔ (n, fd) ∈ connections t := by
  simp [granted]

/-! ### Runs -/

theorem Holds.step (h : Holds n t σ) (same : granted n (e :: t) = granted n t)
    (onward : Onward c p x σ σ') : Holds n (e :: t) σ' := by
  cases h with
  | nothing hg he => exact .nothing (same.trans hg) (he.of_eq onward.descriptor?)
  | connection hg hd hs =>
      cases onward with
      | same _ => exact .connection (same.trans hg) hd hs

/-- What a step does to what an accept has. -/
theorem Holds.fate (fate : Fate c p x (Holds n t) σ) (hn : σ.op.ticket = n) :
    Holds n (.acted ⟨c, l₁ ++ p :: l₂⟩ p x p' :: t) σ := by
  cases fate with
  | @wentOn a _ ha before reply hx became =>
      have key := became.key.trans (a.key_resume c.fd reply)
      have ticket : a.op.ticket = n := (Operation.ticket_eq_of_key key).symm.trans hn
      have event := Event.connection?_of_attempt ⟨c, l₁ ++ p :: l₂⟩ x p' ha
      rw [hx, ticket] at event
      cases before with
      | nothing hg he =>
          rcases a.resume_connection c.fd reply he with ⟨none, empty⟩ | ⟨fd, op, some, hr, hd, hs⟩
          · rw [none] at event
            subst hx
            exact .nothing ((granted_cons_none event).trans hg) (empty.of_eq became.descriptor?)
          · rw [some] at event
            subst hx
            rw [hr] at became
            cases became with
            | itself _ => exact .connection ((granted_cons_some event).trans (by rw [hg])) hd hs
            | instead failed _ => exact absurd hs failed
  | @began op _ hb hx before became =>
      subst hx
      cases before with
      | nothing hg he =>
          refine .nothing ((granted_cons_none rfl).trans hg) (he.of_eq ?_)
          exact became.descriptor?.trans (Attempt.descriptor?_start op)
  | untried hne before onward =>
      exact before.step (granted_of_untried fun op ho => hn ▸ hne op ho) onward

/-- An accept holds what it was granted. -/
theorem Run.holds (run : Run use t s)
    (empty : ∀ op sub, .submission op sub ∈ s.parties → op.EmptyHanded)
    (h : σ ∈ s.standings t) : Holds σ.op.ticket t σ := by
  obtain ⟨op, sub, submitted, same⟩ := run.submission_of_standing h
  rw [← same]
  refine run.standing_lasts (P := Holds op.ticket) ?_ ?_ ?_ submitted h same.symm
  · intro t s run unused
    have none : granted op.ticket t = [] := by
      refine List.eq_nil_iff_forall_not_mem.mpr fun fd hfd => ?_
      obtain ⟨e, he, hc⟩ := List.mem_filterMap.mp (mem_granted.mp hfd)
      obtain ⟨o, ho, hn⟩ := Event.tried_of_connection hc
      exact run.untried unused he ho hn
    exact .nothing none (empty op sub submitted)
  · intro t s p σ before
    exact before.step (c := s.channel) (p := p) (x := none) (granted_cons_none rfl) (.same σ)
  · intro t c l₁ l₂ p x turn σ' _ _ _ hn fate
    exact .fate fate hn

/-- Who got a connection was submitted. -/
theorem Run.submits_of_connection (run : Run use t s) (h : (n, fd) ∈ connections t) :
    ∃ op sub, .submission op sub ∈ s.parties ∧ op.ticket = n := by
  obtain ⟨e, he, hc⟩ := List.mem_filterMap.mp h
  obtain ⟨o, ho, rfl⟩ := Event.tried_of_connection hc
  exact run.submission_of_tried he ho

section handed
variable (run : Run use t s)
  (empty : ∀ op sub, .submission op sub ∈ s.parties → op.EmptyHanded)
include run empty

/-- No accept gets more than one connection. -/
theorem Run.length_granted_le (n : Nat) : (granted n t).length ≤ 1 := by
  cases hg : granted n t with
  | nil => exact Nat.zero_le 1
  | cons fd rest =>
      have hm : (n, fd) ∈ connections t := mem_granted.mp (hg ▸ .head _)
      obtain ⟨op, sub, submitted, rfl⟩ := run.submits_of_connection hm
      obtain ⟨σ, hσ, hn⟩ := run.stands submitted
      rw [← hg, ← hn]
      cases run.holds empty hσ with
      | nothing none _ =>
          rw [none]
          exact Nat.zero_le 1
      | connection one _ _ =>
          rw [one]
          exact Nat.le_refl 1

theorem Run.connections_nodup : (connections t).Nodup := by
  refine List.Nodup.of_map (·.1) (List.nodup_iff_count.mpr fun n => ?_)
  rw [List.count_eq_countP, List.countP_map, List.countP_eq_length_filter]
  have atMost := run.length_granted_le empty n
  rwa [granted, List.length_map] at atMost

/-- Whoever was given a descriptor had got it. -/
theorem Run.connection_of_reported (h : (n, fd) ∈ reported t) (some : fd ≠ -1) :
    (n, fd) ∈ connections t := by
  obtain ⟨op, ho, hd⟩ := List.mem_filterMap.mp h
  obtain ⟨fd', hd, he⟩ := Option.map_eq_some_iff.mp hd
  cases he
  cases run.holds empty (mem_standings_of_scheduled ho) with
  | nothing _ he => exact absurd (he fd hd) some
  | connection hg hd' _ =>
      cases hd.symm.trans hd'
      exact mem_granted.mp (hg ▸ .head _)

/-- An accept that was completed reports what it got, and succeeded. -/
theorem Run.success_of_connection (h : (n, fd) ∈ connections t) (ho : op ∈ scheduled t)
    (hn : op.ticket = n) : op.descriptor? = some fd ∧ op.status = .success := by
  subst hn
  have got : fd ∈ granted op.ticket t := mem_granted.mpr h
  cases run.holds empty (mem_standings_of_scheduled ho) with
  | nothing hg _ =>
      have none : granted op.ticket t = [] := hg
      rw [none] at got
      cases got
  | connection hg hd hs =>
      have one : granted op.ticket t = [_] := hg
      rw [one] at got
      cases List.mem_singleton.mp got
      exact ⟨hd, hs⟩

end handed

theorem Run.reported_nodup (run : Run use t s) : (reported t).Nodup := by
  refine List.pairwise_filterMap.mpr ((List.pairwise_map.mp run.scheduled_nodup).imp ?_)
  rintro op op' other _ hop _ hop' rfl
  obtain ⟨_, -, rfl⟩ := Option.map_eq_some_iff.mp hop
  obtain ⟨_, -, he⟩ := Option.map_eq_some_iff.mp hop'
  exact other (congrArg Prod.fst he).symm

/-- Everything that was submitted has returned, and so has the close. -/
structure Finished (s : System) : Prop where
  submissions : ∀ p ∈ s.parties, ∀ n, p.Submits n → p.HasReturned
  closing : ∃ k, .closing k ∈ s.parties
  closed : ∀ k, .closing k ∈ s.parties → (Party.closing k).HasReturned

/-- In the end, whatever was submitted was scheduled, once. -/
theorem Run.one_scheduled (run : Run use t s) (finished : Finished s) {sub : Submission}
    (submitted : .submission op sub ∈ s.parties) :
    ∃ o, (scheduled t).filter (·.ticket == op.ticket) = [o] := by
  obtain ⟨held, line⟩ := run.nothing_left finished.closing finished.closed
  obtain ⟨σ, hσ, same⟩ := run.stands submitted
  rw [← same]
  rcases mem_standings.mp hσ with ⟨p, hp, hσ⟩ | ⟨d, o, ho, rfl⟩ | ⟨o, ho, rfl⟩
  · have mem := List.mem_map_of_mem (f := Standing.op) hσ
    rw [p.op_standings, held p hp, List.append_nil] at mem
    obtain ⟨submits, busy⟩ := run.submits_of_brings hp mem
    exact absurd (finished.submissions p hp _ submits) busy
  · rw [line d] at ho
    cases ho
  · exact ⟨o, run.filter_scheduled ho⟩

/-- In the end, a connection was handed to the caller of the accept that got it. -/
theorem Run.reported_of_connection (run : Run use t s)
    (empty : ∀ op sub, .submission op sub ∈ s.parties → op.EmptyHanded) (finished : Finished s)
    (h : (n, fd) ∈ connections t) :
    ∃ op, (scheduled t).filter (·.ticket == n) = [op] ∧ op.descriptor? = some fd ∧
      op.status = .success := by
  obtain ⟨o, sub, submitted, rfl⟩ := run.submits_of_connection h
  obtain ⟨op, only⟩ := run.one_scheduled finished submitted
  obtain ⟨ho, hn⟩ := List.mem_filter.mp (only ▸ List.mem_singleton_self op)
  exact ⟨op, only, run.success_of_connection empty h ho (eq_of_beq hn)⟩

/-- A failed accept reports no descriptor.  Once everything has returned and the channel is closed,
every connection that was accepted was handed over, with success and to one caller only. -/
theorem Run.handed_over (run : Run use t s)
    (empty : ∀ op sub, .submission op sub ∈ s.parties → op.EmptyHanded) :
    (∀ op ∈ scheduled t, ∀ fd address status,
      op.completion.outcome = .accepted fd address status → status ≠ .success → fd = -1) ∧
    (Finished s →
      (∀ n fd, (n, fd) ∈ connections t → ∃ op address,
        (scheduled t).filter (·.ticket == n) = [op] ∧
          op.completion.outcome = .accepted fd address .success) ∧
      ((connections t).filter (·.2 ≠ -1)).Perm ((reported t).filter (·.2 ≠ -1))) := by
  refine ⟨fun op ho fd address status outcome failed => ?_, fun finished => ⟨?_, ?_⟩⟩
  · obtain ⟨hd, rfl⟩ := Operation.accepted_iff.mp ⟨address, outcome⟩
    cases run.holds empty (mem_standings_of_scheduled ho) with
    | nothing _ he => exact he fd hd
    | connection _ _ hs => exact absurd hs failed
  · intro n fd h
    obtain ⟨op, only, hd, hs⟩ := run.reported_of_connection empty finished h
    obtain ⟨address, outcome⟩ := Operation.accepted_iff.mpr ⟨hd, hs⟩
    exact ⟨op, address, only, outcome⟩
  · refine (List.perm_ext_iff_of_nodup ((run.connections_nodup empty).filter _)
      (run.reported_nodup.filter _)).mpr fun ⟨n, fd⟩ => ?_
    simp only [List.mem_filter, decide_eq_true_eq]
    refine and_congr_left fun some => ⟨fun h => ?_, fun h => ?_⟩
    · obtain ⟨op, only, hd, -⟩ := run.reported_of_connection empty finished h
      obtain ⟨ho, hn⟩ := List.mem_filter.mp (only ▸ List.mem_singleton_self op)
      exact List.mem_filterMap.mpr ⟨op, ho, by rw [hd, eq_of_beq hn]; rfl⟩
    · exact run.connection_of_reported empty h some

/-- The kernel has a connection for every accept. -/
def connects : (request : Call) → Protocol.Answer request
  | .system (.accept ..) => Except.ok (⟨11, default⟩ : Accepted)
  | request => notReady request

/-- An accept that has to wait gets its connection from a dispatch, and then the channel is
closed. -/
def waitingAccept : List Choice :=
  .join (.submission true (.accept 7 default)) :: List.replicate 5 (.act 0 notReady) ++
    .join (.dispatch .readable) :: List.replicate 10 (.act 1 connects) ++
    .join (.closing true) :: List.replicate 5 (.act 2 notReady)

theorem handed_over_accept : ∃ t s, Run (fun _ => True) t s ∧ connections t = [(7, 11)] ∧
    ∃ op address, (scheduled t).filter (·.ticket == 7) = [op] ∧
      op.completion.outcome = .accepted 11 address .success := by
  have run := run_of_isSome (.socket 10)
    (show (replay (fun _ => True) (ofSocket 10) waitingAccept).isSome = true by rfl)
  generalize hr : Option.get _ _ = r at run
  have parties : r.2.parties = [.submission (.accept 7 default) ⟨true, .answered .pending⟩,
      .dispatch .ended, .closing ⟨true, .ended (.ok ())⟩] := by
    rw [← hr]
    rfl
  have got : connections r.1 = [(7, 11)] := by
    rw [← hr]
    rfl
  have finished : Finished r.2 := by
    refine ⟨fun p hp n hs => ?_, ⟨⟨true, .ended (.ok ())⟩, by simp [parties]⟩, fun k hk => ?_⟩
    · simp only [parties, List.mem_cons, List.not_mem_nil, or_false] at hp
      rcases hp with rfl | rfl | rfl
      · exact ⟨_, rfl⟩
      · exact rfl
      · exact ⟨_, rfl⟩
    · simp only [parties, List.mem_cons, List.not_mem_nil, or_false] at hk
      rcases hk with hk | hk | ⟨⟨⟩⟩
      · cases hk
      · cases hk
      · exact ⟨_, rfl⟩
  have empty : ∀ op sub, .submission op sub ∈ r.2.parties → op.EmptyHanded := by
    intro op sub hm
    simp only [parties, List.mem_cons, List.not_mem_nil, or_false] at hm
    rcases hm with ⟨⟨⟩⟩ | hm | hm
    · exact Operation.emptyHanded_accept 7 default
    · cases hm
    · cases hm
  exact ⟨r.1, r.2, run, got, ((run.handed_over empty).2 finished).1 7 11 (got ▸ .head _)⟩

end Channel
end Proactor
