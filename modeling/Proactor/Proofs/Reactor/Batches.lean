import Mathlib.Data.List.Nodup
import Proactor.Proofs.Reactor.Interleaving
/-! # Events in flight

An event is raised for one registration of a descriptor, and it is told to whoever stands in the
table when its turn comes in its batch.

* **Table** (`Run.known`).  A handler in the table was put there by a registration.
* **Entries** (`Run.sound`, `Run.forgotten`).  An entry that the kernel has dropped never comes
  back.
* **Batches** (`Run.carried`).  So an event of a dropped entry was in its batch when the entry was
  dropped. -/

namespace Proactor.Reactor

variable {r r' : Reactor} {k k' : Watched} {x : Option (Exchange Call)} {n i : Nat}
  {fd : Descriptor} {h : Handler} {g : Entry} {o : Occurrence} {t : List Occurrence} {s : System}

/-! ### The table -/

theorem handler?_forget (r : Reactor) (fd fd' : Descriptor) :
    (r.forget fd).handler? fd' = if fd' = fd then none else r.handler? fd' := by
  by_cases same : fd' = fd
  · simp [handler?, forget, same]
  · simp only [handler?, forget, if_neg same, List.find?_filter]
    congr 2
    funext p
    by_cases hp : p.1 = fd' <;> simp [hp, same]

theorem handler?_install (r : Reactor) (fd fd' : Descriptor) (h : Handler) :
    (r.install fd h).handler? fd' = if fd' = fd then some h else r.handler? fd' := by
  have forgotten := handler?_forget r fd fd'
  by_cases same : fd' = fd
  · simp [handler?, install, same]
  · rw [if_neg same] at forgotten ⊢
    rw [← forgotten]
    simp [handler?, install, Ne.symm same]

/-- A registration that may still put back a handler. -/
def Registering.Remembers (fd : Descriptor) (h : Handler) : Registering → Prop
  | add fd' _ previous | modify fd' _ previous => fd' = fd ∧ previous = some h
  | _ => False

theorem handler?_putBack {previous : Option Handler} {fd' : Descriptor}
    (now : (r.putBack fd' previous).handler? fd = some h) :
    r.handler? fd = some h ∨ (fd' = fd ∧ previous = some h) := by
  cases previous with
  | none =>
      rw [putBack, handler?_forget] at now
      split at now
      · cases now
      · exact .inl now
  | some h' =>
      rw [putBack, handler?_install] at now
      split at now
      · next same => exact .inr ⟨same.symm, now⟩
      · exact .inl now

/-- A registration leaves and remembers what was there, apart from what it brings. -/
theorem Registering.known {c : Registering} {turn : Turn Reactor Registering}
    (yields : (c.next r).Yields r x turn)
    (now : turn.state.handler? fd = some h ∨ turn.phase.Remembers fd h) :
    r.handler? fd = some h ∨ c.Remembers fd h ∨ ∃ interest, c = .enter fd interest h := by
  cases c with
  | enter fd' interest h' =>
      cases yields
      rcases now with now | ⟨rfl, now⟩
      · rw [handler?_install] at now
        split at now
        · next same =>
          cases now
          exact .inr (.inr ⟨interest, by rw [same]⟩)
        · exact .inl now
      · exact .inl now
  | add fd' interest previous =>
      cases yields with
      | ask _ _ answer =>
          simp only [afterAdd] at now
          split at now
          · exact .inl (now.resolve_right id)
          · split at now
            · exact now.imp_right .inl
            · exact (handler?_putBack (now.resolve_right id)).imp_right .inl
  | modify fd' interest previous =>
      cases yields with
      | ask _ _ answer =>
          simp only [afterModify] at now
          split at now
          · exact .inl (now.resolve_right id)
          · exact (handler?_putBack (now.resolve_right id)).imp_right .inl
  | ended result => cases yields

theorem Unregistering.known {c : Unregistering} {turn : Turn Reactor Unregistering}
    (yields : (c.next r).Yields r x turn) (now : turn.state.handler? fd = some h) :
    r.handler? fd = some h := by
  cases c with
  | enter fd' remaining =>
      simp only [next] at yields
      split at yields
      · cases yields
        rw [handler?_forget] at now
        split at now
        · cases now
        · exact now
      · cases yields
        exact now
  | delete fd' | narrow fd' _ =>
      cases yields with
      | ask _ _ answer =>
          simp only [finish] at now
          split at now <;> exact now
  | ended result => cases yields

/-! ### Entries -/

/-- Entries are told apart by their numbers, and their events name their descriptors. -/
structure Watched.Sound (k : Watched) : Prop where
  own : ∀ g ∈ k.entries, g.token = token g.fd
  isDescriptor : ∀ g ∈ k.entries, IsDescriptor g.fd
  old : ∀ g ∈ k.entries, g.number < k.made
  apart : (k.entries.map Entry.number).Nodup

/-- A request that tells the kernel of a token tells it the token of its descriptor. -/
def TellsOwn : Option (Exchange Call) → Prop
  | some ⟨.system (.watch _ (.add fd _ t)), _⟩ => t = token fd
  | some ⟨.system (.watch _ (.modify fd _ t)), _⟩ => t = token fd
  | _ => True

theorem Registering.tellsOwn {c : Registering} {turn : Turn Reactor Registering}
    (yields : (c.next r).Yields r x turn) : TellsOwn x := by
  cases c with
  | enter _ _ _ =>
      cases yields
      trivial
  | add _ _ _ | modify _ _ _ =>
      cases yields
      rfl
  | ended _ => cases yields

theorem Unregistering.tellsOwn {c : Unregistering} {turn : Turn Reactor Unregistering}
    (yields : (c.next r).Yields r x turn) : TellsOwn x := by
  cases c with
  | enter _ _ =>
      simp only [next] at yields
      split at yields <;>
      · cases yields
        trivial
  | delete _ =>
      cases yields
      trivial
  | narrow _ _ =>
      cases yields
      rfl
  | ended _ => cases yields

namespace Watched

theorem retoken_eq (sound : k.Sound) (fd : Descriptor) : k.retoken fd (token fd) = k := by
  have same : k.entries.map (fun g => if g.fd = fd then { g with token := token fd } else g) =
      k.entries := by
    refine (List.map_congr_left fun g hg => ?_).trans (List.map_id _)
    split
    · next here =>
      rw [← here, ← sound.own g hg]
      rfl
    · rfl
  rw [retoken, same]

theorem Sound.add (sound : k.Sound) (isDescriptor : IsDescriptor fd) :
    (k.add fd (token fd)).Sound where
  own := List.forall_mem_cons.mpr ⟨rfl, sound.own⟩
  isDescriptor := List.forall_mem_cons.mpr ⟨isDescriptor, sound.isDescriptor⟩
  old := List.forall_mem_cons.mpr
    ⟨Nat.lt_succ_self _, fun g hg => Nat.lt_succ_of_lt (sound.old g hg)⟩
  apart := by
    refine List.nodup_cons.mpr ⟨fun again => ?_, sound.apart⟩
    obtain ⟨g, hg, same⟩ := List.mem_map.mp again
    exact absurd (sound.old g hg) (by simp [same])

theorem Sound.drop (sound : k.Sound) (fd : Descriptor) : (k.drop fd).Sound where
  own g hg := sound.own g (List.mem_of_mem_filter hg)
  isDescriptor g hg := sound.isDescriptor g (List.mem_of_mem_filter hg)
  old g hg := sound.old g (List.mem_of_mem_filter hg)
  apart := sound.apart.sublist (List.filter_sublist.map _)

/-- An answer makes an entry or drops one, or it leaves all as they are. -/
theorem Answers.cases (answers : k.Answers x k') (sound : k.Sound) (own : TellsOwn x) :
    k' = k ∨ (∃ fd, k' = k.add fd (token fd) ∧ IsDescriptor fd) ∨
      ∃ queue fd, k' = k.drop fd ∧ x = some ⟨.system (.watch queue (.delete fd)), .ok ()⟩ := by
  cases answers with
  | nothing | refused _ _ => exact .inl rfl
  | added free isDescriptor =>
      cases own
      exact .inr (.inl ⟨_, rfl, isDescriptor⟩)
  | modified held =>
      cases own
      exact .inl (retoken_eq sound _)
  | deleted held => exact .inr (.inr ⟨_, _, rfl, rfl⟩)

theorem Answers.sound (answers : k.Answers x k') (sound : k.Sound) (own : TellsOwn x) :
    k'.Sound := by
  rcases answers.cases sound own with rfl | ⟨fd, rfl, isDescriptor⟩ | ⟨_, fd, rfl, -⟩
  · exact sound
  · exact sound.add isDescriptor
  · exact sound.drop fd

end Watched

/-! ### Dispatch threads -/

/-- What raised an event tells the token that it carries. -/
def Bears : Option Entry → Proactor.Event → Prop
  | some g, e => e.token = token g.fd ∧ IsDescriptor g.fd
  | none, e => e.token = counterToken

theorem exists_related {R : Option Entry → Proactor.Event → Prop} {origin : Option Entry}
    {origins : List (Option Entry)} {events : List Proactor.Event}
    (related : List.Forall₂ R origins events) (mem : origin ∈ origins) : ∃ e, R origin e := by
  induction related with
  | nil => cases mem
  | cons head _ ih =>
      rcases List.mem_cons.mp mem with rfl | mem
      · exact ⟨_, head⟩
      · exact ih mem

theorem Watched.Sound.bears (sound : k.Sound) {origin : Option Entry} {e : Proactor.Event}
    (raises : k.Raises origin e) : Bears origin e := by
  cases origin with
  | none => exact raises
  | some g => exact ⟨raises.2.trans (sound.own g raises.1), sound.isDescriptor g raises.1⟩

theorem toNat_token (h : IsDescriptor fd) : (token fd).toNat = fd.toNat := by
  obtain ⟨h₀, h₁⟩ := h
  have word : UInt64.ofInt fd = UInt64.ofNat fd.toNat := by
    unfold UInt64.ofInt
    congr 1
    omega
  rw [token, word, UInt64.toNat_ofNat']
  omega

theorem descriptor_token (h : IsDescriptor fd) : descriptor (token fd) = fd := by
  have word := toNat_token h
  obtain ⟨h₀, h₁⟩ := h
  show Int.bmod (token fd).toNat 4294967296 = fd
  rw [word, Int.bmod_def]
  omega

theorem token_ne_counterToken (h : IsDescriptor fd) : token fd ≠ counterToken := by
  intro same
  have word := toNat_token h
  rw [same] at word
  have all : counterToken.toNat = 18446744073709551615 := rfl
  obtain ⟨h₀, h₁⟩ := h
  omega

namespace Loop

/-- It carries no events. -/
def Idle : Loop → Prop
  | check | wait | ended => True
  | _ => False

end Loop

/-- The handler that is to take an event. -/
def Loop.hearer? : Loop → Option Handler
  | deliver _ h _ _ => some h
  | _ => none

/-- What the next step of a dispatch thread can do. -/
inductive Dispatcher.Step (r : Reactor) (k : Watched) :
    Dispatcher → Option (Exchange Call) → Dispatcher → Prop
  | rested {loop loop' : Loop} {current : Option Entry} {origins : List (Option Entry)}
      {x : Option (Exchange Call)} (idle : loop.Idle) (idle' : loop'.Idle)
      (quiet : told? x = none) :
      Step r k ⟨loop, current, origins⟩ x ⟨loop', none, origins⟩
  | fetched {current : Option Entry} {origins origins' : List (Option Entry)}
      {x : Option (Exchange Call)} {events : List Proactor.Event}
      (raised : List.Forall₂ k.Raises origins' events) (quiet : told? x = none) :
      Step r k ⟨.wait, current, origins⟩ x ⟨.batch events, none, origins'⟩
  | emptied {current : Option Entry} {origins : List (Option Entry)} :
      Step r k ⟨.batch [], current, origins⟩ none ⟨.check, origins.head?.join, origins.tail⟩
  | skipped {current : Option Entry} {origins : List (Option Entry)} {e : Proactor.Event}
      {rest : List Proactor.Event} :
      Step r k ⟨.batch (e :: rest), current, origins⟩ none
        ⟨.batch rest, origins.head?.join, origins.tail⟩
  | found {current : Option Entry} {origins : List (Option Entry)} {e : Proactor.Event}
      {rest : List Proactor.Event} {h : Handler} (fromDescriptor : e.token ≠ counterToken)
      (handler : r.handler? (descriptor e.token) = some h) :
      Step r k ⟨.batch (e :: rest), current, origins⟩ none
        ⟨.deliver (descriptor e.token) h (ofKernel e.bits) rest, origins.head?.join, origins.tail⟩
  | delivered {current : Option Entry} {origins : List (Option Entry)} {fd : Descriptor}
      {h : Handler} {events : Readiness} {rest : List Proactor.Event} {heard : Bool} :
      Step r k ⟨.deliver fd h events rest, current, origins⟩ (some ⟨.deliver h events, heard⟩)
        ⟨.batch rest, none, origins⟩

theorem Loop.afterWait_error (error : Int) (r : Reactor) :
    (afterWait (.error error) r).state = r ∧ (afterWait (.error error) r).phase.Idle := by
  simp only [afterWait, Except.mapError]
  split <;> exact ⟨rfl, trivial⟩

theorem Loop.yields_batch {e : Proactor.Event} {rest : List Proactor.Event}
    {turn : Turn Reactor Loop} (yields : ((Loop.batch (e :: rest)).next r).Yields r x turn) :
    x = none ∧ turn.state = r ∧ (turn.phase = .batch rest ∨ e.token ≠ counterToken ∧
      ∃ h, r.handler? (descriptor e.token) = some h ∧
        turn.phase = .deliver (descriptor e.token) h (ofKernel e.bits) rest) := by
  simp only [next] at yields
  split at yields
  · cases yields
    exact ⟨rfl, rfl, .inl rfl⟩
  · next fromDescriptor =>
    split at yields
    · next h handler =>
      cases yields
      exact ⟨rfl, rfl, .inr ⟨fromDescriptor, h, handler, rfl⟩⟩
    · cases yields
      exact ⟨rfl, rfl, .inl rfl⟩

theorem Dispatcher.step_of_acts {d : Dispatcher} {q' : Party}
    (acts : (Party.dispatcher d).Acts r k x r' k' q') :
    r' = r ∧ k' = k ∧ ∃ d', q' = .dispatcher d' ∧ d.Step r k x d' := by
  obtain ⟨loop, current, origins⟩ := d
  cases acts with
  | @fetch _ _ turn events origins' yields fetched fits raised =>
      cases loop with
      | wait =>
          cases yields with
          | ask _ _ answer =>
              cases answer with
              | error _ => cases fetched
              | ok events =>
                  cases fetched
                  exact ⟨rfl, rfl, _, rfl, .fetched raised rfl⟩
      | batch events =>
          cases events with
          | nil =>
              cases yields
              cases fetched
          | cons e rest =>
              obtain ⟨rfl, -⟩ := Loop.yields_batch yields
              cases fetched
      | check | deliver _ _ _ _ =>
          cases yields
          cases fetched
      | ended => cases yields
  | @dispatch _ _ turn yields fetched =>
      cases loop with
      | check =>
          cases yields
          refine ⟨rfl, rfl, _, rfl, .rested trivial ?_ rfl⟩
          show Loop.Idle (if r.stopped = true then _ else _)
          split <;> trivial
      | wait =>
          cases yields with
          | ask _ _ answer =>
              cases answer with
              | error error =>
                  obtain ⟨same, idle⟩ := Loop.afterWait_error error r
                  exact ⟨same, rfl, _, rfl, .rested trivial idle rfl⟩
              | ok events => cases fetched
      | batch events =>
          cases events with
          | nil =>
              cases yields
              exact ⟨rfl, rfl, _, rfl, .emptied⟩
          | cons e rest =>
              obtain ⟨loop, state, _⟩ := turn
              obtain ⟨rfl, rfl, rfl | ⟨fromDescriptor, h, handler, rfl⟩⟩ := Loop.yields_batch yields
              · exact ⟨rfl, rfl, _, rfl, .skipped⟩
              · exact ⟨rfl, rfl, _, rfl, .found fromDescriptor handler⟩
      | deliver _ _ _ _ =>
          cases yields
          exact ⟨rfl, rfl, _, rfl, .delivered⟩
      | ended => cases yields

/-- The events that a thread carries are those that its entries raised. -/
def Dispatcher.Fits (d : Dispatcher) : Prop :=
  match d.loop with
  | .batch events => List.Forall₂ Bears d.origins events
  | .deliver fd _ _ rest =>
    List.Forall₂ Bears d.origins rest ∧ ∀ g, d.current = some g → g.fd = fd
  | _ => d.origins = []

theorem Dispatcher.Fits.isDescriptor {d : Dispatcher} (fits : d.Fits) (hg : some g ∈ d.origins) :
    IsDescriptor g.fd := by
  obtain ⟨loop, current, origins⟩ := d
  cases loop with
  | batch events =>
      obtain ⟨e, bears⟩ := exists_related fits hg
      exact bears.2
  | deliver fd h events rest =>
      obtain ⟨e, bears⟩ := exists_related fits.1 hg
      exact bears.2
  | check | wait | ended =>
      rw [show origins = [] from fits] at hg
      cases hg

theorem Dispatcher.Step.fits {d d' : Dispatcher} (step : d.Step r k x d') (sound : k.Sound)
    (fits : d.Fits) : d'.Fits := by
  cases step with
  | @rested loop loop' _ origins _ idle idle' _ =>
      have none : origins = [] := by
        cases loop with
        | check | wait | ended => exact fits
        | batch _ | deliver _ _ _ _ => exact idle.elim
      cases loop' with
      | check | wait | ended => exact none
      | batch _ | deliver _ _ _ _ => exact idle'.elim
  | fetched raised _ => exact raised.imp fun _ _ raises => sound.bears raises
  | emptied =>
      cases fits
      rfl
  | skipped =>
      cases fits with
      | cons _ rest => exact rest
  | found fromDescriptor _ =>
      cases fits with
      | @cons origin _ _ _ bears rest =>
          refine ⟨rest, fun g hg => ?_⟩
          obtain rfl : origin = some g := hg
          rw [bears.1, descriptor_token bears.2]
  | delivered => exact fits.1

/-! ### What holds throughout a run -/

theorem mem_set {l : List Party} {j : Nat} {q o : Party} (h : (l.set j q)[i]? = some o) :
    (i = j ∧ o = q) ∨ (i ≠ j ∧ l[i]? = some o) := by
  rw [List.getElem?_set] at h
  split at h
  · next same =>
    split at h
    · exact .inl ⟨same.symm, (Option.some.inj h).symm⟩
    · cases h
  · next apart => exact .inr ⟨Ne.symm apart, h⟩

theorem mem_joined {l : List Party} {q o : Party} (h : (l ++ [q])[i]? = some o) :
    l[i]? = some o ∨ o = q := by
  rw [List.getElem?_append] at h
  split at h
  · exact .inl h
  · rw [List.getElem?_singleton] at h
    split at h
    · exact .inr (Option.some.inj h).symm
    · cases h

theorem Run.sound (run : Run r n t s) : s.watched.Sound := by
  induction run with
  | start => exact ⟨nofun, nofun, nofun, .nil⟩
  | join _ _ ih => exact ih
  | act _ _ acts ih =>
      cases acts with
      | fetch _ _ _ _ | dispatch _ _ => exact ih
      | register yields answers => exact answers.sound ih (Registering.tellsOwn yields)
      | unregister yields answers => exact answers.sound ih (Unregistering.tellsOwn yields)
  | close _ fd ih => exact ih.drop fd
  | stop _ ih => exact ih

theorem Run.fits (run : Run r n t s) {d : Dispatcher} (hd : s.parties[i]? = some (.dispatcher d)) :
    d.Fits := by
  induction run generalizing d with
  | start =>
      cases List.eq_of_mem_replicate (List.mem_of_getElem? hd)
      rfl
  | join _ begins ih =>
      rcases mem_joined hd with hd | rfl
      · exact ih hd
      · cases begins
  | @act _ s run j q q' party _ _ _ acts ih =>
      rcases mem_set hd with ⟨rfl, rfl⟩ | ⟨-, hd⟩
      · cases q with
        | dispatcher _ =>
            obtain ⟨-, -, d', hd', step⟩ := Dispatcher.step_of_acts acts
            cases hd'
            exact step.fits run.sound (ih party)
        | registering _ | unregistering _ => cases acts
      · exact ih hd
  | close _ _ ih => exact ih hd
  | stop _ ih => exact ih hd

/-- A party that may still put back a handler. -/
def Party.Remembers (fd : Descriptor) (h : Handler) : Party → Prop
  | registering c => c.Remembers fd h
  | _ => False

/-- A handler stands in the table, or it may be put back. -/
def System.Knows (s : System) (fd : Descriptor) (h : Handler) : Prop :=
  s.reactor.handler? fd = some h ∨ ∃ q ∈ s.parties, q.Remembers fd h

theorem Party.Acts.known {q q' : Party} (acts : q.Acts r k x r' k' q')
    (now : r'.handler? fd = some h ∨ q'.Remembers fd h) :
    r.handler? fd = some h ∨ q.Remembers fd h ∨
      ∃ interest, q = .registering (.enter fd interest h) := by
  cases q with
  | dispatcher d =>
      obtain ⟨rfl, -, _, rfl, -⟩ := Dispatcher.step_of_acts acts
      exact .inl (now.resolve_right id)
  | registering c =>
      cases acts with
      | register yields _ =>
          refine (Registering.known yields now).imp_right (.imp_right fun ⟨interest, hc⟩ => ?_)
          exact ⟨interest, by rw [hc]⟩
  | unregistering c =>
      cases acts with
      | unregister yields _ => exact .inl (Unregistering.known yields (now.resolve_right id))

/-- A handler in the table was put there by a registration. -/
theorem Run.known (run : Run r n t s) (knows : s.Knows fd h) : ∃ o ∈ t, o.Installs fd h := by
  induction run with
  | start =>
      rcases knows with now | ⟨q, hq, remembers⟩
      · cases now
      · cases List.eq_of_mem_replicate hq
        exact remembers.elim
  | @join t s _ q begins ih =>
      have old : s.Knows fd h := by
        refine knows.imp_right fun ⟨o, ho, remembers⟩ => ?_
        rcases List.mem_append.mp ho with ho | ho
        · exact ⟨o, ho, remembers⟩
        · cases List.mem_singleton.mp ho
          cases begins <;> exact remembers.elim
      obtain ⟨o, ho, installs⟩ := ih old
      exact ⟨o, .tail _ ho, installs⟩
  | @act t s run j q q' party x r' k' acts ih =>
      have old : s.Knows fd h ∨ ∃ interest, q = .registering (.enter fd interest h) := by
        have own : s.reactor.handler? fd = some h ∨ q.Remembers fd h ∨
            (∃ interest, q = .registering (.enter fd interest h)) →
            s.Knows fd h ∨ ∃ interest, q = .registering (.enter fd interest h) := by
          rintro (now | remembers | brings)
          · exact .inl (.inl now)
          · exact .inl (.inr ⟨q, List.mem_of_getElem? party, remembers⟩)
          · exact .inr brings
        rcases knows with now | ⟨o, ho, remembers⟩
        · exact own (acts.known (.inl now))
        · rcases List.mem_or_eq_of_mem_set ho with ho | rfl
          · exact .inl (.inr ⟨o, ho, remembers⟩)
          · exact own (acts.known (.inr remembers))
      rcases old with old | ⟨interest, rfl⟩
      · obtain ⟨o, ho, installs⟩ := ih old
        exact ⟨o, .tail _ ho, installs⟩
      · exact ⟨_, .head _, _, _, interest, _, _, rfl⟩
  | close _ _ ih =>
      obtain ⟨o, ho, installs⟩ := ih knows
      exact ⟨o, .tail _ ho, installs⟩
  | stop _ ih =>
      obtain ⟨o, ho, installs⟩ := ih knows
      exact ⟨o, .tail _ ho, installs⟩

theorem Run.watched_cons (run : Run r n (o :: t) s) :
    s.watched = o.system.watched ∨ (∃ fd, s.watched = o.system.watched.add fd (token fd)) ∨
      ∃ fd, s.watched = o.system.watched.drop fd := by
  have sound := run.tail.sound
  have change : ∀ {x k'}, o.system.watched.Answers x k' → TellsOwn x → k' = o.system.watched ∨
      (∃ fd, k' = o.system.watched.add fd (token fd)) ∨
        ∃ fd, k' = o.system.watched.drop fd := fun answers own =>
    (answers.cases sound own).imp_right
      (.imp (fun ⟨fd, new, _⟩ => ⟨fd, new⟩) fun ⟨_, fd, new, _⟩ => ⟨fd, new⟩)
  cases run with
  | join _ _ | stop _ => exact .inl rfl
  | act _ _ acts =>
      cases acts with
      | fetch _ _ _ _ | dispatch _ _ => exact .inl rfl
      | register yields answers => exact change answers (Registering.tellsOwn yields)
      | unregister yields answers => exact change answers (Unregistering.tellsOwn yields)
  | close _ fd => exact .inr (.inr ⟨fd, rfl⟩)

/-- Who forgets an entry has the kernel drop its descriptor. -/
theorem Run.dropped (run : Run r n (o :: t) s) (forgets : o.Forgets g) :
    g ∈ o.system.watched.entries ∧ s.watched = o.system.watched.drop g.fd := by
  cases run with
  | join _ _ | stop _ => exact forgets.elim
  | @act _ s _ j q _ _ _ _ _ acts =>
      cases q with
      | dispatcher _ | registering _ => exact forgets.elim
      | unregistering c =>
          cases c with
          | delete fd =>
              obtain ⟨rfl, hg, rfl⟩ := forgets
              cases acts with
              | unregister _ answers =>
                  cases answers
                  exact ⟨hg, rfl⟩
          | enter _ _ | narrow _ _ | ended _ => exact forgets.elim
  | close _ fd =>
      obtain ⟨rfl, hg⟩ := forgets
      exact ⟨hg, rfl⟩

/-- What the kernel has dropped it never watches again. -/
theorem Run.forgotten (run : Run r n t s) (ho : o ∈ t) (forgets : o.Forgets g) :
    g.number < s.watched.made ∧ ∀ g' ∈ s.watched.entries, g'.number ≠ g.number := by
  induction t generalizing s with
  | nil => cases ho
  | cons o' t ih =>
      rcases List.mem_cons.mp ho with rfl | ho
      · have sound := run.tail.sound
        obtain ⟨hg, now⟩ := run.dropped forgets
        rw [now]
        refine ⟨sound.old g hg, fun g' hg' same => ?_⟩
        obtain ⟨hg', apart⟩ := List.mem_filter.mp hg'
        have := List.inj_on_of_nodup_map sound.apart hg' hg same
        simp [this] at apart
      · obtain ⟨old, apart⟩ := ih run.tail ho
        rcases run.watched_cons with now | ⟨fd, now⟩ | ⟨fd, now⟩ <;> rw [now]
        · exact ⟨old, apart⟩
        · exact ⟨Nat.lt_succ_of_lt old, List.forall_mem_cons.mpr ⟨Nat.ne_of_gt old, apart⟩⟩
        · exact ⟨old, fun g' hg' => apart g' (List.mem_of_mem_filter hg')⟩

/-- A thread that carries an event carried it before, or it has just fetched it. -/
theorem Run.carries_cons (run : Run r n (o :: t) s) (carries : s.Carries i g) :
    o.system.Carries i g ∨ (g ∈ o.system.watched.entries ∧ ¬ o.Forgets g) := by
  obtain ⟨d, hd, hg⟩ := carries
  cases run with
  | join _ begins =>
      rcases mem_joined hd with hd | rfl
      · exact .inl ⟨d, hd, hg⟩
      · cases begins
  | @act _ s run j q q' party _ _ _ acts =>
      rcases mem_set hd with ⟨rfl, rfl⟩ | ⟨-, hd⟩
      · cases q with
        | dispatcher d₀ =>
            obtain ⟨-, -, d', hd', step⟩ := Dispatcher.step_of_acts acts
            cases hd'
            cases step with
            | rested _ _ _ | delivered => exact .inl ⟨_, party, hg⟩
            | fetched raised _ =>
                obtain ⟨e, raises⟩ := exists_related raised hg
                exact .inr ⟨raises.1, id⟩
            | emptied | skipped | found _ _ => exact .inl ⟨_, party, List.mem_of_mem_tail hg⟩
        | registering _ | unregistering _ => cases acts
      · exact .inl ⟨d, hd, hg⟩
  | close _ _ => exact .inl ⟨d, hd, hg⟩
  | stop _ => exact .inl ⟨d, hd, hg⟩

/-- When an entry is forgotten, whoever is going to look up a handler for an event of it carries
that event already. -/
theorem Run.carried {newer older : List Occurrence} (run : Run r n (newer ++ o :: older) s)
    (forgets : o.Forgets g) (carries : s.Carries i g) : o.system.Carries i g := by
  induction newer generalizing s with
  | nil => exact (run.carries_cons carries).resolve_right fun fetched => fetched.2 forgets
  | cons o' newer ih =>
      refine ih run.tail ((run.carries_cons carries).resolve_right fun fetched => ?_)
      have apart := (run.tail.forgotten (List.mem_append_right _ (.head _)) forgets).2
      exact apart g fetched.1 rfl

/-! ### Deliveries -/

/-- The dispatch thread with the number `i` has found a handler for an event of an entry. -/
def System.Delivering (s : System) (i : Nat) (g : Entry) (h : Handler) : Prop :=
  ∃ d, s.parties[i]? = some (.dispatcher d) ∧ d.loop.hearer? = some h ∧ d.current = some g

/-- A thread that has a handler for an event had it before, or it has just looked it up. -/
theorem Run.delivering_cons (run : Run r n (o :: t) s) (delivering : s.Delivering i g h) :
    o.system.Delivering i g h ∨ (o.system.Carries i g ∧ o.system.reactor.handler? g.fd = some h ∧
      ¬ o.Forgets g) := by
  obtain ⟨d, hd, hl, hc⟩ := delivering
  cases run with
  | join _ begins =>
      rcases mem_joined hd with hd | rfl
      · exact .inl ⟨d, hd, hl, hc⟩
      · cases begins
  | @act _ s run j q q' party _ _ _ acts =>
      rcases mem_set hd with ⟨rfl, rfl⟩ | ⟨-, hd⟩
      · cases q with
        | dispatcher d₀ =>
            have fits := run.fits party
            obtain ⟨-, -, d', hd', step⟩ := Dispatcher.step_of_acts acts
            cases hd'
            cases step with
            | @rested _ loop' _ _ _ _ idle' _ =>
                cases loop' with
                | check | wait | batch _ | ended => cases hl
                | deliver _ _ _ _ => exact idle'.elim
            | fetched _ _ | emptied | skipped | delivered => cases hl
            | found fromDescriptor handler =>
                cases hl
                cases fits with
                | @cons origin _ _ _ bears _ =>
                    obtain rfl : origin = some g := hc
                    rw [bears.1, descriptor_token bears.2] at handler
                    exact .inr ⟨⟨_, party, .head _⟩, handler, id⟩
        | registering _ | unregistering _ => cases acts
      · exact .inl ⟨d, hd, hl, hc⟩
  | close _ _ => exact .inl ⟨d, hd, hl, hc⟩
  | stop _ => exact .inl ⟨d, hd, hl, hc⟩

/-- A handler that is told an event was registered for the number of the descriptor. -/
theorem Run.installed (run : Run r n t s) (delivering : s.Delivering i g h) :
    ∃ o ∈ t, o.Installs g.fd h := by
  induction t generalizing s with
  | nil =>
      obtain ⟨d, hd, hl, -⟩ := delivering
      cases run
      cases List.eq_of_mem_replicate (List.mem_of_getElem? hd)
      cases hl
  | cons o t ih =>
      have old : ∃ o ∈ t, o.Installs g.fd h := by
        rcases run.delivering_cons delivering with before | ⟨-, handler, -⟩
        · exact ih run.tail before
        · exact run.tail.known (.inl handler)
      obtain ⟨o, ho, installs⟩ := old
      exact ⟨o, .tail _ ho, installs⟩

/-- When an entry is forgotten, whoever is going to tell an event of it to a handler that was not
registered by then carries that event already. -/
theorem Run.carried_of_delivering {newer older : List Occurrence}
    (run : Run r n (newer ++ o :: older) s) (forgets : o.Forgets g)
    (delivering : s.Delivering i g h) (late : ∀ o' ∈ older, ¬ o'.Installs g.fd h) :
    o.system.Carries i g := by
  induction newer generalizing s with
  | nil =>
      rcases run.delivering_cons delivering with before | ⟨-, -, apart⟩
      · obtain ⟨o', ho', installs⟩ := run.tail.installed before
        exact (late o' ho' installs).elim
      · exact (apart forgets).elim
  | cons o' newer ih =>
      rcases run.delivering_cons delivering with before | ⟨carries, -, -⟩
      · exact ih run.tail before
      · exact run.tail.carried forgets carries

end Proactor.Reactor
