import Proactor.Proofs.Reactor.Batches
/-! # Numbers that are used again

While an event is in flight its descriptor may be unregistered, and its number registered again.
Whoever then stands in the table under that number is told the event.

* **Registering** (`Run.registers`).  A handler can be registered for any number at any moment.
* **Dispatching** (`Run.reaches`).  A dispatch thread comes to every event that it carries. -/

namespace Proactor.Reactor

variable {r : Reactor} {n i : Nat} {fd : Descriptor} {h : Handler} {g : Entry}
  {t : List Occurrence} {s : System}

/-! ### Registering -/

theorem Run.act_last {r₀ r' : Reactor} {k k' : Watched} {l : List Party} {q q' : Party}
    {x : Option (Exchange Call)} (run : Run r n t ⟨r₀, k, l ++ [q]⟩)
    (acts : q.Acts r₀ k x r' k' q') :
    Run r n (.acted ⟨r₀, k, l ++ [q]⟩ l.length q x q' :: t) ⟨r', k', l ++ [q']⟩ := by
  have last := run.act (i := l.length) (by simp) acts
  simpa using last

section registering
variable (r : Reactor) (fd : Descriptor) (interest : Readiness) (h : Handler)
  (previous : Option Handler)

theorem Registering.enters : ((enter fd interest h).next r).Yields r none
    ⟨r.install fd h, add fd interest (r.handler? fd), []⟩ := .step _

theorem Registering.adds : ((add fd interest previous).next r).Yields r
    (some ⟨.system (.watch r.queue (.add fd (toKernel interest) (token fd))), .ok ()⟩)
    (finish fd interest r) := .ask _ _ _

/-- The kernel says that it watches the descriptor already. -/
theorem Registering.findsPresent : ((add fd interest previous).next r).Yields r
    (some ⟨.system (.watch r.queue (.add fd (toKernel interest) (token fd))), .error 17⟩)
    ⟨r, modify fd interest previous, []⟩ := .ask _ _ _

theorem Registering.modifies : ((modify fd interest previous).next r).Yields r
    (some ⟨.system (.watch r.queue (.modify fd (toKernel interest) (token fd))), .ok ()⟩)
    (finish fd interest r) := .ask _ _ _

end registering

/-- A handler can be registered for any descriptor, whether it is watched already or not. -/
theorem Run.registers (run : Run r n t s) (isDescriptor : IsDescriptor fd) (interest : Readiness)
    (h : Handler) :
    ∃ newer k', Run r n (newer ++ t) ⟨s.reactor.install fd h, k',
        s.parties ++ [.registering (.ended (.ok ()))]⟩ ∧
      .joined s (.registering (.enter fd interest h)) ∈ newer := by
  have joined := run.join (.registering fd interest h)
  have entered := joined.act_last (.register (Registering.enters ..) .nothing)
  by_cases held : s.watched.Holds fd
  · have found := entered.act_last (.register (Registering.findsPresent ..) (.refused _ _))
    have again := found.act_last (.register (Registering.modifies ..) (.modified held))
    exact ⟨[_, _, _, _], _, again, .tail _ (.tail _ (.tail _ (.head _)))⟩
  · have added :=
      entered.act_last (.register (Registering.adds ..) (.added held isDescriptor))
    exact ⟨[_, _, _], _, added, .tail _ (.tail _ (.head _))⟩

/-! ### Dispatching -/

section dispatching
variable {d : Dispatcher} {origins : List (Option Entry)} {rest : List Proactor.Event}
  {current : Option Entry} {events : Readiness}

theorem Run.dispatches (run : Run r n t s) (party : s.parties[i]? = some (.dispatcher d))
    {loop : Loop} {lines : List Log.Entry}
    (next : d.loop.next s.reactor = .step ⟨s.reactor, loop, lines⟩) :
    Run r n (.acted s i (.dispatcher d) none (.dispatcher (d.goOn loop)) :: t)
      { s with parties := s.parties.set i (.dispatcher (d.goOn loop)) } := by
  have yields : (d.loop.next s.reactor).Yields s.reactor none ⟨s.reactor, loop, lines⟩ := by
    rw [next]
    exact .step _
  exact run.act party (.dispatch yields rfl)

theorem Run.tells (run : Run r n t s)
    (party : s.parties[i]? = some (.dispatcher ⟨.deliver fd h events rest, current, origins⟩)) :
    Run r n (.acted s i (.dispatcher ⟨.deliver fd h events rest, current, origins⟩)
        (some ⟨.deliver h events, true⟩) (.dispatcher ⟨.batch rest, none, origins⟩) :: t)
      { s with parties := s.parties.set i (.dispatcher ⟨.batch rest, none, origins⟩) } := by
  have yields : ((Loop.deliver fd h events rest).next s.reactor).Yields s.reactor
      (some ⟨.deliver h events, true⟩)
      ⟨s.reactor, .batch rest, if true then [] else [Loop.unheard fd]⟩ :=
    .ask (Call.deliver h events)
      (fun (heard : Bool) r => ⟨r, Loop.batch rest, if heard then [] else [Loop.unheard fd]⟩) true
  have acts := Party.Acts.dispatch (k := s.watched)
    (d := ⟨.deliver fd h events rest, current, origins⟩) yields rfl
  exact run.act party acts

/-- A thread looks up a handler for the first event of its batch, and finds one. -/
theorem Run.finds {e : Proactor.Event} {origin : Option Entry} (run : Run r n t s)
    (party : s.parties[i]? =
      some (.dispatcher ⟨.batch (e :: rest), current, origin :: origins⟩))
    (fromDescriptor : e.token ≠ counterToken)
    (handler : s.reactor.handler? (descriptor e.token) = some h) :
    ∃ newer, Run r n (newer ++ t) { s with parties := s.parties.set i (.dispatcher
      ⟨.deliver (descriptor e.token) h (ofKernel e.bits) rest, origin, origins⟩) } := by
  have next : (Loop.batch (e :: rest)).next s.reactor =
      .step ⟨s.reactor, .deliver (descriptor e.token) h (ofKernel e.bits) rest, []⟩ := by
    simp [Loop.next, fromDescriptor, handler]
  exact ⟨[_], run.dispatches party next⟩

theorem getElem?_set_of_some {l : List Party} {q q' : Party} (party : l[i]? = some q) :
    (l.set i q')[i]? = some q' := by
  rw [List.getElem?_set_self (List.getElem?_eq_some_iff.mp party).1]

/-- A thread is done with the first event of its batch, whoever it is for. -/
theorem Run.passes {e : Proactor.Event} {origin : Option Entry} (run : Run r n t s)
    (party : s.parties[i]? =
      some (.dispatcher ⟨.batch (e :: rest), current, origin :: origins⟩)) :
    ∃ newer current', Run r n (newer ++ t)
      { s with parties := s.parties.set i (.dispatcher ⟨.batch rest, current', origins⟩) } := by
  by_cases fromDescriptor : e.token = counterToken
  · have next : (Loop.batch (e :: rest)).next s.reactor = .step ⟨s.reactor, .batch rest, []⟩ := by
      simp [Loop.next, fromDescriptor]
    exact ⟨[_], origin, run.dispatches party next⟩
  · cases handler : s.reactor.handler? (descriptor e.token) with
    | none =>
        have next : (Loop.batch (e :: rest)).next s.reactor =
            .step ⟨s.reactor, .batch rest, [Loop.unheard (descriptor e.token)]⟩ := by
          simp [Loop.next, fromDescriptor, handler]
        exact ⟨[_], origin, run.dispatches party next⟩
    | some h =>
        obtain ⟨newer, found⟩ := run.finds party fromDescriptor handler
        have told := found.tells (getElem?_set_of_some party)
        simp only [List.set_set] at told
        exact ⟨_ :: newer, none, told⟩

/-- A thread comes to every event of its batch, and tells it to whoever stands in the table. -/
theorem Run.reaches {first last : List (Option Entry)} {batch : List Proactor.Event}
    (run : Run r n t s)
    (party : s.parties[i]? = some (.dispatcher ⟨.batch batch, current, first ++ some g :: last⟩))
    (handler : s.reactor.handler? g.fd = some h) :
    ∃ newer e s', Run r n (e :: (newer ++ t)) s' ∧ e.Delivers i g h ∧
      ∀ j, j ≠ i → e.system.parties[j]? = s.parties[j]? := by
  have fits : List.Forall₂ Bears (first ++ some g :: last) batch := run.fits party
  induction first generalizing t s batch current with
  | nil =>
      cases fits with
      | @cons _ e _ rest bears _ =>
          have here : descriptor e.token = g.fd := by rw [bears.1, descriptor_token bears.2]
          have fromDescriptor : e.token ≠ counterToken :=
            bears.1 ▸ token_ne_counterToken bears.2
          obtain ⟨newer, found⟩ := run.finds party fromDescriptor (here ▸ handler)
          have told := found.tells (getElem?_set_of_some party)
          refine ⟨newer, _, _, told, ⟨_, _, _, _, rfl, rfl, rfl⟩, fun j hj => ?_⟩
          exact List.getElem?_set_ne (Ne.symm hj)
  | cons origin first ih =>
      cases fits with
      | @cons _ e _ rest _ fits =>
          obtain ⟨newer, current', passed⟩ := run.passes party
          obtain ⟨newer', e', s', run', delivers, others⟩ :=
            ih passed (getElem?_set_of_some party) handler fits
          refine ⟨newer' ++ newer, e', s', by simpa using run', delivers, fun j hj => ?_⟩
          rw [others j hj]
          exact List.getElem?_set_ne (Ne.symm hj)

/-- A thread comes to every event that it carries. -/
theorem Run.comesTo (run : Run r n t s) (party : s.parties[i]? = some (.dispatcher d))
    (hg : some g ∈ d.origins) (handler : s.reactor.handler? g.fd = some h) :
    ∃ newer e s', Run r n (e :: (newer ++ t)) s' ∧ e.Delivers i g h ∧
      ∀ j, j ≠ i → e.system.parties[j]? = s.parties[j]? := by
  have fits := run.fits party
  obtain ⟨loop, current, origins⟩ := d
  obtain ⟨first, last, rfl⟩ := List.append_of_mem hg
  cases loop with
  | check | wait | ended =>
      rw [show first ++ some g :: last = [] from fits] at hg
      cases hg
  | batch events => exact run.reaches party handler
  | deliver fd h' events rest =>
      obtain ⟨newer, e, s', run', delivers, others⟩ :=
        (run.tells party).reaches (getElem?_set_of_some party) handler
      refine ⟨newer ++ [_], e, s', by simpa using run', delivers, fun j hj => ?_⟩
      rw [others j hj]
      exact List.getElem?_set_ne (Ne.symm hj)

end dispatching

/-- Whoever registers the number of a descriptor of which an event is in flight may be told that
event. -/
theorem Run.reused (run : Run r n t s) (carries : s.Carries i g) (interest : Readiness)
    (h : Handler) :
    ∃ newer e s', Run r n (e :: (newer ++ t)) s' ∧
      .joined s (.registering (.enter g.fd interest h)) ∈ newer ∧
      e.system.parties[s.parties.length]? = some (.registering (.ended (.ok ()))) ∧
      e.Delivers i g h := by
  obtain ⟨d, party, hg⟩ := carries
  obtain ⟨newer, k', registered, joined⟩ :=
    run.registers ((run.fits party).isDescriptor hg) interest h
  have before : i < s.parties.length := (List.getElem?_eq_some_iff.mp party).1
  have handler : (s.reactor.install g.fd h).handler? g.fd = some h := by
    rw [handler?_install, if_pos rfl]
  obtain ⟨newer', e, s', run', delivers, others⟩ :=
    registered.comesTo ((List.getElem?_append_left before).trans party) hg handler
  refine ⟨newer' ++ newer, e, s', by simpa using run', List.mem_append_right _ joined, ?_, delivers⟩
  rw [others _ (Nat.ne_of_gt before)]
  exact List.getElem?_concat_length

/-! ### Late events -/

theorem Run.delivering {newer older : List Occurrence} {e : Occurrence}
    (run : Run r n (newer ++ e :: older) s) (delivers : e.Delivers i g h) :
    e.system.Delivering i g h := by
  obtain ⟨s', run⟩ := run.earlier
  obtain ⟨s₀, d, x, q', rfl, tells, hc⟩ := delivers
  cases run with
  | act _ party acts =>
      refine ⟨d, party, ?_, hc⟩
      obtain ⟨-, -, _, -, step⟩ := Dispatcher.step_of_acts acts
      cases step with
      | rested _ _ quiet | fetched _ quiet => cases quiet.symm.trans tells
      | emptied | skipped | found _ _ => cases tells
      | @delivered _ _ _ _ _ _ heard =>
          cases heard with
          | true => exact tells
          | false => cases tells

/-- A reactor with room for 16 events. -/
def roomy : Reactor where
  queue := 900
  counter := 901
  maxEvents := 16
  timeout := 100

/-- What the kernel makes of the first registration of descriptor 10. -/
def firstEntry : Entry := ⟨0, 10, token 10⟩

/-- The reactor while handler 1 is registered for descriptor 10. -/
def withHandler : Reactor := { roomy with handlers := [(10, 1)] }

/-- The thread when it has fetched an event that says that descriptor 10 was hung up. -/
def carrying : Party := .dispatcher ⟨.batch [⟨token 10, 16⟩], none, [some firstEntry]⟩

theorem fetched_hangUp : ∃ t, Run roomy 1 t
      ⟨withHandler, ⟨[firstEntry], 1⟩, [carrying, .registering (.ended (.ok ()))]⟩ ∧
    ∀ o ∈ t, ¬ o.Installs 10 2 := by
  have entered := (Run.start (r := roomy) (n := 1)).join (.registering 10 .standard 1)
  have added : Run roomy 1 _ ⟨withHandler, ⟨[firstEntry], 1⟩,
      [.dispatcher {}, .registering (.ended (.ok ()))]⟩ :=
    (entered.act_last (.register (Registering.enters ..) .nothing)).act_last
      (.register (Registering.adds ..) (.added nofun ⟨by decide, by decide⟩))
  have waiting : Run roomy 1 _ ⟨withHandler, ⟨[firstEntry], 1⟩,
      [.dispatcher ⟨.wait, none, []⟩, .registering (.ended (.ok ()))]⟩ :=
    added.dispatches (i := 0) rfl rfl
  have yields : ((Loop.wait).next withHandler).Yields withHandler
      (some ⟨.system (.wait 900 16 100), .ok [⟨token 10, 16⟩]⟩)
      ⟨withHandler, .batch [⟨token 10, 16⟩], []⟩ := .ask _ _ _
  have acts := Party.Acts.fetch (k := ⟨[firstEntry], 1⟩) (d := ⟨.wait, none, []⟩) yields rfl
    (by decide) (.cons (show Watched.Raises _ (some firstEntry) _ from ⟨.head _, rfl⟩) .nil)
  have fetched := waiting.act (i := 0) rfl acts
  refine ⟨_, fetched, ?_⟩
  rintro o ho ⟨_, _, _, _, _, rfl⟩
  simp at ho

/-- Then descriptor 10 is unregistered, before the thread has looked up a handler. -/
theorem unregistered_in_flight : ∃ o before s, Run roomy 1 (o :: before) s ∧
    o.Forgets firstEntry ∧ s.Carries 0 firstEntry ∧ ∀ o' ∈ before, ¬ o'.Installs 10 2 := by
  obtain ⟨t, fetched, late⟩ := fetched_hangUp
  have joined := fetched.join (.unregistering 10 .none)
  have yields : ((Unregistering.enter 10 .none).next withHandler).Yields withHandler none
      ⟨roomy, .delete 10, []⟩ := .step _
  have entered := joined.act_last (.unregister yields .nothing)
  have yields' : ((Unregistering.delete 10).next roomy).Yields roomy
      (some ⟨.system (.watch 900 (.delete 10)), .ok ()⟩)
      (Unregistering.finish s!"fd {(10 : Descriptor)}: unregistered" (.ok ()) roomy) := .ask _ _ _
  have deleted := entered.act_last (.unregister yields' (.deleted ⟨firstEntry, .head _, rfl⟩))
  refine ⟨_, _, _, deleted, ⟨rfl, .head _, rfl⟩, ⟨_, rfl, .head _⟩, ?_⟩
  intro o ho installs
  rcases List.mem_cons.mp ho with rfl | ho
  · obtain ⟨_, _, _, _, _, same⟩ := installs
    cases same
  rcases List.mem_cons.mp ho with rfl | ho
  · obtain ⟨_, _, _, _, _, same⟩ := installs
    cases same
  · exact late o ho installs

end Proactor.Reactor
