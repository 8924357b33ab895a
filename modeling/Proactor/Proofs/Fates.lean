import Mathlib.Data.List.Nodup
import Proactor.Proofs.Standing
/-! # What becomes of an operation

* **One standing** (`Run.one_standing`).  Whatever was submitted stands in exactly one way.
* **Fates** (`Fate`).  A step goes on with the attempt of an operation, begins one, or does not
  try it. Everything that stands somewhere has met one of these fates (`Run.fate`).
* **A life** (`Run.standing_lasts`).  What holds of an operation when it is submitted, and
  whatever fate it meets, always holds of it. -/

namespace Proactor.Channel

variable {use : Party → Prop} {c c' : Channel} {l₁ l₂ : List Party} {p p' : Party}
  {x : Option (Exchange Call)} {t : List Event} {s : System} {op : Operation} {σ σ' : Standing}

/-! ### One standing for each operation -/

theorem System.op_standings (t : List Event) (s : System) :
    (s.standings t).map Standing.op = (s.holdings t).map (·.2) := by
  have parties : (s.parties.flatMap (·.standings)).map Standing.op =
      (s.parties.flatMap (·.holdings)).map (·.2) := by
    simp only [List.map_flatMap, Party.op_standings, Party.ops_holdings]
  have done : ((scheduled t).map Standing.done).map Standing.op = scheduled t := by
    rw [List.map_map]
    exact List.map_id _
  simp only [System.standings, System.holdings, List.map_append, parties, done,
    Standing.map_op_waiting, ops_holdings, ops_placed]
  rfl

theorem Run.count_standings (run : Run use t s) (n : Nat) :
    (((s.standings t).map Standing.op).map (·.ticket)).count n =
      (s.submitted.map (·.ticket)).count n := by
  rw [System.op_standings, ← length_placesOf]
  exact run.length_places n

theorem Run.standings_nodup (run : Run use t s) :
    ((s.standings t).map (·.op.ticket)).Nodup := by
  refine List.nodup_iff_count.mpr fun n => ?_
  have count := run.count_standings n
  rw [List.map_map] at count
  exact Nat.le_trans (Nat.le_of_eq count) (List.nodup_iff_count.mp run.submitted_nodup n)

/-- An operation stands in one way only. -/
theorem Run.one_standing (run : Run use t s) (h : σ ∈ s.standings t) (h' : σ' ∈ s.standings t)
    (same : σ.op.ticket = σ'.op.ticket) : σ = σ' :=
  List.inj_on_of_nodup_map run.standings_nodup h h' same

/-- No operation waits in a queue twice. -/
theorem Run.waiting_nodup (run : Run use t s) (d : Direction) :
    ((s.channel.queue d).waiting.map (·.ticket)).Nodup := by
  refine List.Nodup.sublist ?_ run.standings_nodup
  have stands : ((s.channel.queue d).waiting.map Standing.waiting).Sublist (s.standings t) := by
    have line : ((s.channel.queue d).waiting.map Standing.waiting).Sublist
        ((s.channel.line d).map .waiting) := (List.sublist_append_left _ _).map _
    have lines : ((s.channel.line d).map Standing.waiting).Sublist ((s.channel.line .receive ++
        s.channel.line .send ++ s.channel.line .connection).map .waiting) := by
      refine List.Sublist.map _ ?_
      cases d with
      | receive => exact (List.sublist_append_left _ _).trans (List.sublist_append_left _ _)
      | send => exact (List.sublist_append_right _ _).trans (List.sublist_append_left _ _)
      | connection => exact List.sublist_append_right _ _
    refine (line.trans lines).trans ?_
    exact (List.sublist_append_right _ _).trans (List.sublist_append_left _ _)
  have tickets := stands.map (·.op.ticket)
  rwa [List.map_map] at tickets

/-- Whatever stands somewhere was submitted. -/
theorem Run.submission_of_standing (run : Run use t s) (h : σ ∈ s.standings t) :
    ∃ op sub, .submission op sub ∈ s.parties ∧ op.ticket = σ.op.ticket := by
  have mem : σ.op.ticket ∈ s.submitted.map (·.ticket) := by
    refine List.count_pos_iff.mp ?_
    rw [← run.count_standings]
    exact List.count_pos_iff.mpr (List.mem_map_of_mem (List.mem_map_of_mem h))
  obtain ⟨op, ho, ht⟩ := List.mem_map.mp mem
  obtain ⟨p, hp, hop⟩ := List.mem_filterMap.mp ho
  cases p with
  | submission op' sub =>
      cases hop
      exact ⟨op, sub, hp, ht⟩
  | _ => cases hop

/-- Whatever was submitted stands somewhere. -/
theorem Run.stands (run : Run use t s) {sub : Submission} (h : .submission op sub ∈ s.parties) :
    ∃ σ ∈ s.standings t, σ.op.ticket = op.ticket := by
  have mem : op.ticket ∈ ((s.standings t).map Standing.op).map (·.ticket) := by
    refine List.count_pos_iff.mp ?_
    rw [run.count_standings]
    exact List.count_pos_iff.mpr (List.mem_map_of_mem (List.mem_filterMap.mpr ⟨_, h, rfl⟩))
  obtain ⟨o, ho, ht⟩ := List.mem_map.mp mem
  obtain ⟨σ, hσ, rfl⟩ := List.mem_map.mp ho
  exact ⟨σ, hσ, ht⟩

/-! ### Where a standing comes from -/

theorem mem_standings : σ ∈ s.standings t ↔ (∃ p ∈ s.parties, σ ∈ p.standings) ∨
    (∃ d, ∃ op ∈ s.channel.line d, σ = .waiting op) ∨ ∃ op ∈ scheduled t, σ = .done op := by
  simp only [System.standings, List.mem_append, List.mem_flatMap, List.mem_map]
  constructor
  · rintro ((h | ⟨op, (ho | ho) | ho, rfl⟩) | ⟨op, ho, rfl⟩)
    · exact .inl h
    · exact .inr (.inl ⟨.receive, op, ho, rfl⟩)
    · exact .inr (.inl ⟨.send, op, ho, rfl⟩)
    · exact .inr (.inl ⟨.connection, op, ho, rfl⟩)
    · exact .inr (.inr ⟨op, ho, rfl⟩)
  · rintro (h | ⟨d, op, ho, rfl⟩ | ⟨op, ho, rfl⟩)
    · exact .inl (.inl h)
    · refine .inl (.inr ⟨op, ?_, rfl⟩)
      cases d with
      | receive => exact .inl (.inl ho)
      | send => exact .inl (.inr ho)
      | connection => exact .inr ho
    · exact .inr ⟨op, ho, rfl⟩

theorem mem_standings_of_scheduled (h : op ∈ scheduled t) : .done op ∈ s.standings t :=
  mem_standings.mpr (.inr (.inr ⟨op, h, rfl⟩))

theorem Party.Has.mem (h : p.Has c σ) : σ ∈ System.standings t ⟨c, l₁ ++ p :: l₂⟩ := by
  cases h with
  | own h => exact mem_standings.mpr (.inl ⟨p, by simp, h⟩)
  | line d h => exact mem_standings.mpr (.inr (.inl ⟨d, _, h, rfl⟩))

/-- Whoever stands somewhere after a step was tried in it, or comes from where he stood. -/
theorem Run.origin (run : Run use t ⟨c, l₁ ++ p :: l₂⟩) (step : p.Step c x c' p')
    (h : σ' ∈ System.standings (.acted ⟨c, l₁ ++ p :: l₂⟩ p x p' :: t) ⟨c', l₁ ++ p' :: l₂⟩) :
    (∃ op, p.tries c = some op ∧ σ'.op.key = op.key) ∨
      ∃ σ ∈ System.standings t ⟨c, l₁ ++ p :: l₂⟩, Onward c p x σ σ' := by
  have intact : p'.Intact := run.orderly.next step
  rcases mem_standings.mp h with ⟨o, ho, hσ⟩ | ⟨d, op, ho, rfl⟩ | ⟨op, ho, rfl⟩
  · rcases mem_middle.mp ho with rfl | ho
    · refine (step.comes (run.pends p (by simp)) hσ).imp id ?_
      rintro ⟨σ, has, onward⟩
      exact ⟨σ, has.mem, onward⟩
    · exact .inr ⟨σ', mem_standings.mpr (.inl ⟨o, mem_middle.mpr (.inr ho), hσ⟩), .same _⟩
  · exact .inr ⟨_, (step.line_origin intact ho).mem, .same _⟩
  · rw [scheduled, List.filterMap_cons] at ho
    cases hx : handedOver x with
    | none =>
        simp only [Event.scheduled?, hx] at ho
        exact .inr ⟨_, mem_standings_of_scheduled ho, .same _⟩
    | some o =>
        simp only [Event.scheduled?, hx, List.mem_cons] at ho
        rcases ho with rfl | ho
        · obtain ⟨σ, has, onward⟩ := step.schedules hx
          exact .inr ⟨σ, has.mem, onward⟩
        · exact .inr ⟨_, mem_standings_of_scheduled ho, .same _⟩

/-! ### Before the channel has joined -/

/-- Until the channel has joined the reactor, only connects are attempted. -/
theorem Run.attached_of_begins (run : Run use t ⟨c, l₁ ++ p :: l₂⟩) (hb : p.begins? c = some op) :
    c.attached = true ∨ op.isConnect = true := by
  cases ha : c.attached with
  | true => exact .inl rfl
  | false =>
      have detached := (run.controlled.idle ha).2.2 p (by simp)
      unfold Party.begins? at hb
      split at hb
      · split at hb
        · next hc =>
          cases hb
          exact .inr hc.2.2
        · cases hb
      all_goals first | cases detached | cases hb

/-- A channel that has joined stays so. -/
theorem Run.attached_since (run : Run use t s) {e : Event} (he : e ∈ t)
    (ha : e.system.channel.attached = true) : s.channel.attached = true := by
  obtain ⟨newer, older, rfl⟩ := List.append_of_mem he
  refine run.lasts (P := fun _ s => s.channel.attached = true) (fun _ _ h => h) ?_ ha
  intro t c l₁ l₂ p x turn run yields ha
  have step := Party.step_of_yields yields
  rcases step.attached (run.orderly.next step) with same | joined
  · exact same.1.trans ha
  · exact joined.2.2.1

/-! ### What becomes of an operation -/

/-- The operation that was tried in an event. -/
def Event.tried? : Event → Option Operation
  | acted s p _ _ => p.tries s.channel
  | joined _ _ => none

/-- An attempt of the operation with this ticket began. -/
def Event.begins (n : Nat) : Event → Bool
  | acted s p _ _ => (p.begins? s.channel).any (·.ticket == n)
  | joined _ _ => false

/-- What begins to be attempted is tried. -/
theorem Event.tried_of_begins {n : Nat} {e : Event} (h : e.begins n = true) :
    ∃ o, e.tried? = some o ∧ o.ticket = n := by
  cases e with
  | joined _ _ => cases h
  | acted _ _ _ _ =>
      obtain ⟨o, ho, hn⟩ := (Option.any_eq_true _ _).mp h
      exact ⟨o, Party.tries_of_begins ho, eq_of_beq hn⟩

/-- What a step makes of an operation, of whose standing before it `P` holds. -/
inductive Fate (c : Channel) (p : Party) (x : Option (Exchange Call)) (P : Standing → Prop) :
    Standing → Prop
  /-- The call of its attempt was answered. -/
  | wentOn {a : Attempt} {σ : Standing} (ha : p.attempt? = some a) (before : P (.trying a))
      (reply : (a.call c.fd).request.Reply) (hx : x = some ⟨.system (a.call c.fd).request, reply⟩)
      (became : Became ((a.call c.fd).resume reply) σ) : Fate c p x P σ
  /-- An attempt of it began. -/
  | began {op : Operation} {σ : Standing} (hb : p.begins? c = some op) (hx : x = none)
      (before : P (.waiting op)) (became : Became (Attempt.start op) σ) : Fate c p x P σ
  /-- It was not tried. -/
  | untried {σ σ' : Standing} (hn : ∀ op, p.tries c = some op → op.ticket ≠ σ'.op.ticket)
      (before : P σ) (onward : Onward c p x σ σ') : Fate c p x P σ'

theorem Fate.mono {P Q : Standing → Prop} (h : Fate c p x P σ')
    (hPQ : ∀ σ, σ.op.ticket = σ'.op.ticket → P σ → Q σ) : Fate c p x Q σ' := by
  cases h with
  | wentOn ha before reply hx became =>
      refine .wentOn ha (hPQ _ ?_ before) reply hx became
      rw [Operation.ticket_eq_of_key became.key,
        Operation.ticket_eq_of_key (Attempt.key_resume _ c.fd reply)]
      rfl
  | began hb hx before became =>
      refine .began hb hx (hPQ _ ?_ before) became
      rw [Operation.ticket_eq_of_key became.key, Operation.ticket_eq_of_key (Attempt.key_start _)]
      rfl
  | untried hn before onward =>
      exact .untried hn (hPQ _ (Operation.ticket_eq_of_key onward.key).symm before) onward

/-- What tries an operation decides how it stands afterwards. -/
theorem Run.fate {turn : Turn Channel Party} (run : Run use t ⟨c, l₁ ++ p :: l₂⟩)
    (yields : (p.next c).Yields c x turn)
    (h : σ' ∈ System.standings (.acted ⟨c, l₁ ++ p :: l₂⟩ p x turn.phase :: t)
      ⟨turn.state, l₁ ++ turn.phase :: l₂⟩) :
    Fate c p x (· ∈ System.standings t ⟨c, l₁ ++ p :: l₂⟩) σ' := by
  have step := Party.step_of_yields yields
  have run' := run.act yields
  have pends := run.pends p (by simp)
  -- two of the same ticket in the new system are the same
  have only : ∀ {σ : Standing}, σ ∈ turn.phase.standings → σ.op.ticket = σ'.op.ticket → σ = σ' :=
    fun hσ ht => run'.one_standing (Party.Has.own hσ).mem h ht
  by_cases tried : ∃ op, p.tries c = some op ∧ op.ticket = σ'.op.ticket
  · obtain ⟨op, ht, hn⟩ := tried
    cases ha : p.attempt? with
    | some a =>
        obtain ⟨before, reply, hx, σ, hσ, became⟩ := step.goes_on pends ha
        simp only [Party.tries, ha, Option.map_some, Option.some_or, Option.some.injEq] at ht
        subst ht
        have key := became.key.trans (Attempt.key_resume a c.fd reply)
        cases only hσ ((Operation.ticket_eq_of_key key).trans hn)
        exact .wentOn ha (Party.Has.own before).mem reply hx became
    | none =>
        simp only [Party.tries, ha, Option.map_none, Option.none_or] at ht
        obtain ⟨hx, before, σ, hσ, became⟩ := step.begins pends ht
        have key := became.key.trans (Attempt.key_start op)
        cases only hσ ((Operation.ticket_eq_of_key key).trans hn)
        exact .began ht hx before.mem became
  · have untried : ∀ op, p.tries c = some op → op.ticket ≠ σ'.op.ticket :=
      fun op ht hn => tried ⟨op, ht, hn⟩
    rcases run.origin step h with ⟨op, ht, hk⟩ | ⟨σ, hσ, onward⟩
    · exact absurd (Operation.ticket_eq_of_key hk).symm (untried op ht)
    · exact .untried untried hσ onward

/-- Whoever begins stands nowhere but where its submission brings it. -/
theorem System.mem_standings_joined {p : Party} (begins : p.Begins s.channel.attached)
    (h : σ ∈ System.standings (.joined s p :: t) ⟨s.channel, s.parties ++ [p]⟩) :
    σ ∈ s.standings t ∨ ∃ op, p.operation? = some op ∧ σ = .waiting op := by
  rcases mem_standings.mp h with ⟨o, ho, hσ⟩ | line | scheduled
  · rcases List.mem_append.mp ho with ho | ho
    · exact .inl (mem_standings.mpr (.inl ⟨o, ho, hσ⟩))
    · cases List.mem_singleton.mp ho
      cases begins with
      | socketSubmission op | submission op _ => exact .inr ⟨op, rfl, List.mem_singleton.mp hσ⟩
      | _ => cases hσ
  · exact .inl (mem_standings.mpr (.inr (.inl line)))
  · exact .inl (mem_standings.mpr (.inr (.inr scheduled)))

theorem Party.Step.submission_back {sub : Submission} (h : Party.Step c p x c' p')
    (hm : .submission op sub ∈ l₁ ++ p' :: l₂) : ∃ sub, .submission op sub ∈ l₁ ++ p :: l₂ := by
  rcases mem_middle.mp hm with rfl | hm
  · cases h with
    | submission _ => exact ⟨_, mem_middle.mpr (.inl rfl)⟩
  · exact ⟨sub, mem_middle.mpr (.inr hm)⟩

theorem Party.Step.submission_forth {sub : Submission} (h : Party.Step c p x c' p')
    (hm : .submission op sub ∈ l₁ ++ p :: l₂) : ∃ sub, .submission op sub ∈ l₁ ++ p' :: l₂ := by
  rcases mem_middle.mp hm with rfl | hm
  · cases h with
    | submission _ => exact ⟨_, mem_middle.mpr (.inl rfl)⟩
  · exact ⟨sub, mem_middle.mpr (.inr hm)⟩

/-- What was submitted at some moment is so from then on. -/
theorem Run.submission_since {newer older : List Event} {e : Event} {sub : Submission}
    (run : Run use (newer ++ e :: older) s) (h : .submission op sub ∈ e.system.parties) :
    ∃ sub, .submission op sub ∈ s.parties := by
  refine run.lasts (P := fun _ s => ∃ sub, .submission op sub ∈ s.parties) ?_ ?_ ⟨sub, h⟩
  · rintro t s p _ _ ⟨sub, hm⟩
    exact ⟨sub, List.mem_append_left _ hm⟩
  · rintro t c l₁ l₂ p x turn _ yields ⟨sub, hm⟩
    exact (Party.step_of_yields yields).submission_forth hm

/-- What is done is done after every step. -/
theorem Run.done_next {turn : Turn Channel Party} (run : Run use t ⟨c, l₁ ++ p :: l₂⟩)
    (yields : (p.next c).Yields c x turn)
    (h : .done op ∈ System.standings t ⟨c, l₁ ++ p :: l₂⟩) :
    .done op ∈ System.standings (.acted ⟨c, l₁ ++ p :: l₂⟩ p x turn.phase :: t)
      ⟨turn.state, l₁ ++ turn.phase :: l₂⟩ := by
  have run' := run.act yields
  obtain ⟨o, sub, submitted, ho⟩ := run.submission_of_standing h
  obtain ⟨sub, submitted⟩ := (Party.step_of_yields yields).submission_forth submitted
  obtain ⟨σ', hσ', hn⟩ := run'.stands submitted
  have same : σ'.op.ticket = op.ticket := hn.trans ho
  have only : ∀ {σ : Standing}, σ ∈ System.standings t ⟨c, l₁ ++ p :: l₂⟩ →
      σ.op.ticket = op.ticket → σ = .done op := fun hσ ht => run.one_standing hσ h ht
  cases run.fate yields hσ' with
  | wentOn _ before reply _ became =>
      have key := became.key.trans (Attempt.key_resume _ c.fd reply)
      cases only before ((Operation.ticket_eq_of_key key).symm.trans same)
  | began _ _ before became =>
      have key := became.key.trans (Attempt.key_start _)
      cases only before ((Operation.ticket_eq_of_key key).symm.trans same)
  | untried _ before onward =>
      obtain rfl := only before ((Operation.ticket_eq_of_key onward.key).symm.trans same)
      cases onward with
      | same _ => exact hσ'

/-- What is done stays so. -/
theorem Run.done_since {newer older : List Event} {Q : Operation → Prop}
    (run : Run use (newer ++ older) s)
    (h : ∀ s', Run use older s' → ∃ op, .done op ∈ s'.standings older ∧ Q op) :
    ∃ op, .done op ∈ s.standings (newer ++ older) ∧ Q op := by
  refine run.lasts_after (P := fun t s => ∃ op, .done op ∈ s.standings t ∧ Q op) ?_ ?_ h
  · rintro t s p _ _ ⟨op, before, hq⟩
    refine ⟨op, mem_standings.mpr ?_, hq⟩
    exact (mem_standings.mp before).imp_left fun ⟨o, ho, hσ⟩ => ⟨o, List.mem_append_left _ ho, hσ⟩
  · rintro t c l₁ l₂ p x turn run yields ⟨op, before, hq⟩
    exact ⟨op, run.done_next yields before, hq⟩

/-- Only what was submitted is tried. -/
theorem Run.submission_of_tried (run : Run use t s) {e : Event} (he : e ∈ t)
    (tried : e.tried? = some op) :
    ∃ o sub, .submission o sub ∈ s.parties ∧ o.ticket = op.ticket := by
  obtain ⟨newer, older, rfl⟩ := List.append_of_mem he
  obtain ⟨s', run'⟩ := run.earlier
  cases run' with
  | join _ _ _ _ => cases tried
  | @act _ c l₁ l₂ p run₀ x turn yields =>
      have step := Party.step_of_yields yields
      have pends := run₀.pends p (by simp)
      have stands : ∃ σ ∈ System.standings older ⟨c, l₁ ++ p :: l₂⟩, σ.op = op := by
        cases ha : p.attempt? with
        | some a =>
            simp only [Event.tried?, Party.tries, ha, Option.map_some, Option.some_or,
              Option.some.injEq] at tried
            exact ⟨_, (Party.Has.own (step.goes_on pends ha).1).mem, tried⟩
        | none =>
            simp only [Event.tried?, Party.tries, ha, Option.map_none, Option.none_or] at tried
            exact ⟨_, (step.begins pends tried).2.1.mem, rfl⟩
      obtain ⟨σ, hσ, rfl⟩ := stands
      obtain ⟨o, sub, hm, ht⟩ := run₀.submission_of_standing hσ
      obtain ⟨sub, hm⟩ := run.submission_since hm
      exact ⟨o, sub, hm, ht⟩

/-- What was not submitted was not tried. -/
theorem Run.untried (run : Run use t s) {n : Nat} (unused : s.Unused n) {e : Event} (he : e ∈ t)
    (tried : e.tried? = some op) : op.ticket ≠ n := by
  rintro rfl
  obtain ⟨o, sub, hm, ho⟩ := run.submission_of_tried he tried
  exact unused _ hm ⟨o, sub, rfl, ho⟩

section lasting
variable {op₀ : Operation} {P : List Event → Standing → Prop}
  (fresh : ∀ {t : List Event} {s : System}, Run use t s → s.Unused op₀.ticket →
    P t (.waiting op₀))
  (join : ∀ {t : List Event} {s : System} {p : Party} {σ : Standing}, P t σ →
    P (.joined s p :: t) σ)
  (act : ∀ {t : List Event} {c : Channel} {l₁ l₂ : List Party} {p : Party}
    {x : Option (Exchange Call)} {turn : Turn Channel Party} {σ' : Standing},
    Run use t ⟨c, l₁ ++ p :: l₂⟩ → (p.next c).Yields c x turn →
    σ' ∈ System.standings (.acted ⟨c, l₁ ++ p :: l₂⟩ p x turn.phase :: t)
      ⟨turn.state, l₁ ++ turn.phase :: l₂⟩ →
    σ'.op.ticket = op₀.ticket → Fate c p x (P t) σ' →
    P (.acted ⟨c, l₁ ++ p :: l₂⟩ p x turn.phase :: t) σ')
include fresh join act

/-- What holds of an operation as it is submitted, and whatever becomes of it, always holds of
it. -/
theorem Run.standing_lasts (run : Run use t s) {sub : Submission}
    (submitted : .submission op₀ sub ∈ s.parties) (h : σ ∈ s.standings t)
    (hn : σ.op.ticket = op₀.ticket) : P t σ := by
  induction run generalizing σ sub with
  | start first => simp [first.parties] at submitted
  | @join t s run p begins allowed unused ih =>
      rcases List.mem_append.mp submitted with old | new
      · rcases System.mem_standings_joined begins h with hσ | ⟨op, ho, rfl⟩
        · exact join (ih old hσ hn)
        · exact absurd ⟨op₀, sub, rfl, hn.symm⟩ (unused op ho _ old)
      · cases List.mem_singleton.mp new
        rcases System.mem_standings_joined begins h with hσ | ⟨op, ho, rfl⟩
        · obtain ⟨op, sub, hm, ht⟩ := run.submission_of_standing hσ
          exact absurd ⟨op, sub, rfl, ht.trans hn⟩ (unused op₀ rfl _ hm)
        · cases ho
          exact join (fresh run (unused op₀ rfl))
  | @act t c l₁ l₂ p run x turn yields ih =>
      obtain ⟨sub, submitted⟩ := (Party.step_of_yields yields).submission_back submitted
      exact act run yields h hn
        ((run.fate yields h).mono fun σ hσ hm => ih submitted hm (hσ.trans hn))

end lasting

end Proactor.Channel
