import Proactor.Proofs.Locks
/-! # While a dispatch has the lock

Everything that happens while the lock is held (`Held`) happens around one dispatch.  It is the
only dispatch that takes steps, and all other steps are those of submissions, requests for the
channel and closes.  So what the steps of that dispatch keep, and the others leave alone, lasts
until the lock is free again (`Abides.tenure`). -/

namespace Proactor.Channel

/-- The lock was held whenever one of these things happened. -/
def Held (newer : List Event) : Prop := ∀ e ∈ newer, e.system.channel.dispatching = true

instance (newer : List Event) : Decidable (Held newer) :=
  inferInstanceAs (Decidable (∀ e ∈ newer, e.system.channel.dispatching = true))

variable {use : Party → Prop} {c c' : Channel} {l₁ l₂ : List Party} {p p' : Party}
  {x : Option (Exchange Call)} {newer older : List Event} {s : System} {k k' : Dispatch} {e : Event}

theorem Held.tail (h : Held (e :: newer)) : Held newer := fun e' he => h e' (.tail _ he)

theorem Held.head (h : Held (e :: newer)) : e.system.channel.dispatching = true := h e (.head _)

/-- A dispatch that is not inside takes no step while the lock is held. -/
theorem Dispatch.Step.inside_of_held (h : Dispatch.Step c k x c' k')
    (held : c.dispatching = true) : k.inside = true := by
  cases h with
  | enterIgnored hd _ | enterFailed hd _ _ | enterReady hd _ _ =>
      rw [held] at hd
      cases hd
  | _ => rfl

/-- Of two dispatches that are inside, each is the other. -/
theorem Orderly.eq_of_inside (orderly : Orderly ⟨c, l₁ ++ p :: l₂⟩) (hp : p.inside = true)
    {q : Party} (hq : q ∈ l₁ ++ p :: l₂) (hi : q.inside = true) : q = p := by
  rcases mem_middle.mp hq with rfl | hq
  · rfl
  · have outside := Orderly.others_outside orderly.lock (.inl hp) q hq
    rw [hi] at outside
    cases outside

/-- What everything that happens while a dispatch has the lock keeps: a party joins, another party
takes a step, or the dispatch does. -/
structure Abides (use : Party → Prop) (P : List Event → System → Dispatch → Prop) : Prop where
  join : ∀ {newer : List Event} {s : System} {p : Party} {k : Dispatch}, P newer s k →
    P (.joined s p :: newer) ⟨s.channel, s.parties ++ [p]⟩ k
  aside : ∀ {t newer : List Event} {c c' : Channel} {l₁ l₂ : List Party} {p p' : Party}
    {x : Option (Exchange Call)} {k : Dispatch}, Run use t ⟨c, l₁ ++ p :: l₂⟩ →
    p.Step c x c' p' → (∀ k, p ≠ .dispatch k) → P newer ⟨c, l₁ ++ p :: l₂⟩ k →
    P (.acted ⟨c, l₁ ++ p :: l₂⟩ p x p' :: newer) ⟨c', l₁ ++ p' :: l₂⟩ k
  own : ∀ {t newer : List Event} {c c' : Channel} {l₁ l₂ : List Party}
    {x : Option (Exchange Call)} {k k' : Dispatch}, Run use t ⟨c, l₁ ++ .dispatch k :: l₂⟩ →
    Dispatch.Step c k x c' k' → k.inside = true → k.Fits → (∀ v, k' ≠ .broken v) →
    P newer ⟨c, l₁ ++ .dispatch k :: l₂⟩ k →
    P (.acted ⟨c, l₁ ++ .dispatch k :: l₂⟩ (.dispatch k) x (.dispatch k') :: newer)
      ⟨c', l₁ ++ .dispatch k' :: l₂⟩ k'

/-- What holds of a dispatch that has the lock, and what everything that happens keeps, holds for as
long as the lock is held. -/
theorem Abides.tenure {P : List Event → System → Dispatch → Prop} (abides : Abides use P)
    (run : Run use (newer ++ older) s) (held : Held newer)
    (first : ∀ s', Run use older s' → ∃ k, .dispatch k ∈ s'.parties ∧
      k.inside = s'.channel.dispatching ∧ P [] s' k) :
    ∃ k, .dispatch k ∈ s.parties ∧ k.inside = s.channel.dispatching ∧ P newer s k := by
  induction newer generalizing s with
  | nil => exact first s run
  | cons e newer ih =>
      cases run with
      | join run _ _ _ =>
          obtain ⟨k, hk, lock, holds⟩ := ih run held.tail
          exact ⟨k, List.mem_append_left _ hk, lock, abides.join holds⟩
      | @act _ c l₁ l₂ p run x turn yields =>
          obtain ⟨k, hk, lock, holds⟩ := ih run held.tail
          have locked : c.dispatching = true := held.head
          have inside : k.inside = true := lock.trans locked
          obtain ⟨c', p', lines⟩ := turn
          have step : p.Step c x c' p' := Party.step_of_yields yields
          have orderly := run.orderly
          have intact := orderly.intact _ (mem_middle.mpr (.inl rfl))
          have intact' := orderly.next step
          have lock' := step.lock intact' fun _ => locked
          by_cases hd : ∃ k₀, p = .dispatch k₀
          · obtain ⟨k₀, rfl⟩ := hd
            cases step with
            | @dispatch _ k' _ _ step =>
                cases orderly.eq_of_inside (step.inside_of_held locked) hk inside
                refine ⟨k', mem_middle.mpr (.inl rfl), ?_,
                  abides.own run step inside intact.2 intact'.1 holds⟩
                simp only [Party.inside, inside, locked] at lock'
                cases hk' : k'.inside <;> cases hc : c'.dispatching <;>
                  simp [hk', hc] at lock' ⊢
          · rw [not_exists] at hd
            refine ⟨k, ?_, ?_, abides.aside run step hd holds⟩
            · rcases mem_middle.mp hk with h | h
              · exact absurd h.symm (hd k)
              · exact mem_middle.mpr (.inr h)
            · have outside : p.inside = false ∧ p'.inside = false := by
                cases step with
                | dispatch _ => exact absurd rfl (hd _)
                | _ => exact ⟨rfl, rfl⟩
              rw [outside.1, outside.2, locked] at lock'
              cases hc : c'.dispatching <;> simp [hc, inside] at lock' ⊢

end Proactor.Channel
