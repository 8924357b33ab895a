import Mathlib.Data.List.Basic
import Proactor.Log
/-! # The log settings in force

Level and flushing are set by calls, or read from the environment on first use.  Both share one
mark that says whether the first use is over.

* **Calls** (`Call`).  Whatever a process can do to its settings, newest first
  (`Settings.after`).  Some calls settle: they use the settings, or set the level.
* **Before and after.**  Before the first call that settles, only flushing may have been set
  (`Settings.after_unsettled`).  From then on the settings change only when they are set
  (`Settings.replay_ready`).
* **In force** (`Settings.in_force`).  The level is the one set last, or else that of the
  environment.  So is flushing, but for two orders of calls (`Overruled`). -/

namespace Proactor.Log

/-- A call that uses or sets the settings. -/
inductive Call where
  | init
  | setLevel (level : Level)
  | setFlush (flush : Bool)
  | askLevel
  | askFlush
  | askEnabled (level : Level)
  | write (level : Level)
  | print

namespace Call

/-- The level that a call sets. -/
def level? : Call → Option Level
  | setLevel level => some level
  | _ => none

/-- What a call sets flushing to. -/
def flush? : Call → Option Bool
  | setFlush flush => some flush
  | _ => none

/-- After the call, the environment is not read any more. -/
def settles : Call → Bool
  | setFlush _ => false
  | askEnabled level | write level => level != .off
  | _ => true

/-- The settings after a call. -/
def take (env : Environment) : Call → Settings → Settings
  | init, s => s.start env
  | setLevel level, s => s.setLevel level
  | setFlush flush, s => s.setFlush flush
  | askLevel, s => (s.currentLevel env).2
  | askFlush, s => (s.currentFlush env).2
  | askEnabled level, s => (s.enabled env level).2
  | write level, s => (s.write env level).2
  | print, s => s.print env

end Call

/-- The level that was set last, newest first. -/
def lastLevel? (calls : List Call) : Option Level := calls.findSome? Call.level?

/-- What flushing was set to last, newest first. -/
def lastFlush? (calls : List Call) : Option Bool := calls.findSome? Call.flush?

/-- The level in the environment. -/
def envLevel? (env : Environment) : Option Level :=
  (env.get? "SOCKASYNC_LOG_LEVEL").bind Level.parse?

/-- What the environment says about flushing. -/
def envFlush? (env : Environment) : Option Bool :=
  (env.get? "SOCKASYNC_FLUSH_LOG").map fun value =>
    value == "1" || value == "true" || value == "yes" || value == "on"

variable {env : Environment} {calls newer older : List Call} {c : Call} {s : Settings}

theorem lastLevel?_append :
    lastLevel? (newer ++ older) = (lastLevel? newer).or (lastLevel? older) :=
  List.findSome?_append

theorem lastFlush?_append :
    lastFlush? (newer ++ older) = (lastFlush? newer).or (lastFlush? older) :=
  List.findSome?_append

theorem lastLevel?_cons : lastLevel? (c :: calls) = c.level?.or (lastLevel? calls) := by
  rw [lastLevel?, List.findSome?_cons]
  cases c.level? <;> rfl

theorem lastFlush?_cons : lastFlush? (c :: calls) = c.flush?.or (lastFlush? calls) := by
  rw [lastFlush?, List.findSome?_cons]
  cases c.flush? <;> rfl

namespace Settings

/-- The settings after these calls, newest first. -/
def replay (env : Environment) (calls : List Call) (s : Settings) : Settings :=
  calls.foldr (·.take env) s

/-- The settings of a process that has made these calls, newest first. -/
def after (env : Environment) (calls : List Call) : Settings := replay env calls {}

theorem after_append : after env (newer ++ older) = replay env newer (after env older) :=
  List.foldr_append

/-! ### Steps -/

/-- Once it is over, the first use does not come again. -/
theorem start_of_ready (h : s.ready = true) : s.start env = s := if_pos h

theorem start_of_fresh (h : s.ready = false) : s.start env =
    ⟨true, (envLevel? env).getD s.level, (envFlush? env).getD s.flush⟩ := by
  rw [start, if_neg (by rw [h]; decide), envFlush?]
  cases env.get? "SOCKASYNC_FLUSH_LOG" <;> rfl

theorem ready_start (s : Settings) (env : Environment) : (s.start env).ready = true := by
  cases h : s.ready with
  | true => rwa [start_of_ready h]
  | false => rw [start_of_fresh h]

end Settings

/-- A call that settles, but does not set the level, reads the environment. -/
theorem Call.take_of_settles (h : c.settles = true) (hl : c.level? = none) :
    c.take env s = s.start env := by
  cases c with
  | setLevel _ => cases hl
  | setFlush _ => cases h
  | init | askLevel | askFlush | print => rfl
  | askEnabled level =>
      have hne : level ≠ .off := by simpa [settles] using h
      rw [take, Settings.enabled, if_neg hne]
  | write level =>
      have hne : level ≠ .off := by simpa [settles] using h
      rw [take, Settings.write, Settings.enabled, if_neg hne]
      cases (s.start env).level.admits level with
      | false => rfl
      | true => exact Settings.start_of_ready (s.ready_start env)

/-- A call that does not settle at most sets flushing. -/
theorem Call.take_of_unsettled (h : c.settles = false) :
    c.take env s = { s with flush := c.flush?.getD s.flush } := by
  cases c with
  | setFlush _ => rfl
  | askEnabled level =>
      have heq : level = .off := by simpa [settles] using h
      rw [take, Settings.enabled, if_pos heq]
      rfl
  | write level =>
      have heq : level = .off := by simpa [settles] using h
      rw [take, Settings.write, Settings.enabled, if_pos heq]
      rfl
  | _ => cases h

theorem Call.level?_of_unsettled (h : c.settles = false) : c.level? = none := by
  cases c with
  | setLevel _ => cases h
  | _ => rfl

theorem Call.flush?_of_settles (h : c.settles = true) : c.flush? = none := by
  cases c with
  | setFlush _ => cases h
  | _ => rfl

/-- When the first use is over, a call changes what it sets. -/
theorem Call.take_of_ready (h : s.ready = true) :
    c.take env s = ⟨true, c.level?.getD s.level, c.flush?.getD s.flush⟩ := by
  cases hs : c.settles with
  | false =>
      rw [take_of_unsettled hs, level?_of_unsettled hs, h]
      rfl
  | true =>
      cases hl : c.level? with
      | none =>
          rw [take_of_settles hs hl, Settings.start_of_ready h, flush?_of_settles hs, ← h]
          rfl
      | some level =>
          cases c <;> cases hl
          rfl

namespace Settings

/-! ### Runs -/

/-- Before the first call that settles, only flushing may have been set. -/
theorem after_unsettled (h : ∀ o ∈ older, o.settles = false) :
    after env older = { flush := (lastFlush? older).getD false } := by
  induction older with
  | nil => rfl
  | cons c older ih =>
      obtain ⟨hc, rest⟩ := List.forall_mem_cons.mp h
      have step : after env (c :: older) = c.take env (after env older) := rfl
      rw [step, ih rest, Call.take_of_unsettled hc, lastFlush?_cons, Option.getD_or]

/-- When the first use is over, the settings change only when they are set. -/
theorem replay_ready (h : s.ready = true) : replay env newer s =
    ⟨true, (lastLevel? newer).getD s.level, (lastFlush? newer).getD s.flush⟩ := by
  induction newer with
  | nil => exact h ▸ rfl
  | cons c newer ih =>
      have step : replay env (c :: newer) s = c.take env (replay env newer s) := rfl
      rw [step, ih, Call.take_of_ready rfl, lastLevel?_cons, lastFlush?_cons, Option.getD_or,
        Option.getD_or]

theorem lastLevel?_of_unsettled (h : ∀ o ∈ older, o.settles = false) : lastLevel? older = none :=
  List.findSome?_eq_none_iff.mpr fun o ho => Call.level?_of_unsettled (h o ho)

/-- The settings after the first call that settles. -/
theorem after_first (settles : c.settles = true) (first : ∀ o ∈ older, o.settles = false) :
    after env (c :: older) = ⟨true, c.level?.getD ((envLevel? env).getD .warn),
      if c.level?.isSome then (lastFlush? older).getD false
      else (envFlush? env).getD ((lastFlush? older).getD false)⟩ := by
  have step : after env (c :: older) = c.take env (after env older) := rfl
  rw [step, after_unsettled first]
  cases hl : c.level? with
  | none =>
      rw [Call.take_of_settles settles hl, start_of_fresh rfl]
      rfl
  | some level =>
      cases c <;> cases hl
      rfl

end Settings

theorem first_or_unsettled (calls : List Call) : (∀ o ∈ calls, o.settles = false) ∨
    ∃ newer first older, calls = newer ++ first :: older ∧ first.settles = true ∧
      ∀ o ∈ older, o.settles = false := by
  induction calls with
  | nil => exact .inl nofun
  | cons c calls ih =>
      rcases ih with fresh | ⟨newer, first, older, rfl, settles, fresh⟩
      · cases hc : c.settles with
        | false => exact .inl (List.forall_mem_cons.mpr ⟨hc, fresh⟩)
        | true => exact .inr ⟨[], c, calls, rfl, hc, fresh⟩
      · exact .inr ⟨c :: newer, first, older, rfl, settles, fresh⟩

/-- Among calls of which the newest settles, one is the first that does. -/
theorem exists_first (calls : List Call) (h : c.settles = true) : ∃ newer first older,
    c :: calls = newer ++ first :: older ∧ first.settles = true ∧
      ∀ o ∈ older, o.settles = false := by
  refine (first_or_unsettled (c :: calls)).resolve_left fun unsettled => ?_
  exact Bool.false_ne_true ((unsettled c (.head _)).symm.trans h)

/-- The environment has its way, although flushing was set, or is not asked, although it was not
set. -/
inductive Overruled (env : Environment) (calls : List Call) : Prop
  /-- Flushing was set before the first use, which read something else in the environment. -/
  | overwritten {newer older : List Call} {first : Call} {flush : Bool}
      (split : .askFlush :: calls = newer ++ first :: older) (settles : first.settles = true)
      (fresh : ∀ o ∈ older, o.settles = false) (reads : first.level? = none)
      (unset : lastFlush? newer = none) (set : lastFlush? older = some flush)
      (inEnv : envFlush? env = some (!flush))
  /-- The environment asks for flushing, but the level was set first, and it is never read. -/
  | unread {newer older : List Call} {level : Level}
      (split : .askFlush :: calls = newer ++ .setLevel level :: older)
      (fresh : ∀ o ∈ older, o.settles = false) (unset : lastFlush? newer = none)
      (unset' : lastFlush? older = none) (inEnv : envFlush? env = some true)

namespace Settings

/-- The level in force is the one that was set last, or else that of the environment. -/
theorem level_in_force (env : Environment) (calls : List Call) :
    ((after env calls).currentLevel env).1 =
      (lastLevel? calls).getD ((envLevel? env).getD .warn) := by
  obtain ⟨newer, first, older, split, settles, fresh⟩ :=
    exists_first (c := .askLevel) calls rfl
  have asked : ((after env calls).currentLevel env).1 =
      (after env (.askLevel :: calls)).level := rfl
  have last : lastLevel? calls = (lastLevel? newer).or first.level? := by
    have all : lastLevel? (.askLevel :: calls) = lastLevel? calls := rfl
    rw [← all, split, lastLevel?_append, lastLevel?_cons, lastLevel?_of_unsettled fresh,
      Option.or_none]
  rw [asked, split, after_append, after_first settles fresh, replay_ready rfl, last, Option.getD_or]

/-- What flushing comes to, and what was set last, by the first call that settles. -/
theorem flush_of_split (env : Environment) {first : Call}
    (split : .askFlush :: calls = newer ++ first :: older)
    (settles : first.settles = true) (fresh : ∀ o ∈ older, o.settles = false) :
    ((after env calls).currentFlush env).1 = (lastFlush? newer).getD
        (if first.level?.isSome then (lastFlush? older).getD false
        else (envFlush? env).getD ((lastFlush? older).getD false)) ∧
      lastFlush? calls = (lastFlush? newer).or (lastFlush? older) := by
  constructor
  · have asked : ((after env calls).currentFlush env).1 =
        (after env (.askFlush :: calls)).flush := rfl
    rw [asked, split, after_append, after_first settles fresh, replay_ready rfl]
  · have all : lastFlush? (.askFlush :: calls) = lastFlush? calls := rfl
    rw [← all, split, lastFlush?_append, lastFlush?_cons, Call.flush?_of_settles settles,
      Option.none_or]

theorem flush_of_overruled (h : Overruled env calls) : ((after env calls).currentFlush env).1 ≠
    (lastFlush? calls).getD ((envFlush? env).getD false) := by
  cases h with
  | @overwritten _ _ _ flush split settles fresh reads unset set inEnv =>
      obtain ⟨value, last⟩ := flush_of_split env split settles fresh
      rw [value, last, unset, set, inEnv, reads]
      cases flush <;> decide
  | unread split fresh unset unset' inEnv =>
      obtain ⟨value, last⟩ := flush_of_split env split rfl fresh
      rw [value, last, unset, unset', inEnv]
      exact Bool.false_ne_true

theorem flush_of_not_overruled (h : ¬ Overruled env calls) :
    ((after env calls).currentFlush env).1 =
      (lastFlush? calls).getD ((envFlush? env).getD false) := by
  obtain ⟨newer, first, older, split, settles, fresh⟩ :=
    exists_first (c := .askFlush) calls rfl
  obtain ⟨value, last⟩ := flush_of_split env split settles fresh
  rw [value, last]
  cases unset : lastFlush? newer with
  | some flush => rfl
  | none =>
      cases inEnv : envFlush? env with
      | none => cases lastFlush? older <;> simp
      | some said =>
          cases hl : first.level? with
          | none =>
              cases set : lastFlush? older with
              | none => rfl
              | some flush =>
                  -- the first use reads what was set already
                  by_cases agree : said = flush
                  · exact agree ▸ rfl
                  · have other : said = !flush := Bool.eq_not_of_ne agree
                    exact absurd (.overwritten split settles fresh hl unset set (other ▸ inEnv)) h
          | some level =>
              cases set : lastFlush? older with
              | some flush => rfl
              | none =>
                  cases said with
                  | false => rfl
                  | true =>
                      cases first <;> cases hl
                      exact absurd (.unread split fresh unset set inEnv) h

/-- The level in force is the one that was set last, or else that of the environment, or else
`warn`.  Flushing is as it was set last, or else as the environment says, exactly if it is not
overruled. -/
theorem in_force (env : Environment) (calls : List Call) :
    ((after env calls).currentLevel env).1 =
        (lastLevel? calls).getD ((envLevel? env).getD .warn) ∧
      (((after env calls).currentFlush env).1 =
          (lastFlush? calls).getD ((envFlush? env).getD false) ↔ ¬ Overruled env calls) :=
  ⟨level_in_force env calls, fun same h => flush_of_overruled h same, flush_of_not_overruled⟩

/-- Flushing that was set before the first use gives way to the environment, and flushing that the
environment asks for is missed once the level has been set. -/
theorem flush_overruled :
    (∃ env, ((after env [.setFlush true]).currentFlush env).1 = false) ∧
      ∃ env, envFlush? env = some true ∧
        ((after env [.setLevel .warn]).currentFlush env).1 = false :=
  ⟨⟨⟨[("SOCKASYNC_FLUSH_LOG", some "0")]⟩, by decide⟩,
    ⟨[("SOCKASYNC_FLUSH_LOG", some "1")]⟩, by decide, by decide⟩

end Settings
end Proactor.Log
