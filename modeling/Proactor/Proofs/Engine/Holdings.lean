import Mathlib.Data.Multiset.AddSub
import Proactor.Kernel
import Proactor.Thread
/-! # What an engine holds

While an engine is started it comes to hold descriptors and threads, and when it is taken down it
gives them back.

* **Effects** (`Effect`).  What a request adds to the holdings, or takes from them.
* **Order** (`Holdings.After`).  What is closed is open, a thread that is waited for was told to
  end, and no descriptor is closed under the dispatch threads.
* **Balance** (`Comes.count_descriptors`, `Comes.count_threads`).  What was taken is still held, or
  it was given back. -/

namespace Proactor.Setup

/-- What a request does to what an engine holds. -/
inductive Effect where
  | opens (fd : Descriptor)
  | closes (fd : Descriptor)
  | starts (thread : Thread)
  | haltsWorkers
  | haltsDispatchers
  /-- The counter ends the waits of the dispatch threads. -/
  | raises (counter : Descriptor)
  | joins (thread : Thread)
deriving DecidableEq

/-! ### Effects that belong together -/

/-- The threads with `count` numbers, of which the first is `index`. -/
def crew (thread : Nat → Thread) (index count : Nat) : List Thread :=
  (List.range' index count).map thread

/-- What ends the first `count` workers. -/
def endsWorkers (count : Nat) : List Effect :=
  .haltsWorkers :: (crew .worker 0 count).map .joins

/-- What ends the first `count` dispatch threads. -/
def endsDispatchers (counter : Descriptor) (count : Nat) : List Effect :=
  .haltsDispatchers :: .raises counter :: (crew .dispatcher 0 count).map .joins

/-! ### Holdings -/

/-- What an engine holds. -/
structure Holdings where
  /-- Descriptors that are open. -/
  descriptors : Multiset Descriptor := 0
  /-- Threads that were started and not waited for. -/
  threads : Multiset Thread := 0
  workersTold : Bool := false
  dispatchersTold : Bool := false
  /-- The counter was raised after the dispatch threads were told to end. -/
  raised : Bool := false

namespace Holdings

/-- A thread was told to end, and does not sleep on. -/
def told (h : Holdings) : Thread → Bool
  | .main => false
  | .worker _ => h.workersTold
  | .dispatcher _ => h.dispatchersTold && h.raised

/-- The holdings after an effect, if it is in order. -/
inductive After (h : Holdings) : Effect → Holdings → Prop
  | opens (fd : Descriptor) : After h (.opens fd) { h with descriptors := fd ::ₘ h.descriptors }
  /-- No dispatch thread is left that might use the descriptor. -/
  | closes {fd : Descriptor} {rest : Multiset Descriptor} (isOpen : h.descriptors = fd ::ₘ rest)
      (quiet : ∀ i, .dispatcher i ∉ h.threads) :
      After h (.closes fd) { h with descriptors := rest }
  | starts (thread : Thread) : After h (.starts thread) { h with threads := thread ::ₘ h.threads }
  | haltsWorkers : After h .haltsWorkers { h with workersTold := true }
  | haltsDispatchers : After h .haltsDispatchers { h with dispatchersTold := true }
  | raises {fd : Descriptor} (isOpen : fd ∈ h.descriptors) :
      After h (.raises fd) { h with raised := h.dispatchersTold }
  | joins {thread : Thread} {rest : Multiset Thread} (runs : h.threads = thread ::ₘ rest)
      (told : h.told thread = true) : After h (.joins thread) { h with threads := rest }

/-- The holdings after effects one after another. -/
inductive Comes : Holdings → List Effect → Holdings → Prop
  | nil (h : Holdings) : Comes h [] h
  | cons {h h' h'' : Holdings} {effect : Effect} {effects : List Effect} (after : h.After effect h')
      (later : Comes h' effects h'') : Comes h (effect :: effects) h''

theorem Comes.append {h h' h'' : Holdings} {l k : List Effect} (first : Comes h l h')
    (later : Comes h' k h'') : Comes h (l ++ k) h'' := by
  induction first with
  | nil h => exact later
  | cons after _ ih => exact .cons after (ih later)

/-- Every descriptor that was opened is either still open or was closed. -/
theorem Comes.count_descriptors {h h' : Holdings} {l : List Effect} (comes : Comes h l h')
    (fd : Descriptor) : h.descriptors.count fd + l.count (.opens fd) =
      h'.descriptors.count fd + l.count (.closes fd) := by
  induction comes with
  | nil h => simp
  | @cons h h' h'' effect effects after later ih =>
      have counts : h.descriptors.count fd + [effect].count (.opens fd) =
          h'.descriptors.count fd + [effect].count (.closes fd) := by
        cases after with
        | opens fd' => by_cases same : fd' = fd <;> simp [same, Ne.symm]
        | @closes fd' _ isOpen =>
            by_cases same : fd' = fd <;> simp [isOpen, same, Ne.symm]
        | _ => rfl
      rw [← List.singleton_append, List.count_append, List.count_append]
      omega

/-- Every thread that was started either still runs or was waited for. -/
theorem Comes.count_threads {h h' : Holdings} {l : List Effect} (comes : Comes h l h')
    (thread : Thread) : h.threads.count thread + l.count (.starts thread) =
      h'.threads.count thread + l.count (.joins thread) := by
  induction comes with
  | nil h => simp
  | @cons h h' h'' effect effects after later ih =>
      have counts : h.threads.count thread + [effect].count (.starts thread) =
          h'.threads.count thread + [effect].count (.joins thread) := by
        cases after with
        | starts thread' =>
            by_cases same : thread' = thread <;> simp [same, Ne.symm]
        | @joins thread' _ runs =>
            by_cases same : thread' = thread <;> simp [runs, same, Ne.symm]
        | _ => rfl
      rw [← List.singleton_append, List.count_append, List.count_append]
      omega

/-! ### Starting and ending threads -/

variable {h : Holdings} {l : List Effect} {rest : Multiset Thread} {count : Nat}

theorem comes_starts (h : Holdings) (threads : List Thread) :
    Comes h (threads.map .starts) { h with threads := ↑threads + h.threads } := by
  induction threads generalizing h with
  | nil =>
      rw [Multiset.coe_nil, Multiset.zero_add]
      exact .nil h
  | cons thread threads ih =>
      have later := ih { h with threads := thread ::ₘ h.threads }
      rw [Multiset.add_cons, ← Multiset.cons_add, Multiset.cons_coe] at later
      exact .cons (.starts thread) later

theorem comes_joins {threads : List Thread} (runs : h.threads = ↑threads + rest)
    (told : ∀ thread ∈ threads, h.told thread = true) :
    Comes h (threads.map .joins) { h with threads := rest } := by
  induction threads generalizing h with
  | nil =>
      rw [Multiset.coe_nil, Multiset.zero_add] at runs
      subst runs
      exact .nil h
  | cons thread threads ih =>
      rw [← Multiset.cons_coe, Multiset.cons_add] at runs
      obtain ⟨first, others⟩ := List.forall_mem_cons.mp told
      refine .cons (.joins runs first) (ih rfl fun thread ht => ?_)
      rw [← others thread ht]
      cases thread <;> rfl

theorem comes_endsWorkers (runs : h.threads = ↑(crew .worker 0 count) + rest) :
    Comes h (endsWorkers count) { h with threads := rest, workersTold := true } := by
  refine .cons .haltsWorkers (comes_joins runs fun thread ht => ?_)
  obtain ⟨i, -, rfl⟩ := List.mem_map.mp ht
  rfl

theorem comes_endsDispatchers {counter : Descriptor} (isOpen : counter ∈ h.descriptors)
    (runs : h.threads = ↑(crew .dispatcher 0 count) + rest) :
    Comes h (endsDispatchers counter count)
      { h with threads := rest, dispatchersTold := true, raised := true } := by
  refine .cons .haltsDispatchers (.cons (.raises isOpen) (comes_joins runs fun thread ht => ?_))
  obtain ⟨i, -, rfl⟩ := List.mem_map.mp ht
  rfl

theorem comes_closes {queue counter : Descriptor} {others : Multiset Descriptor}
    (isOpen : h.descriptors = counter ::ₘ queue ::ₘ others)
    (quiet : ∀ i, .dispatcher i ∉ h.threads) :
    Comes h [.closes queue, .closes counter] { h with descriptors := others } := by
  rw [Multiset.cons_swap] at isOpen
  exact .cons (.closes isOpen quiet) (.cons (.closes rfl quiet) (.nil _))

theorem Comes.told_of_joins {h' : Holdings} {thread : Thread} (comes : Comes h l h')
    (joins : .joins thread ∈ l) : ∃ holdings : Holdings, holdings.told thread = true := by
  induction comes with
  | nil => cases joins
  | cons after _ ih =>
      rcases List.mem_cons.mp joins with rfl | joins
      · cases after with
        | joins _ told => exact ⟨_, told⟩
      · exact ih joins

/-- In the end the same descriptors are open and the same threads run. -/
def Keeps (h : Holdings) (l : List Effect) : Prop :=
  ∃ h', Comes h l h' ∧ h'.descriptors = h.descriptors ∧ h'.threads = h.threads

end Holdings
end Proactor.Setup
