import Proactor.Buffer.Cursor
/-! # Laws of cursors

* **Resting** (`Cursor.Normal`).  A cursor that was moved rests before a byte, or at the end.
* **Moving** (`Cursor.move_spec`).  A cursor that is moved within the windows gets there, with
  nothing left over, and rests.
* **Offering** (`Span.pieces_unsent`).  What is offered to the kernel from a resting cursor on is
  what the windows hold behind it, window by window and without the empty ones, as far as the
  limit goes. -/

namespace Proactor

/-! ### Moving -/

namespace Cursor

/-- The cursor stands in one of the windows, or at the end. -/
inductive Within (windows : List Window) (c : Cursor) : Prop
  | atEnd (hi : c.index = windows.length) (ho : c.offset = 0)
  | inside {w : Window} (hw : windows[c.index]? = some w) (ho : c.offset ≤ w.count)

/-- The cursor stands before a byte, or at the end. -/
inductive Normal (windows : List Window) (c : Cursor) : Prop
  | atEnd (hi : c.index = windows.length) (ho : c.offset = 0)
  | inside {w : Window} (hw : windows[c.index]? = some w) (ho : c.offset < w.count)

variable {windows : List Window} {c : Cursor} {n : Nat}

theorem Normal.within (h : c.Normal windows) : c.Within windows := by
  cases h with
  | atEnd hi ho => exact .atEnd hi ho
  | inside hw ho => exact .inside hw (Nat.le_of_lt ho)

/-- The cursor at the beginning. -/
theorem within_start (windows : List Window) : ({} : Cursor).Within windows := by
  cases windows with
  | nil => exact .atEnd rfl rfl
  | cons w rest => exact .inside rfl (Nat.zero_le _)

/-- A move through the windows behind `passed` goes as far as it is asked to. -/
theorem moveIn_spec (passed rest : List Window) (c : Cursor) (n : Nat)
    (hi : c.index = passed.length) (hc : c.Within (passed ++ rest))
    (enough : c.offset + n ≤ sumOf (·.count) rest) :
    (moveIn rest c n).2 = 0 ∧ (moveIn rest c n).1.Normal (passed ++ rest) ∧
      (moveIn rest c n).1.position (passed ++ rest) = c.position (passed ++ rest) + n := by
  induction rest generalizing passed c n with
  | nil =>
      have hn : n = 0 := by simp at enough; omega
      subst hn
      have ho : c.offset = 0 := by simp at enough; omega
      exact ⟨rfl, .atEnd (by simp [moveIn, hi]) ho, rfl⟩
  | cons w rest ih =>
      have hw : (passed ++ w :: rest)[c.index]? = some w := by simp [hi]
      have ho : c.offset ≤ w.count := by
        cases hc with
        | atEnd he _ => simp [hi] at he
        | inside hw' ho =>
            cases hw.symm.trans hw'
            exact ho
      rw [moveIn]
      split
      · next hn =>
        refine ⟨rfl, .inside hw (by dsimp only; omega), ?_⟩
        simp only [position]
        omega
      · next hn =>
        have split : passed ++ w :: rest = (passed ++ [w]) ++ rest := by simp
        have next : (⟨c.index + 1, 0⟩ : Cursor).Within ((passed ++ [w]) ++ rest) := by
          cases rest with
          | nil => exact .atEnd (by simp [hi]) rfl
          | cons v rest => exact .inside (w := v) (by simp [hi]) (Nat.zero_le _)
        simp only [sumOf_cons] at enough
        obtain ⟨spent, normal, there⟩ := ih (passed ++ [w]) ⟨c.index + 1, 0⟩
          (n - (w.count - c.offset)) (by simp [hi]) next (by dsimp only; omega)
        rw [split]
        refine ⟨spent, normal, there.trans ?_⟩
        have here : ((passed ++ [w]) ++ rest).take (c.index + 1) = passed ++ [w] :=
          List.take_left' (by simp [hi])
        have before : ((passed ++ [w]) ++ rest).take c.index = passed := by
          rw [List.append_assoc]
          exact List.take_left' hi.symm
        simp only [position, here, before, sumOf_append, sumOf_cons, sumOf_nil]
        omega

/-- The windows before a cursor and those from it on. -/
theorem position_le (h : c.Within windows) :
    c.position windows + (sumOf (·.count) (windows.drop c.index) - c.offset) =
      sumOf (·.count) windows ∧ c.offset ≤ sumOf (·.count) (windows.drop c.index) := by
  have parts : sumOf (·.count) windows =
      sumOf (·.count) (windows.take c.index) + sumOf (·.count) (windows.drop c.index) := by
    rw [← sumOf_append, List.take_append_drop]
  have offset : c.offset ≤ sumOf (·.count) (windows.drop c.index) := by
    cases h with
    | atEnd _ ho => omega
    | inside hw ho =>
        obtain ⟨hi, rfl⟩ := List.getElem?_eq_some_iff.mp hw
        rw [List.drop_eq_getElem_cons hi, sumOf_cons]
        omega
  refine ⟨?_, offset⟩
  rw [position, parts]
  omega

/-- A cursor that is moved within the windows gets where it should, with nothing left over, and
rests there. -/
theorem move_spec (h : c.Within windows)
    (enough : c.position windows + n ≤ sumOf (·.count) windows) :
    (c.move windows n).2 = 0 ∧ (c.advance windows n).Normal windows ∧
      (c.advance windows n).position windows = c.position windows + n := by
  have hi : c.index ≤ windows.length := by
    cases h with
    | atEnd hi _ => omega
    | inside hw _ => exact Nat.le_of_lt (List.getElem?_eq_some_iff.mp hw).1
  obtain ⟨whole, offset⟩ := position_le h
  have spec := moveIn_spec (windows.take c.index) (windows.drop c.index) c n
    (by rw [List.length_take]; omega) (by rwa [List.take_append_drop]) (by omega)
  rwa [List.take_append_drop] at spec

/-- A resting cursor is at the end exactly when no byte lies behind it. -/
theorem isDone_iff (h : c.Normal windows) :
    c.isDone windows = true ↔ c.position windows = sumOf (·.count) windows := by
  obtain ⟨whole, -⟩ := position_le h.within
  cases h with
  | atEnd hi ho =>
      have none : windows.drop c.index = [] := List.drop_eq_nil_of_le (by omega)
      rw [none, sumOf_nil] at whole
      simp only [isDone, decide_eq_true_eq]
      exact ⟨fun _ => by omega, fun _ => by omega⟩
  | inside hw ho =>
      obtain ⟨hi, rfl⟩ := List.getElem?_eq_some_iff.mp hw
      rw [List.drop_eq_getElem_cons hi, sumOf_cons] at whole
      simp only [isDone, decide_eq_true_eq]
      exact ⟨fun _ => by omega, fun _ => by omega⟩

end Cursor

/-! ### Offering -/

/-- The bytes of windows, one window after another. -/
def contents (windows : List Window) : Bytes := windows.flatMap Window.content

@[simp] theorem contents_append (v w : List Window) :
    contents (v ++ w) = contents v ++ contents w :=
  List.flatMap_append

@[simp] theorem length_contents (windows : List Window) :
    (contents windows).length = sumOf (·.count) windows := by
  simp only [contents, length_flatMap_eq_sumOf, Window.length_content]

/-- What lies behind a cursor. -/
theorem drop_contents (c : Cursor) (windows : List Window) :
    (contents windows).drop (c.position windows) =
      (contents (windows.drop c.index)).drop c.offset := by
  have parts : contents windows =
      contents (windows.take c.index) ++ contents (windows.drop c.index) := by
    rw [← contents_append, List.take_append_drop]
  have length : (contents (windows.take c.index)).length =
      sumOf (·.count) (windows.take c.index) := length_contents _
  rw [parts, Cursor.position, List.drop_append, ← length, List.drop_eq_nil_of_le (by omega)]
  simp

namespace Span

variable {windows : List Window}

/-- A span of a window covers what the window holds behind its first bytes. -/
theorem read_ofWindow {i : Nat} (skip : Nat) {w : Window} (hw : windows[i]? = some w) :
    ((ofWindow i skip w).map (read windows)).toList =
      [w.content.drop skip].filter (!·.isEmpty) := by
  have drop : w.content.drop skip = (w.data.drop (w.offset + skip)).take (w.count - skip) := by
    rw [Window.content, List.drop_take, List.drop_drop]
  have length : (w.content.drop skip).length = w.count - skip := by simp
  unfold ofWindow
  split
  · next hs =>
    have none : w.content.drop skip = [] := List.eq_nil_of_length_eq_zero (length.trans hs)
    simp [none]
  · next hs =>
    have some : w.content.drop skip ≠ [] := fun h => hs (by rw [← length, h]; rfl)
    simp [read, hw, ← drop, some]

theorem map_filterMap_cons {α β γ : Type} (f : α → Option β) (g : β → γ) (a : α) (l : List α) :
    ((a :: l).filterMap f).map g = ((f a).map g).toList ++ (l.filterMap f).map g := by
  rw [List.filterMap_cons]
  cases f a <;> rfl

/-- The spans of the windows from number `i` on, all of which lie behind the window `index`. -/
theorem read_behind (rest : List Window) (i index offset : Nat) (hi : index < i)
    (h : windows.drop i = rest) :
    (((rest.zipIdx i).filterMap fun (w, j) =>
      ofWindow j (if j = index then offset else 0) w).map (read windows)) =
      (rest.map Window.content).filter (!·.isEmpty) := by
  induction rest generalizing i with
  | nil => rfl
  | cons w rest ih =>
      have hw : windows[i]? = some w := by
        rw [← List.head?_drop, h]
        rfl
      have tail : windows.drop (i + 1) = rest := by
        rw [← List.tail_drop, h]
        rfl
      have one := read_ofWindow 0 hw
      rw [List.drop_zero] at one
      have here : i ≠ index := by omega
      rw [List.zipIdx_cons, map_filterMap_cons, ih (i + 1) (by omega) tail, List.map_cons,
        ← List.singleton_append, List.filter_append, ← one]
      simp only [if_neg here]

/-- What is offered from a resting cursor on: what lies behind it, window by window, without the
empty ones, up to the limit. -/
theorem pieces_unsent {c : Cursor} (h : c.Normal windows) :
    (unsent windows c).map (read windows) =
      ((((windows.drop c.index).map Window.content).modifyHead (·.drop c.offset)).filter
        (!·.isEmpty)).take limit := by
  rw [unsent, List.map_take]
  congr 1
  cases h with
  | atEnd hi _ =>
      rw [List.drop_eq_nil_of_le (by omega)]
      rfl
  | inside hw _ =>
      obtain ⟨hi, rfl⟩ := List.getElem?_eq_some_iff.mp hw
      have one := read_ofWindow c.offset hw
      have tail := read_behind (windows.drop (c.index + 1)) (c.index + 1) c.index c.offset
        (by omega) rfl
      rw [List.drop_eq_getElem_cons hi, List.zipIdx_cons, map_filterMap_cons, tail, List.map_cons,
        List.modifyHead_cons, ← List.singleton_append, List.filter_append, ← one]
      simp only [if_true]

section pieces
variable {c : Cursor} (h : c.Normal windows)
include h

/-- No piece that is offered is empty. -/
theorem pieces_ne_nil {piece : Bytes} (hp : piece ∈ (unsent windows c).map (read windows)) :
    piece ≠ [] := by
  rw [pieces_unsent h] at hp
  have := (List.mem_filter.mp (List.mem_of_mem_take hp)).2
  simpa using this

/-- What is offered is a part of what lies behind the cursor, from the cursor on. -/
theorem pieces_prefix :
    ((unsent windows c).map (read windows)).flatten <+:
      (contents windows).drop (c.position windows) := by
  have whole : ((((windows.drop c.index).map Window.content).modifyHead
      (·.drop c.offset)).filter (!·.isEmpty)).flatten =
        (contents windows).drop (c.position windows) := by
    rw [List.flatten_filter_not_isEmpty, drop_contents]
    cases h with
    | atEnd hi ho =>
        rw [List.drop_eq_nil_of_le (by omega)]
        simp [contents]
    | inside hw ho =>
        obtain ⟨hi, rfl⟩ := List.getElem?_eq_some_iff.mp hw
        rw [List.drop_eq_getElem_cons hi, List.map_cons, List.modifyHead_cons, List.flatten_cons,
          contents, List.flatMap_cons, List.drop_append_of_le_length]
        · rfl
        · simp; omega
  rw [pieces_unsent h, ← whole]
  obtain ⟨cut, hc⟩ := List.take_prefix limit ((((windows.drop c.index).map
    Window.content).modifyHead (·.drop c.offset)).filter (!·.isEmpty))
  refine ⟨cut.flatten, ?_⟩
  rw [← List.flatten_append, hc]

/-- As long as a byte lies behind the cursor, something is offered. -/
theorem unsent_ne_nil (more : c.isDone windows = false) : unsent windows c ≠ [] := by
  intro none
  have pieces := pieces_unsent h
  rw [none] at pieces
  cases h with
  | atEnd hi _ =>
      simp only [Cursor.isDone, decide_eq_false_iff_not] at more
      omega
  | inside hw ho =>
      obtain ⟨hi, rfl⟩ := List.getElem?_eq_some_iff.mp hw
      have some : windows[c.index].content.drop c.offset ≠ [] := by
        intro hn
        have := congrArg List.length hn
        simp at this
        omega
      rw [List.drop_eq_getElem_cons hi, List.map_cons, List.modifyHead_cons, List.filter_cons_of_pos
        (by simpa using some), limit] at pieces
      cases pieces

end pieces

theorem length_unsent_le (windows : List Window) (c : Cursor) :
    (unsent windows c).length ≤ limit := by
  rw [unsent]
  exact List.length_take_le _ _

end Span
end Proactor
