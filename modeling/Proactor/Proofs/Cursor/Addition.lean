import Mathlib.Data.Nat.PSub
import Proactor.Proofs.Cursor
/-! # Moves of a cursor one after another

* **Places** (`Cursor.Normal.eq_of_position`).  A resting cursor is known by the number of bytes
  before it: the end of a window and the beginning of the next one that is not empty are one place.
* **Checked moves** (`Cursor.move?`).  The same move, given up where a subtraction would fall below
  zero.  From a cursor in the windows it is never given up (`Cursor.move?_eq_some`).
* **Addition** (`Cursor.advance_advance`).  Two moves that stay in the windows are one, by the sum
  of their lengths. -/

namespace Proactor.Cursor

variable {windows : List Window} {c c' : Cursor} {a b n : Nat}

/-! ### Places -/

/-- A cursor in an earlier window, before a byte of it, is at an earlier position. -/
theorem position_lt_of_index_lt {w : Window} (hw : windows[c.index]? = some w)
    (ho : c.offset < w.count) (hi : c.index < c'.index) :
    c.position windows < c'.position windows := by
  obtain ⟨k, hk⟩ := Nat.exists_eq_add_of_lt hi
  have before : sumOf (·.count) (windows.take (c.index + 1)) =
      sumOf (·.count) (windows.take c.index) + w.count := by
    rw [List.take_add_one, hw]
    simp
  have further : windows.take c'.index =
      windows.take (c.index + 1) ++ (windows.drop (c.index + 1)).take k := by
    rw [← List.take_add, hk, Nat.add_right_comm]
  have between : sumOf (·.count) (windows.take (c.index + 1)) ≤
      sumOf (·.count) (windows.take c'.index) := by
    rw [further, sumOf_append]
    exact Nat.le_add_right _ _
  simp only [position]
  omega

/-- A resting cursor is not behind another one that has as many bytes before it. -/
theorem Normal.index_le (h : c.Normal windows) (h' : c'.Normal windows)
    (same : c.position windows = c'.position windows) : c'.index ≤ c.index := by
  by_contra lt
  rw [Nat.not_le] at lt
  cases h with
  | inside hw ho =>
      have := position_lt_of_index_lt hw ho lt
      omega
  | atEnd hi _ =>
      cases h' with
      | atEnd hi' _ => omega
      | inside hw' _ =>
          have := (List.getElem?_eq_some_iff.mp hw').1
          omega

/-- Each position has one resting cursor. -/
theorem Normal.eq_of_position (h : c.Normal windows) (h' : c'.Normal windows)
    (same : c.position windows = c'.position windows) : c = c' := by
  have index : c.index = c'.index := Nat.le_antisymm (h'.index_le h same.symm) (h.index_le h' same)
  have offset : c.offset = c'.offset := by
    simp only [position, index] at same
    omega
  cases c
  cases c'
  simp only at index offset
  rw [index, offset]

/-- A cursor that is not past the last byte rests where no byte is left, or in a window that is not
exhausted. -/
theorem normal_of_position_le
    (rests : c.index = windows.length ∨ ∃ w, windows[c.index]? = some w ∧ c.offset < w.count)
    (within : c.position windows ≤ sumOf (·.count) windows) : c.Normal windows := by
  rcases rests with hi | ⟨w, hw, ho⟩
  · rw [position, hi, List.take_length] at within
    exact .atEnd hi (by omega)
  · exact .inside hw ho

/-! ### Checked moves -/

/-- The move of `moveIn`, given up where a subtraction would fall below zero. -/
def moveIn? : List Window → Cursor → Nat → Option (Cursor × Nat)
  | [], c, n => some (c, n)
  | w :: rest, c, n =>
    (Nat.psub w.count c.offset).bind fun left =>
      if n < left then some (⟨c.index, c.offset + n⟩, 0)
      else (Nat.psub n left).bind (moveIn? rest ⟨c.index + 1, 0⟩)

/-- The move of `move`, given up where a subtraction would fall below zero. -/
def move? (c : Cursor) (windows : List Window) (n : Nat) : Option (Cursor × Nat) :=
  moveIn? (windows.drop c.index) c n

/-- Only the offset in the first window can be too large. -/
theorem moveIn?_eq_some (rest : List Window) (c : Cursor) (n : Nat)
    (offset : ∀ w ∈ rest.head?, c.offset ≤ w.count) :
    moveIn? rest c n = some (moveIn rest c n) := by
  induction rest generalizing c n with
  | nil => rfl
  | cons w rest ih =>
      have first : Nat.psub w.count c.offset = some (w.count - c.offset) :=
        Nat.psub_eq_sub (offset w rfl)
      rw [moveIn?, moveIn, first, Option.bind_some]
      split
      · rfl
      · next hn =>
        rw [Nat.psub_eq_sub (Nat.not_lt.mp hn), Option.bind_some]
        exact ih _ _ fun v _ => Nat.zero_le v.count

theorem move?_eq_some (h : c.Within windows) (n : Nat) :
    c.move? windows n = some (c.move windows n) := by
  refine moveIn?_eq_some _ _ _ fun w hw => ?_
  rw [List.head?_drop] at hw
  cases h with
  | atEnd hi _ =>
      have := (List.getElem?_eq_some_iff.mp hw).1
      omega
  | inside hw' ho =>
      cases hw'.symm.trans hw
      exact ho

/-- A move within the windows is not given up, and nothing is left over. -/
theorem move?_of_enough (h : c.Within windows)
    (enough : c.position windows + n ≤ sumOf (·.count) windows) :
    c.move? windows n = some (c.advance windows n, 0) := by
  rw [move?_eq_some h]
  exact congrArg some (Prod.ext rfl (move_spec h enough).1)

/-! ### Addition -/

/-- Two moves within the windows are one move. -/
theorem advance_advance (h : c.Within windows)
    (enough : c.position windows + (a + b) ≤ sumOf (·.count) windows) :
    (c.advance windows a).advance windows b = c.advance windows (a + b) := by
  obtain ⟨-, first, there⟩ := move_spec (n := a) h (by omega)
  obtain ⟨-, second, beyond⟩ := move_spec (n := b) first.within (by omega)
  obtain ⟨-, whole, behind⟩ := move_spec h enough
  exact second.eq_of_position whole (by omega)

/-- From a resting cursor, two moves that do not leave the windows come to where one move by the sum
of their lengths comes to.  The cursor rests there, at the position that is the sum, and is at the
end exactly if no byte is left.  In none of the moves does a subtraction fall below zero, and
nothing is left over. -/
theorem moves_add_up
    (rests : c.index = windows.length ∨ ∃ w, windows[c.index]? = some w ∧ c.offset < w.count)
    (enough : c.position windows + a + b ≤ sumOf (·.count) windows) :
    let there := c.advance windows (a + b)
    (c.advance windows a).advance windows b = there ∧ there.Normal windows ∧
      there.position windows = c.position windows + a + b ∧
      (there.isDone windows = true ↔ c.position windows + a + b = sumOf (·.count) windows) ∧
      c.move? windows a = some (c.advance windows a, 0) ∧
      (c.advance windows a).move? windows b = some (there, 0) ∧
      c.move? windows (a + b) = some (there, 0) := by
  intro there
  have within := (normal_of_position_le rests (by omega)).within
  have sum : (c.advance windows a).advance windows b = there := advance_advance within (by omega)
  obtain ⟨-, first, halfway⟩ := move_spec (n := a) within (by omega)
  obtain ⟨-, normal, position⟩ := move_spec (n := a + b) within (by omega)
  rw [← Nat.add_assoc] at position
  refine ⟨sum, normal, position, ?_, move?_of_enough within (by omega), ?_,
    move?_of_enough within (by omega)⟩
  · rw [isDone_iff normal, position]
  · rw [← sum]
    exact move?_of_enough first.within (by omega)

/-- Windows of four, no and six bytes. -/
def unevenWindows : List Window :=
  [.whole [0, 1, 2, 3], .whole [], ⟨[9, 4, 5, 6, 7, 8, 9, 9], 1, 6, by decide⟩]

/-- The cursor before the last byte of the first window. -/
def lastOfFirst : Cursor := ⟨0, 3⟩

/-- The first move ends with the first window and skips the empty one, the second ends with the last
window. -/
theorem moves_add_up_uneven :
    lastOfFirst.position unevenWindows + 1 + 6 = 10 ∧
      lastOfFirst.advance unevenWindows 1 = ⟨2, 0⟩ ∧
      lastOfFirst.advance unevenWindows (1 + 6) = ⟨3, 0⟩ ∧
      (lastOfFirst.advance unevenWindows 1).advance unevenWindows 6 =
        lastOfFirst.advance unevenWindows (1 + 6) ∧
      ((lastOfFirst.advance unevenWindows (1 + 6)).isDone unevenWindows = true ↔
        lastOfFirst.position unevenWindows + 1 + 6 = 10) ∧
      (lastOfFirst.advance unevenWindows 1).move? unevenWindows 6 =
        some (lastOfFirst.advance unevenWindows (1 + 6), 0) := by
  have rests : lastOfFirst.index = unevenWindows.length ∨
      ∃ w, unevenWindows[lastOfFirst.index]? = some w ∧ lastOfFirst.offset < w.count :=
    .inr ⟨_, rfl, by decide⟩
  obtain ⟨sum, -, -, atEnd, -, checked, -⟩ := moves_add_up (a := 1) (b := 6) rests (by decide)
  exact ⟨by decide, by decide, by decide, sum, atEnd, checked⟩

end Proactor.Cursor
