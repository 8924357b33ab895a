import Proactor.Proofs.Cursor
/-! # Laws of receiving into a buffer

* **Room** (`Span.total_room`).  A receive that asks for some bytes offers room for all of them, or
  for as many as one call can take (`Span.capacity`).
* **Filling** (`fill`).  Bytes are written over the beginning of the content, window by window.
* **Writing** (`Span.scatter_room`, `Buffer.content_scatter`).  What the kernel writes into the room
  that it was offered fills the windows. -/

namespace Proactor

/-! ### Room -/

namespace Span

/-- The number of bytes that one call can take into at most `room` windows that are not empty. -/
def capacityIn : List Window → (room : Nat) → Nat
  | [], _ => 0
  | w :: rest, room =>
    if w.count = 0 then capacityIn rest room
    else
      match room with
      | 0 => 0
      | room + 1 => w.count + capacityIn rest room

/-- The number of bytes that one call can take. -/
def capacity (windows : List Window) : Nat := capacityIn windows limit

theorem capacityIn_zero (windows : List Window) : capacityIn windows 0 = 0 := by
  induction windows with
  | nil => rfl
  | cons w rest ih =>
      unfold capacityIn
      split
      · exact ih
      · rfl

theorem total_roomIn (windows : List Window) (index bytes room : Nat) :
    total (roomIn windows index bytes room) = min bytes (capacityIn windows room) := by
  induction windows generalizing index bytes room with
  | nil => simp [roomIn, capacityIn, total]
  | cons w rest ih =>
      unfold roomIn
      cases room with
      | zero => simp [capacityIn_zero, total]
      | succ room =>
          unfold capacityIn
          by_cases hb : bytes = 0
          · simp [hb, total]
          · by_cases hw : w.count = 0
            · simp [hb, hw, ih]
            · have hm : min w.count bytes ≠ 0 := by omega
              have rest := ih (index + 1) (bytes - min w.count bytes) room
              simp only [hb, hw, hm, false_or, if_false, Nat.succ_ne_zero, total, sumOf_cons,
                Nat.add_sub_cancel] at rest ⊢
              omega

theorem total_room (windows : List Window) (bytes : Nat) :
    total (room windows bytes) = min bytes (capacity windows) :=
  total_roomIn windows 0 bytes limit

/-- No call takes more than the windows hold. -/
theorem capacityIn_le (windows : List Window) (room : Nat) :
    capacityIn windows room ≤ sumOf (·.count) windows := by
  induction windows generalizing room with
  | nil => exact Nat.le_refl 0
  | cons w rest ih =>
      unfold capacityIn
      split
      · exact Nat.le_add_left_of_le (ih room)
      · cases room with
        | zero => exact Nat.zero_le _
        | succ room => exact Nat.add_le_add_left (ih room) _

theorem total_room_le (windows : List Window) (bytes : Nat) :
    total (room windows bytes) ≤ sumOf (·.count) windows := by
  rw [total_room]
  exact Nat.le_trans (Nat.min_le_right _ _) (capacityIn_le windows limit)

/-- A call can take a byte into a buffer that is not empty. -/
theorem capacity_pos {windows : List Window} (h : 0 < sumOf (·.count) windows) :
    0 < capacity windows := by
  have pos : ∀ (room : Nat), 0 < room → 0 < capacityIn windows room := by
    intro room hr
    induction windows with
    | nil => cases h
    | cons w rest ih =>
        unfold capacityIn
        by_cases hw : w.count = 0
        · rw [if_pos hw]
          exact ih (by simpa [hw] using h)
        · rw [if_neg hw]
          cases room with
          | zero => cases hr
          | succ room =>
              dsimp only
              omega
  exact pos limit (by decide)

end Span

/-! ### Filling -/

/-- The windows with `bytes` written over the beginning of their content. -/
def fill : List Window → Bytes → List Window
  | [], _ => []
  | w :: rest, bytes => w.write w.offset (bytes.take w.count) :: fill rest (bytes.drop w.count)

/-- What is written at the beginning of a window stands there, before what was behind it. -/
theorem Window.content_write (w : Window) {chunk : Bytes} (h : chunk.length ≤ w.count) :
    (w.write w.offset chunk).content = chunk ++ w.content.drop chunk.length := by
  have fits := w.fits
  have whole : chunk.take (w.data.length - w.offset) = chunk :=
    List.take_of_length_le (by omega)
  have front : (w.data.take w.offset).length = w.offset := by
    rw [List.length_take]
    omega
  simp only [content, write, overwrite, whole, List.append_assoc]
  rw [List.drop_append_of_le_length (by omega), List.drop_of_length_le (by omega), List.nil_append,
    List.take_append, List.take_of_length_le h, ← List.drop_drop, List.drop_take]

@[simp] theorem Window.write_nil (w : Window) (start : Nat) : w.write start [] = w := by
  apply Window.ext
  · simp [write, overwrite]
  · rfl
  · rfl

@[simp] theorem fill_nil (windows : List Window) : fill windows [] = windows := by
  induction windows with
  | nil => rfl
  | cons w rest ih => simp [fill, ih]

/-- The content begins with what was filled in. -/
theorem contents_fill (windows : List Window) (bytes : Bytes)
    (h : bytes.length ≤ sumOf (·.count) windows) :
    (contents (fill windows bytes)).take bytes.length = bytes := by
  induction windows generalizing bytes with
  | nil =>
      obtain rfl : bytes = [] := by simpa using h
      rfl
  | cons w rest ih =>
      have content := w.content_write (List.length_take_le w.count bytes)
      rw [sumOf_cons] at h
      rw [fill, contents, List.flatMap_cons, content]
      by_cases short : bytes.length ≤ w.count
      · rw [List.take_of_length_le short, List.append_assoc, List.take_left]
      · -- The window is full, and what is left goes into those behind it.
        have full : w.content.drop (bytes.take w.count).length = [] := by
          refine List.drop_of_length_le ?_
          rw [w.length_content, List.length_take]
          omega
        have next := ih (bytes.drop w.count) (by rw [List.length_drop]; omega)
        rw [List.length_drop, contents] at next
        rw [full, List.append_nil, List.take_append, List.take_of_length_le
          (by rw [List.length_take]; omega), List.length_take, Nat.min_eq_left (by omega), next,
          List.take_append_drop]

/-! ### Writing -/

theorem modify_length {α : Type} (f : α → α) (passed rest : List α) (a : α) :
    (passed ++ a :: rest).modify passed.length f = passed ++ f a :: rest := by
  induction passed with
  | nil => rfl
  | cons b passed ih => simp [ih]

namespace Span

/-- What is written into the room of the windows behind `passed` fills them. -/
theorem scatter_roomIn (passed windows : List Window) (n room : Nat) (bytes : Bytes)
    (h : bytes.length ≤ total (roomIn windows passed.length n room)) :
    scatter (passed ++ windows) (roomIn windows passed.length n room) bytes =
      passed ++ fill windows bytes := by
  induction windows generalizing passed n room bytes with
  | nil => rfl
  | cons w rest ih =>
      have next := ih (passed ++ [w.write w.offset (bytes.take w.count)])
      simp only [List.length_append, List.length_singleton, List.append_assoc,
        List.singleton_append] at next
      unfold roomIn at h ⊢
      by_cases hs : n = 0 ∨ room = 0
      · rw [if_pos hs] at h ⊢
        obtain rfl : bytes = [] := by simpa [total] using h
        simp [scatter]
      · rw [if_neg hs] at h ⊢
        by_cases hm : min w.count n = 0
        · have empty : w.count = 0 := by omega
          rw [if_pos hm] at h ⊢
          rw [empty, List.take_zero, Window.write_nil] at next
          rw [next n room bytes h, fill, empty, List.take_zero, List.drop_zero,
            Window.write_nil]
        · rw [if_neg hm] at h ⊢
          have rest_le := total_roomIn rest (passed.length + 1) (n - min w.count n) (room - 1)
          simp only [total, sumOf_cons] at h rest_le
          have fits : bytes.length ≤ n := by omega
          -- Where the room ends inside the window, nothing is left for those behind it.
          have cut : bytes.take (min w.count n) = bytes.take w.count ∧
              bytes.drop (min w.count n) = bytes.drop w.count := by
            rcases Nat.le_total w.count n with hn | hn
            · rw [Nat.min_eq_left hn]
              exact ⟨rfl, rfl⟩
            · rw [Nat.min_eq_right hn, List.take_of_length_le fits, List.drop_of_length_le fits,
                List.take_of_length_le (by omega), List.drop_of_length_le (by omega)]
              exact ⟨rfl, rfl⟩
          rw [scatter, modify_length, cut.1, cut.2, next, fill]
          rw [List.length_drop, total]
          omega

theorem scatter_room (windows : List Window) (n : Nat) (bytes : Bytes)
    (h : bytes.length ≤ total (room windows n)) :
    scatter windows (room windows n) bytes = fill windows bytes :=
  scatter_roomIn [] windows n limit bytes h

end Span

/-- What the kernel writes into the room of a buffer stands at the beginning of its content. -/
theorem Buffer.content_scatter (b : Buffer) (n : Nat) (bytes : Bytes)
    (h : bytes.length ≤ Span.total (Span.room b.windows n)) :
    (b.scatter (Span.room b.windows n) bytes).content.take bytes.length = bytes := by
  rw [content, windows_scatter, Span.scatter_room _ _ _ h]
  exact contents_fill _ _ (Nat.le_trans h (Span.total_room_le _ _))

end Proactor
