import Proactor.Proofs.Attempt
import Proactor.Proofs.Room
/-! # What a receive writes

A receive lends the kernel pieces of its windows, and gets them back with some bytes written.

* **Offers** (`Span.Offered`).  The pieces that a call offers: none is empty, each lies at the
  beginning of its window, and together they have room for what can be read, as far as one call
  goes.
* **Footprints** (`Overwritten`).  A byte of a vector is the kernel's if its place in the content
  was written (`Window.place?`), and otherwise what it was.  No vector and no window changes its
  bounds.
* **Attempts** (`Attempt.receive_footprint`).  An attempt that receives leaves such a footprint; one
  that fails, or finds nothing, leaves none. -/

namespace Proactor

/-! ### Footprints -/

/-- The bounds of a window and of its vector. -/
def Window.bounds (w : Window) : Nat × Nat × Nat := (w.data.length, w.offset, w.count)

/-- The place in the content of the byte at position `j` of a window's vector, where the windows
before it hold `before` bytes; nothing if the byte lies outside the window. -/
def Window.place? (w : Window) (before j : Nat) : Option Nat :=
  if w.offset ≤ j ∧ j < w.offset + w.count then some (before + (j - w.offset)) else none

/-- `bytes` were written over the beginning of the content of windows, and nothing else. -/
structure Overwritten (windows : List Window) (bytes : Bytes) (windows' : List Window) : Prop where
  content : (contents windows').take bytes.length = bytes
  bounds : windows'.map Window.bounds = windows.map Window.bounds
  /-- A byte is the one that was written at its place in the content, or it is unchanged. -/
  byte : ∀ (i : Nat) (w w' : Window), windows[i]? = some w → windows'[i]? = some w' → ∀ j : Nat,
    w'.data[j]? =
      ((w.place? (sumOf (·.count) (windows.take i)) j).bind (bytes[·]?)).or w.data[j]?

theorem getElem?_overwrite (data : Bytes) (start : Nat) (chunk : Bytes)
    (h : start + chunk.length ≤ data.length) (j : Nat) :
    (overwrite data start chunk)[j]? =
      if start ≤ j ∧ j < start + chunk.length then chunk[j - start]? else data[j]? := by
  have whole : chunk.take (data.length - start) = chunk := List.take_of_length_le (by omega)
  have front : (data.take start).length = start := by
    rw [List.length_take]
    omega
  rw [overwrite, whole, List.append_assoc]
  by_cases before : j < start
  · rw [if_neg (by omega), List.getElem?_append_left (by omega), List.getElem?_take_of_lt before]
  · rw [List.getElem?_append_right (by omega), front]
    by_cases inside : j < start + chunk.length
    · rw [if_pos (by omega), List.getElem?_append_left (by omega)]
    · rw [if_neg (by omega), List.getElem?_append_right (by omega), List.getElem?_drop]
      congr 1
      omega

/-- A window of which the first bytes are written. -/
theorem Window.getElem?_write (w : Window) (chunk : Bytes) (h : chunk.length ≤ w.count) (j : Nat) :
    (w.write w.offset chunk).data[j]? = ((w.place? 0 j).bind (chunk[·]?)).or w.data[j]? := by
  have fits := w.fits
  rw [write, getElem?_overwrite _ _ _ (by omega), place?]
  by_cases inside : w.offset ≤ j ∧ j < w.offset + chunk.length
  · rw [if_pos inside, if_pos (by omega), Option.bind_some, Nat.zero_add,
      List.getElem?_eq_getElem (by omega), Option.some_or]
  · rw [if_neg inside]
    split
    · have beyond : chunk[0 + (j - w.offset)]? = none := List.getElem?_eq_none (by omega)
      rw [Option.bind_some, beyond, Option.none_or]
    · rw [Option.bind_none, Option.none_or]

theorem bounds_fill (windows : List Window) (bytes : Bytes) :
    (fill windows bytes).map Window.bounds = windows.map Window.bounds := by
  induction windows generalizing bytes with
  | nil => rfl
  | cons w rest ih => simp [fill, ih, Window.bounds, Window.write]

theorem getElem?_fill (windows : List Window) (bytes : Bytes) (i : Nat) :
    (fill windows bytes)[i]? = windows[i]?.map fun w =>
      w.write w.offset ((bytes.drop (sumOf (·.count) (windows.take i))).take w.count) := by
  induction windows generalizing bytes i with
  | nil => rfl
  | cons w rest ih =>
      cases i with
      | zero => rfl
      | succ i => simp only [fill, List.getElem?_cons_succ, ih, List.take_succ_cons, sumOf_cons,
          List.drop_drop]

theorem fill_overwritten (windows : List Window) (bytes : Bytes)
    (h : bytes.length ≤ sumOf (·.count) windows) :
    Overwritten windows bytes (fill windows bytes) := by
  refine ⟨contents_fill windows bytes h, bounds_fill windows bytes, ?_⟩
  intro i w w' hw hw' j
  rw [getElem?_fill, hw, Option.map_some] at hw'
  obtain rfl := Option.some.inj hw'
  rw [Window.getElem?_write _ _ (List.length_take_le _ _), Window.place?, Window.place?]
  split
  · rw [Option.bind_some, Option.bind_some, List.getElem?_take_of_lt (by omega), List.getElem?_drop,
      Nat.zero_add]
  · rfl

/-! ### Offers -/

namespace Span

/-- What one call of a receive offers that was told of `told` bytes. -/
structure Offered (windows : List Window) (told : Nat) (spans : List Span) : Prop where
  few : spans.length ≤ limit
  nonempty : ∀ s ∈ spans, 0 < s.length
  within : ∀ s ∈ spans, ∃ w, windows[s.window]? = some w ∧ s.start = w.offset ∧ s.length ≤ w.count
  inOrder : spans.Pairwise (·.window < ·.window)
  total : total spans = min told (sumOf (·.count) ((windows.filter (0 < ·.count)).take limit))

theorem length_roomIn_le (windows : List Window) (index bytes room : Nat) :
    (roomIn windows index bytes room).length ≤ room := by
  induction windows generalizing index bytes room with
  | nil => exact Nat.zero_le _
  | cons w rest ih =>
      unfold roomIn
      split
      · exact Nat.zero_le _
      · split
        · exact ih _ _ _
        · have := ih (index + 1) (bytes - min w.count bytes) (room - 1)
          rw [List.length_cons]
          omega

/-- A span of the room of the windows from number `index` on. -/
theorem mem_roomIn {windows : List Window} {index bytes room : Nat} {s : Span}
    (h : s ∈ roomIn windows index bytes room) : index ≤ s.window ∧ 0 < s.length ∧
      ∃ w, windows[s.window - index]? = some w ∧ s.start = w.offset ∧ s.length ≤ w.count := by
  induction windows generalizing index bytes room with
  | nil => cases h
  | cons w rest ih =>
      have later : ∀ {bytes room : Nat}, s ∈ roomIn rest (index + 1) bytes room →
          index ≤ s.window ∧ 0 < s.length ∧ ∃ v, (w :: rest)[s.window - index]? = some v ∧
            s.start = v.offset ∧ s.length ≤ v.count := by
        intro bytes room h
        obtain ⟨behind, some, v, hv, place⟩ := ih h
        refine ⟨by omega, some, v, ?_, place⟩
        rw [show s.window - index = s.window - (index + 1) + 1 by omega]
        exact hv
      unfold roomIn at h
      split at h
      · cases h
      · split at h
        · exact later h
        · rcases List.mem_cons.mp h with rfl | h
          · exact ⟨Nat.le_refl _, by dsimp only; omega, w, by simp, rfl, Nat.min_le_left _ _⟩
          · exact later h

theorem pairwise_roomIn (windows : List Window) (index bytes room : Nat) :
    (roomIn windows index bytes room).Pairwise (·.window < ·.window) := by
  induction windows generalizing index bytes room with
  | nil => exact .nil
  | cons w rest ih =>
      unfold roomIn
      split
      · exact .nil
      · split
        · exact ih _ _ _
        · exact List.pairwise_cons.mpr ⟨fun s hs => (mem_roomIn hs).1, ih _ _ _⟩

/-- One call can take what the first windows hold that are not empty. -/
theorem capacityIn_eq (windows : List Window) (room : Nat) :
    capacityIn windows room = sumOf (·.count) ((windows.filter (0 < ·.count)).take room) := by
  induction windows generalizing room with
  | nil => simp [capacityIn]
  | cons w rest ih =>
      unfold capacityIn
      by_cases hw : w.count = 0
      · simp [hw, ih]
      · rw [if_neg hw, List.filter_cons_of_pos (by simp; omega)]
        cases room with
        | zero => simp
        | succ room => simp [ih]

theorem offered_room (windows : List Window) (told : Nat) :
    Offered windows told (room windows told) where
  few := length_roomIn_le windows 0 told limit
  nonempty s hs := (mem_roomIn hs).2.1
  within s hs := (mem_roomIn hs).2.2
  inOrder := pairwise_roomIn windows 0 told limit
  total := by rw [total_room, capacity, capacityIn_eq]

end Span

/-! ### Attempts -/

/-- What the kernel writes into the room of a buffer fills its windows. -/
theorem Buffer.scatter_overwritten (b : Buffer) (n : Nat) (bytes : Bytes)
    (h : bytes.length ≤ Span.total (Span.room b.windows n)) :
    Overwritten b.windows bytes (b.scatter (Span.room b.windows n) bytes).windows := by
  rw [windows_scatter, Span.scatter_room _ _ _ h]
  exact fill_overwritten _ _ (Nat.le_trans h (Span.total_room_le _ _))

/-- One window or a list of them. -/
def Buffer.isSingle : Buffer → Bool
  | single _ => true
  | list _ => false

theorem Buffer.isSingle_scatter (b : Buffer) (spans : List Span) (bytes : Bytes) :
    (b.scatter spans bytes).isSingle = b.isSingle := by
  cases b <;> rfl

namespace Attempt

/-- What is left of a receive after its call, which offered `spans`. -/
structure Leaves (op : Operation) (t : Transfer) (spans : List Span) : Prop where
  /-- A call that fails, or finds the descriptor not ready, changes nothing. -/
  unread : ∀ raw, ∃ t', (afterReceive op t spans (.error raw)).op.work = .receive t' ∧
    t'.buffer = t.buffer ∧ t'.transferred = t.transferred
  /-- A call that receives as much as it may changes what it reports. -/
  received : ∀ got, got.bytes.length ≤ Span.total spans → ∃ t',
    afterReceive op t spans (.ok got) = .ready (op.became (.receive t') .success) ∧
      t'.transferred = got.bytes.length ∧ t'.buffer.isSingle = t.buffer.isSingle ∧
      Overwritten t.buffer.windows got.bytes t'.buffer.windows

/-- What an attempt to receive asks of the kernel, and what each answer does to the buffer. -/
structure Footprint (op : Operation) (t : Transfer) (fd : Descriptor) : Prop where
  asks : call ⟨op, none⟩ fd = ⟨.available fd, afterAvailable op⟩
  /-- Where it is not told how much can be read, it ends with its buffer as it was. -/
  untold : ∀ raw, ∃ op', afterAvailable op (.error raw) = .ready op' ∧ op'.work = .receive t
  /-- Where it is told, it offers room for that, and for one byte at least. -/
  told : ∀ v : Int, afterAvailable op (.ok v) = .calling ⟨op, some (max v 1).toNat⟩
  offers : ∀ n, call ⟨op, some n⟩ fd =
      ⟨.receive fd ((Span.room t.buffer.windows n).map (·.length))
        (t.address.map fun _ => Address.capacity) t.flags,
      afterReceive op t (Span.room t.buffer.windows n)⟩ ∧
    Span.Offered t.buffer.windows n (Span.room t.buffer.windows n)
  leaves : ∀ n, Leaves op t (Span.room t.buffer.windows n)

theorem leaves_room (op : Operation) (t : Transfer) (n : Nat) :
    Leaves op t (Span.room t.buffer.windows n) where
  unread raw := by
    simp only [afterReceive]
    split <;> exact ⟨_, rfl, rfl, rfl⟩
  received got h :=
    ⟨_, rfl, rfl, t.buffer.isSingle_scatter _ _, t.buffer.scatter_overwritten n got.bytes h⟩

/-- An attempt to receive touches only what it reports. -/
theorem receive_footprint {op : Operation} {t : Transfer} (h : op.work = .receive t)
    (fd : Descriptor) : Footprint op t fd where
  asks := by rw [call, h]
  untold raw := ⟨_, rfl, h⟩
  told v := by
    have room : (max v 1).toNat = max v.toNat 1 := by omega
    rw [room, afterAvailable]
  offers n := ⟨by rw [call, h], Span.offered_room _ _⟩
  leaves n := leaves_room op t n

/-- A window that leaves two bytes of its vector out, an empty window, and three bytes. -/
def patches : Buffer :=
  .list [⟨[0, 1, 2, 3, 4, 5, 6], 1, 5, by decide⟩, ⟨[9], 1, 0, by decide⟩, .whole [7, 8, 9]]

/-- A receive that is told of seven bytes offers the first window and a part of the last one.  Then
it gets six. -/
theorem receive_footprint_patches :
    Span.room patches.windows 7 = [⟨0, 1, 5⟩, ⟨2, 0, 2⟩] ∧
    ∃ t', Overwritten patches.windows [11, 12, 13, 14, 15, 16] t'.buffer.windows ∧
      Attempt.afterReceive (.receive 7 patches 0 none) (.fresh patches 0 none)
          (Span.room patches.windows 7) (.ok ⟨[11, 12, 13, 14, 15, 16], 0, {}⟩) =
        .ready ⟨7, .success, .receive t'⟩ ∧
      t'.buffer.windows.map (·.data) = [[0, 11, 12, 13, 14, 15, 6], [9], [16, 8, 9]] := by
  have footprint : Footprint (.receive 7 patches 0 none) _ 10 := receive_footprint rfl 10
  obtain ⟨t', ready, -, -, overwritten⟩ :=
    (footprint.leaves 7).received ⟨[11, 12, 13, 14, 15, 16], 0, {}⟩ (by decide)
  refine ⟨rfl, t', overwritten, ready, ?_⟩
  cases ready
  rfl

end Attempt
end Proactor
