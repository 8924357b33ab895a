import Proactor.Buffer
/-! # Positions in a buffer, and what is offered to the kernel

* **Cursors** (`Cursor`).  How far a transfer has come: a window and an offset into it.  A cursor
  never rests at the end of a window, so that each position has one cursor.
* **Spans** (`Span`).  The pieces of the windows' vectors that one system call may read or write:
  none is empty, and there are at most `Span.limit` of them. -/

namespace Proactor

/-- A position in a list of windows. -/
structure Cursor where
  index : Nat := 0
  offset : Nat := 0
deriving DecidableEq, Repr, Inhabited

namespace Cursor

/-- No byte is left. -/
def isDone (c : Cursor) (windows : List Window) : Bool := windows.length ≤ c.index

/-- Move `n` bytes on, where `windows` are those from the cursor on: the new cursor, and how many
bytes were left over when the windows ended. -/
def moveIn : List Window → Cursor → Nat → Cursor × Nat
  | [], c, n => (c, n)
  | w :: rest, c, n =>
    if n < w.count - c.offset then (⟨c.index, c.offset + n⟩, 0)
    else moveIn rest ⟨c.index + 1, 0⟩ (n - (w.count - c.offset))

/-- Move `n` bytes on: the new cursor, and how many bytes lay past the end. -/
def move (c : Cursor) (windows : List Window) (n : Nat) : Cursor × Nat :=
  moveIn (windows.drop c.index) c n

/-- The cursor `n` bytes further on; exhausted and empty windows are skipped. -/
def advance (c : Cursor) (windows : List Window) (n : Nat) : Cursor := (c.move windows n).1

/-- The cursor at the same position that rests in no exhausted window. -/
def normalize (c : Cursor) (windows : List Window) : Cursor := c.advance windows 0

/-- The number of bytes before the cursor. -/
def position (c : Cursor) (windows : List Window) : Nat :=
  sumOf (·.count) (windows.take c.index) + c.offset

def text (c : Cursor) : String :=
  s!"Cursor \x7b index: {c.index}, offset: {c.offset} \x7d"

end Cursor

/-- A piece of the vector of one window. -/
structure Span where
  /-- Which window. -/
  window : Nat
  /-- Where in its vector. -/
  start : Nat
  length : Nat
deriving DecidableEq, Repr, Inhabited

namespace Span

/-- The largest number of spans in one system call. -/
def limit : Nat := 1024

/-- The span of the window with number `index`, less its first `skip` bytes. -/
def ofWindow (index skip : Nat) (w : Window) : Option Span :=
  if w.count - skip = 0 then none else some ⟨index, w.offset + skip, w.count - skip⟩

/-- What is left from the cursor on, cut after the largest number of spans. -/
def unsent (windows : List Window) (c : Cursor) : List Span :=
  let spans := (windows.drop c.index).zipIdx c.index |>.filterMap fun (w, i) =>
    ofWindow i (if i = c.index then c.offset else 0) w
  spans.take limit

/-- Room for at most `bytes` bytes in at most `room` windows, the first of which has the number
`index`. -/
def roomIn : List Window → (index bytes room : Nat) → List Span
  | [], _, _, _ => []
  | w :: rest, index, bytes, room =>
    if bytes = 0 ∨ room = 0 then []
    else if min w.count bytes = 0 then roomIn rest (index + 1) bytes room
    else ⟨index, w.offset, min w.count bytes⟩ ::
      roomIn rest (index + 1) (bytes - min w.count bytes) (room - 1)

/-- Room for at most `bytes` bytes. -/
def room (windows : List Window) (bytes : Nat) : List Span := roomIn windows 0 bytes limit

/-- The number of bytes in all spans. -/
def total (spans : List Span) : Nat := sumOf (·.length) spans

/-- The bytes that a span covers. -/
def read (windows : List Window) (s : Span) : Bytes :=
  match windows[s.window]? with
  | some w => (w.data.drop s.start).take s.length
  | none => []

/-- The windows after `bytes` were written into the spans in order. -/
def scatter (windows : List Window) : List Span → Bytes → List Window
  | [], _ => windows
  | s :: rest, bytes =>
    scatter (windows.modify s.window (·.write s.start (bytes.take s.length))) rest
      (bytes.drop s.length)

theorem length_scatter (spans : List Span) (windows : List Window) (bytes : Bytes) :
    (scatter windows spans bytes).length = windows.length := by
  induction spans generalizing windows bytes with
  | nil => rfl
  | cons s rest ih => simp [scatter, ih]

end Span

/-- The buffer after the kernel wrote `bytes` into the spans in order. -/
def Buffer.scatter (b : Buffer) (spans : List Span) (bytes : Bytes) : Buffer :=
  match b with
  | .single w => .single ((Span.scatter [w] spans bytes).headD w)
  | .list ws => .list (Span.scatter ws spans bytes)

theorem Buffer.windows_scatter (b : Buffer) (spans : List Span) (bytes : Bytes) :
    (b.scatter spans bytes).windows = Span.scatter b.windows spans bytes := by
  cases b with
  | list ws => rfl
  | single w =>
    have h := Span.length_scatter spans [w] bytes
    match hs : Span.scatter [w] spans bytes, h with
    | [v], _ => simp [scatter, windows, hs]

end Proactor
