import Proactor.Status
import Proactor.Sum
/-! # Transfer buffers

A transfer owns its bytes for as long as it lives and hands them back when it completes.

* **Windows** (`Window`).  A contiguous part of a byte vector.  Only the window is offered to the
  kernel; the bytes around it are carried along unchanged.
* **Buffers** (`Buffer`).  One window, or a list of them.
* **Content** (`Buffer.content`).  The windows' bytes one after another. -/

namespace Proactor

/-- Bytes in order. -/
abbrev Bytes := List UInt8

/-- The bytes of `data` from `offset` on, `count` of them. -/
structure Window where
  data : Bytes
  offset : Nat
  count : Nat
  fits : offset + count ≤ data.length
deriving Repr

namespace Window

instance : Inhabited Window := ⟨⟨[], 0, 0, by simp⟩⟩

@[ext] theorem ext {v w : Window} (hd : v.data = w.data) (ho : v.offset = w.offset)
    (hc : v.count = w.count) : v = w := by
  cases v; cases w; simp_all

/-- All of a byte vector. -/
def whole (data : Bytes) : Window := ⟨data, 0, data.length, by simp⟩

/-- A part of a byte vector, refused if it reaches outside. -/
def range (data : Bytes) (offset count : Nat) : Except Status Window :=
  if h : offset + count ≤ data.length then .ok ⟨data, offset, count, h⟩
  else .error .invalidArgument

/-- The bytes in the window. -/
def content (w : Window) : Bytes := (w.data.drop w.offset).take w.count

@[simp] theorem length_content (w : Window) : w.content.length = w.count := by
  have := w.fits
  simp [content]; omega

end Window

/-- `data` with `chunk` written over it from position `start` on, as far as `data` reaches. -/
def overwrite (data : Bytes) (start : Nat) (chunk : Bytes) : Bytes :=
  data.take start ++ chunk.take (data.length - start) ++ data.drop (start + chunk.length)

@[simp] theorem length_overwrite (data : Bytes) (start : Nat) (chunk : Bytes) :
    (overwrite data start chunk).length = data.length := by
  simp [overwrite]; omega

namespace Window

/-- The window after the kernel wrote `chunk` at position `start` of its vector. -/
def write (w : Window) (start : Nat) (chunk : Bytes) : Window :=
  ⟨overwrite w.data start chunk, w.offset, w.count, by simpa using w.fits⟩

@[simp] theorem count_write (w : Window) (start : Nat) (chunk : Bytes) :
    (w.write start chunk).count = w.count := rfl

@[simp] theorem offset_write (w : Window) (start : Nat) (chunk : Bytes) :
    (w.write start chunk).offset = w.offset := rfl

end Window

/-- One window or a list of them. -/
inductive Buffer where
  | single (window : Window)
  | list (windows : List Window)
deriving Repr

namespace Buffer

instance : Inhabited Buffer := ⟨.list []⟩

/-- The windows in order. -/
def windows : Buffer → List Window
  | single w => [w]
  | list ws => ws

/-- The bytes of the windows, one window after another. -/
def content (b : Buffer) : Bytes := b.windows.flatMap Window.content

/-- The number of bytes in all windows. -/
def length (b : Buffer) : Nat := sumOf (·.count) b.windows

@[simp] theorem length_content (b : Buffer) : b.content.length = b.length := by
  simp only [content, length, length_flatMap_eq_sumOf, Window.length_content]

/-- All bytes in one window: the window itself if there is only one, else a new vector. -/
def joined : Buffer → Window
  | single w => w
  | list ws => .whole (ws.flatMap Window.content)

end Buffer
end Proactor
