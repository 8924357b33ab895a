/-! # Directions and completion lanes

Every descriptor has three directions, and every direction its own lane of completions: what is
scheduled on one lane runs in that order. -/

namespace Proactor

/-- A file descriptor. -/
abbrev Descriptor := Int

/-- The three queues of a descriptor. -/
inductive Direction where
  | receive
  | send
  /-- Accepting and connecting share a direction. -/
  | connection
deriving DecidableEq, Repr, Inhabited

namespace Direction

/-- The number of a direction within a lane. -/
def code : Direction → UInt64
  | receive => 0
  | send => 1
  | connection => 2

def name : Direction → String
  | receive => "Receive"
  | send => "Send"
  | connection => "AcceptConnect"

end Direction

/-- The key by which completions are kept in order. -/
structure Lane where
  key : UInt64
deriving DecidableEq, Repr, Inhabited

namespace Lane

/-- The lane whose low byte is `code` and whose upper bits are the descriptor as an unsigned
32-bit word. -/
def ofCode (fd : Descriptor) (code : UInt64) : Lane :=
  ⟨(UInt64.ofNat (fd.emod 4294967296).toNat <<< 8) ||| code⟩

/-- The lane of one direction of a descriptor. -/
def of (fd : Descriptor) (direction : Direction) : Lane := ofCode fd direction.code

/-- The worker, of `n`, that runs the lane.  The multiplier is 2^64 over the golden ratio, so that
neighbouring lanes fall on different workers. -/
def bucket (lane : Lane) (n : Nat) : Nat :=
  ((lane.key * 0x9E3779B97F4A7C15) >>> 32).toNat % n

theorem bucket_lt (lane : Lane) {n : Nat} (h : 0 < n) : lane.bucket n < n := Nat.mod_lt _ h

def text (lane : Lane) : String := s!"Lane({lane.key})"

end Lane
end Proactor
