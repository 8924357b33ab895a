/-! # Readiness sets

A `Readiness` is a set of readiness bits: what a channel wants to hear from the reactor, and what
the reactor reports.  Bits without a meaning are kept by every operation. -/

namespace Proactor

/-- A set of readiness bits. -/
structure Readiness where
  bits : UInt32
deriving DecidableEq, Repr, Inhabited

namespace Readiness

/-- No bit. -/
def none : Readiness := ⟨0⟩
/-- Bytes, or a connection, can be taken. -/
def readable : Readiness := ⟨1⟩
/-- Bytes can be sent, or a handshake ended. -/
def writable : Readiness := ⟨2⟩
/-- The peer sends no more. -/
def peerClosed : Readiness := ⟨4⟩
/-- Both directions are finished. -/
def hangUp : Readiness := ⟨8⟩
/-- An error waits to be fetched. -/
def failed : Readiness := ⟨16⟩
/-- Report changes only; a wish, never a report. -/
def edge : Readiness := ⟨32⟩

instance : OrOp Readiness := ⟨fun a b => ⟨a.bits ||| b.bits⟩⟩
instance : AndOp Readiness := ⟨fun a b => ⟨a.bits &&& b.bits⟩⟩
instance : Complement Readiness := ⟨fun a => ⟨~~~ a.bits⟩⟩

/-- What every channel asks for when it joins the reactor. -/
def standard : Readiness := readable ||| writable ||| peerClosed ||| edge

def isEmpty (a : Readiness) : Bool := a.bits == 0

/-- Some bit of `b` is in `a`. -/
def intersects (a b : Readiness) : Bool := a.bits &&& b.bits != 0

/-- Every bit of `b` is in `a`. -/
def contains (a b : Readiness) : Bool := a.bits &&& b.bits == b.bits

/-- `a` without the bits of `b`. -/
def remove (a b : Readiness) : Readiness := a &&& ~~~ b

/-- `a` with the bits of `b`. -/
def insert (a b : Readiness) : Readiness := a ||| b

/-- The bits that ask for readiness: all but `edge`. -/
def wanted (a : Readiness) : Readiness := a.remove edge

/-- The bits with a meaning and their names, in the order in which they are shown. -/
def named : List (Readiness × String) :=
  [(readable, "IN"), (writable, "OUT"), (peerClosed, "RDHUP"), (hangUp, "HUP"), (failed, "ERR"),
    (edge, "ET")]

/-- The names of the bits in the set; bits without a meaning are not shown. -/
def text (a : Readiness) : String :=
  if a.isEmpty then "NONE"
  else "|".intercalate ((named.filter fun (bit, _) => a.contains bit).map (·.2))

end Readiness
end Proactor
