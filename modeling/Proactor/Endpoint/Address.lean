import Proactor.Buffer
import Proactor.Endpoint.Text
/-! # Socket addresses as the kernel keeps them

An `Address` is a block of 128 bytes and the number of bytes in use.  The kernel writes it when it
reports a peer and reads it when it is told one.

* **Encoding** (`Address.ofEndpoint`).  Family, port in network order, then for IPv4 the four
  bytes and eight zeros, for IPv6 the flow, the sixteen bytes and the scope.  Family, flow and
  scope are little-endian.
* **Decoding** (`Address.endpoint?`).  Both families, if enough bytes are in use. -/

namespace Proactor

/-- A block of bytes for a socket address. -/
structure Address where
  storage : Vector UInt8 128
  /-- How many bytes are in use. -/
  length : Nat
deriving DecidableEq, Repr

/-- What the kernel says when it reports an address: the bytes it writes and the length it
claims. -/
structure AddressReport where
  bytes : Bytes := []
  length : Nat := 0
deriving DecidableEq, Repr, Inhabited

namespace Address

/-- The size of the block. -/
def capacity : Nat := 128

/-- A block of zeros with room for any address. -/
def blank : Address := ⟨Vector.replicate 128 0, capacity⟩

instance : Inhabited Address := ⟨blank⟩

/-- The block with `bytes` written over its start. -/
def overlay (storage : Vector UInt8 128) (bytes : Bytes) : Vector UInt8 128 :=
  Vector.ofFn fun i => bytes.getD i.val storage[i]

/-- The address with all of its room in use, as it is offered to the kernel. -/
def offered (a : Address) : Address := { a with length := capacity }

/-- The address with `n` bytes in use, at most all of them. -/
def withLength (a : Address) (n : Nat) : Address := { a with length := min n capacity }

/-- The address after the kernel's report. -/
def reported (a : Address) (r : AddressReport) : Address := ⟨overlay a.storage r.bytes, r.length⟩

/-- The bytes in use. -/
def bytes (a : Address) : Bytes := a.storage.toList.take a.length

/-- The byte at a position, `0` outside the block. -/
def byte (a : Address) (i : Nat) : UInt8 := a.storage.toArray.getD i 0

def isEmpty (a : Address) : Bool := a.length == 0

/-- The address family. -/
def family (a : Address) : Nat := (a.byte 0).toNat + 256 * (a.byte 1).toNat

/-- Sixteen bits in network order. -/
def big16 (n : UInt16) : Bytes := [UInt8.ofNat (n.toNat / 256), UInt8.ofNat n.toNat]

/-- Thirty-two bits, low byte first. -/
def little32 (n : UInt32) : Bytes :=
  [UInt8.ofNat n.toNat, UInt8.ofNat (n.toNat / 256), UInt8.ofNat (n.toNat / 65536),
    UInt8.ofNat (n.toNat / 16777216)]

/-- The bytes of an endpoint. -/
def encode : Endpoint → Bytes
  | .v4 address port => [2, 0] ++ big16 port ++ address.toList ++ List.replicate 8 0
  | .v6 address port flow scope =>
    [10, 0] ++ big16 port ++ little32 flow ++ address.toList ++ little32 scope

/-- The address of an endpoint. -/
def ofEndpoint (e : Endpoint) : Address :=
  ⟨overlay blank.storage (encode e), (encode e).length⟩

/-- Sixteen bits in network order at a position. -/
def readBig16 (a : Address) (i : Nat) : UInt16 :=
  UInt16.ofNat ((a.byte i).toNat * 256 + (a.byte (i + 1)).toNat)

/-- Thirty-two bits, low byte first, at a position. -/
def readLittle32 (a : Address) (i : Nat) : UInt32 :=
  UInt32.ofNat ((a.byte i).toNat + 256 * (a.byte (i + 1)).toNat + 65536 * (a.byte (i + 2)).toNat +
    16777216 * (a.byte (i + 3)).toNat)

/-- The endpoint that an address holds. -/
def endpoint? (a : Address) : Option Endpoint :=
  if a.family = 2 ∧ 16 ≤ a.length then
    some (.v4 (Vector.ofFn fun i => a.byte (4 + i.val)) (a.readBig16 2))
  else if a.family = 10 ∧ 28 ≤ a.length then
    some (.v6 (Vector.ofFn fun i => a.byte (8 + i.val)) (a.readBig16 2) (a.readLittle32 4)
      (a.readLittle32 24))
  else none

/-- The address as it is shown to a programmer. -/
def text (a : Address) : String :=
  match a.endpoint? with
  | some e => s!"SockAddrBuf({e.text})"
  | none => s!"SockAddrBuf(family={a.family}, len={a.length})"

end Address
end Proactor
