import Proactor.Endpoint.Address
import Mathlib.Data.List.TakeDrop
/-! # Addresses survive the way through the kernel's block

An endpoint is written into a block of bytes and read back from one that the kernel has filled in.

* **Layout** (`Endpoint.fields`).  Port, address, flow and scope, each with its position and its
  bytes: port and address in network order, flow and scope low byte first.
* **Numbers.**  What is read at a position is a number exactly if the bytes there are the bytes of
  this number (`Address.readBig16_eq_iff`, `Address.readLittle32_eq_iff`).
* **Decoding** (`Address.endpoint?_eq_some_iff`).  A block decodes to an endpoint exactly if it has
  the family, enough bytes in use, and the endpoint's fields.
* **Both ways** (`Address.endpoint?_faithful`).  Encoding loses nothing, and encoding what was
  decoded gives the fields back. -/

namespace Proactor

/-- A field of a socket address: where it stands, and its bytes. -/
structure Address.Field where
  start : Nat
  bytes : Bytes

namespace Endpoint

/-- The size of a socket address of the family. -/
def size : Endpoint → Nat
  | v4 .. => 16
  | v6 .. => 28

/-- What a socket address says besides its family. -/
def fields : Endpoint → List Address.Field
  | v4 address port => [⟨2, Address.big16 port⟩, ⟨4, address.toList⟩]
  | v6 address port flow scope =>
    [⟨2, Address.big16 port⟩, ⟨4, Address.little32 flow⟩, ⟨8, address.toList⟩,
      ⟨24, Address.little32 scope⟩]

end Endpoint

namespace Address

variable {a b : Address} {i n : Nat}

/-- The `n` bytes from a position on. -/
def slice (a : Address) (i n : Nat) : Bytes := (List.range n).map fun k => a.byte (i + k)

/-- The field stands in the block. -/
def Holds (a : Address) (f : Field) : Prop := a.slice f.start f.bytes.length = f.bytes

theorem slice_eq_iff :
    a.slice i n = b.slice i n ↔ ∀ k < n, a.byte (i + k) = b.byte (i + k) := by
  simp [slice]

@[simp] theorem slice_two : a.slice i 2 = [a.byte i, a.byte (i + 1)] := rfl

@[simp] theorem slice_four :
    a.slice i 4 = [a.byte i, a.byte (i + 1), a.byte (i + 2), a.byte (i + 3)] := rfl

/-! ### Numbers -/

theorem readBig16_eq_iff {port : UInt16} : a.readBig16 i = port ↔ a.slice i 2 = big16 port := by
  have high := (a.byte i).toNat_lt
  have low := (a.byte (i + 1)).toNat_lt
  have room := port.toNat_lt
  simp only [readBig16, slice_two, big16, List.cons.injEq, and_true, ← UInt16.toNat_inj,
    ← UInt8.toNat_inj, UInt16.toNat_ofNat', UInt8.toNat_ofNat']
  omega

theorem readLittle32_eq_iff {word : UInt32} :
    a.readLittle32 i = word ↔ a.slice i 4 = little32 word := by
  have first := (a.byte i).toNat_lt
  have second := (a.byte (i + 1)).toNat_lt
  have third := (a.byte (i + 2)).toNat_lt
  have fourth := (a.byte (i + 3)).toNat_lt
  have room := word.toNat_lt
  simp only [readLittle32, slice_four, little32, List.cons.injEq, and_true, ← UInt32.toNat_inj,
    ← UInt8.toNat_inj, UInt32.toNat_ofNat', UInt8.toNat_ofNat']
  omega

theorem ofFn_byte_eq_iff {address : Vector UInt8 n} :
    (Vector.ofFn fun k : Fin n => a.byte (i + k)) = address ↔ a.slice i n = address.toList := by
  have read : (Vector.ofFn fun k : Fin n => a.byte (i + k)).toList = a.slice i n := by
    refine List.ext_getElem (by simp [slice]) fun k _ _ => ?_
    simp [slice]
  rw [← read, Vector.toList_inj]

/-! ### Encoding -/

theorem length_encode (e : Endpoint) : (encode e).length = e.size := by
  cases e <;> simp [encode, big16, little32, Endpoint.size]

/-- Every endpoint fits into a block. -/
theorem length_encode_le (e : Endpoint) : (encode e).length ≤ capacity := by
  rw [length_encode]
  cases e <;> simp [Endpoint.size, capacity]

theorem byte_ofEndpoint (e : Endpoint) : (ofEndpoint e).byte i = (encode e).getD i 0 := by
  have room : (encode e).length ≤ 128 := length_encode_le e
  by_cases hi : i < 128
  · simp [byte, ofEndpoint, overlay, blank, hi]
  · simp [byte, hi, List.getElem?_eq_none (l := encode e) (i := i) (by omega)]

theorem slice_ofEndpoint {e : Endpoint} (h : i + n ≤ e.size) :
    (ofEndpoint e).slice i n = ((encode e).drop i).take n := by
  have length := length_encode e
  refine List.ext_getElem (by simp [slice]; omega) fun k hk _ => ?_
  have hk : i + k < (encode e).length := by simp [slice] at hk; omega
  simp [slice, byte_ofEndpoint, hk]

theorem family_ofEndpoint (e : Endpoint) : (ofEndpoint e).family = e.family.toNatClampNeg := by
  rw [family, byte_ofEndpoint, byte_ofEndpoint]
  cases e <;> rfl

theorem ofEndpoint_holds {e : Endpoint} {f : Field} (h : f ∈ e.fields) :
    (ofEndpoint e).Holds f := by
  have stands : f.start + f.bytes.length ≤ e.size ∧
      ((encode e).drop f.start).take f.bytes.length = f.bytes := by
    cases e with
    | v4 address port =>
        simp only [Endpoint.fields, List.mem_cons, List.not_mem_nil, or_false] at h
        rcases h with rfl | rfl <;> simp [Endpoint.size, encode, big16]
    | v6 address port flow scope =>
        simp only [Endpoint.fields, List.mem_cons, List.not_mem_nil, or_false] at h
        rcases h with rfl | rfl | rfl | rfl <;> simp [Endpoint.size, encode, big16, little32]
  rw [Holds, slice_ofEndpoint stands.1, stands.2]

/-! ### Decoding -/

/-- The fields of an IPv4 endpoint, as they are read. -/
theorem holds_v4_iff {address : Vector UInt8 4} {port : UInt16} :
    (∀ f ∈ (Endpoint.v4 address port).fields, a.Holds f) ↔
      a.readBig16 2 = port ∧ (Vector.ofFn fun k : Fin 4 => a.byte (4 + k)) = address := by
  rw [readBig16_eq_iff, ofFn_byte_eq_iff]
  simp [Endpoint.fields, Holds, big16]

/-- The fields of an IPv6 endpoint, as they are read. -/
theorem holds_v6_iff {address : Vector UInt8 16} {port : UInt16} {flow scope : UInt32} :
    (∀ f ∈ (Endpoint.v6 address port flow scope).fields, a.Holds f) ↔
      a.readBig16 2 = port ∧ a.readLittle32 4 = flow ∧
        (Vector.ofFn fun k : Fin 16 => a.byte (8 + k)) = address ∧ a.readLittle32 24 = scope := by
  rw [readBig16_eq_iff, readLittle32_eq_iff, readLittle32_eq_iff, ofFn_byte_eq_iff]
  simp [Endpoint.fields, Holds, big16, little32]

/-- What a block decodes to is what it holds. -/
theorem endpoint?_eq_some_iff {e : Endpoint} : a.endpoint? = some e ↔
    a.family = e.family.toNatClampNeg ∧ e.size ≤ a.length ∧ ∀ f ∈ e.fields, a.Holds f := by
  unfold endpoint?
  cases e with
  | v4 address port =>
      rw [holds_v4_iff]
      constructor
      · intro decoded
        split at decoded
        · next h =>
          cases decoded
          exact ⟨h.1, h.2, rfl, rfl⟩
        · split at decoded <;> cases decoded
      · rintro ⟨family, room, rfl, rfl⟩
        exact if_pos ⟨family, room⟩
  | v6 address port flow scope =>
      rw [holds_v6_iff]
      constructor
      · intro decoded
        split at decoded
        · cases decoded
        · split at decoded
          · next h =>
            cases decoded
            exact ⟨h.1, h.2, rfl, rfl, rfl, rfl⟩
          · cases decoded
      · rintro ⟨family, room, rfl, rfl, rfl, rfl⟩
        have other : ¬(a.family = 2 ∧ 16 ≤ a.length) := by
          rintro ⟨v4, -⟩
          cases family.symm.trans v4
        rw [if_neg other]
        exact if_pos ⟨family, room⟩

theorem endpoint?_eq_none_iff : a.endpoint? = none ↔
    (a.family ≠ 2 ∧ a.family ≠ 10) ∨ (a.family = 2 ∧ a.length < 16) ∨
      (a.family = 10 ∧ a.length < 28) := by
  unfold endpoint?
  split
  · simp only [reduceCtorEq, false_iff]
    omega
  · split
    · simp only [reduceCtorEq, false_iff]
      omega
    · simp only [true_iff]
      omega

/-- Every endpoint comes back from its address.  What a block decodes to has the family and the
fields of the block, byte by byte.  Only other families and blocks that are too short do not
decode. -/
theorem endpoint?_faithful (a : Address) (e : Endpoint) :
    (ofEndpoint e).endpoint? = some e ∧
      (a.endpoint? = some e → (ofEndpoint e).family = a.family ∧
        ∀ f ∈ e.fields, ∀ k < f.bytes.length,
          (ofEndpoint e).byte (f.start + k) = a.byte (f.start + k)) ∧
      (a.endpoint? = none ↔
        (a.family ≠ 2 ∧ a.family ≠ 10) ∨ (a.family = 2 ∧ a.length < 16) ∨
          (a.family = 10 ∧ a.length < 28)) := by
  refine ⟨?_, fun decoded => ?_, endpoint?_eq_none_iff⟩
  · refine endpoint?_eq_some_iff.mpr ⟨family_ofEndpoint e, ?_, fun f => ofEndpoint_holds⟩
    exact Nat.le_of_eq (length_encode e).symm
  · obtain ⟨family, -, holds⟩ := endpoint?_eq_some_iff.mp decoded
    refine ⟨(family_ofEndpoint e).trans family.symm, fun f hf => ?_⟩
    have same : (ofEndpoint e).Holds f := ofEndpoint_holds hf
    exact slice_eq_iff.mp (same.trans (holds f hf).symm)

/-- An address of which every field differs from its reverse, in a block that was used before. -/
def usedBlock : Address :=
  ⟨overlay (Vector.replicate 128 255)
    (encode (.v6 (Vector.ofFn fun k => UInt8.ofNat k.val) 0x1234 0x12345678 0x9abcdef0)), 40⟩

theorem endpoint?_faithful_usedBlock : ∃ e, usedBlock.endpoint? = some e ∧
    (ofEndpoint e).family = usedBlock.family ∧
      ∀ f ∈ e.fields, ∀ k < f.bytes.length,
        (ofEndpoint e).byte (f.start + k) = usedBlock.byte (f.start + k) := by
  have decoded : usedBlock.endpoint? =
      some (.v6 (Vector.ofFn fun k => UInt8.ofNat k.val) 0x1234 0x12345678 0x9abcdef0) := by
    decide +kernel
  exact ⟨_, decoded, (endpoint?_faithful usedBlock _).2.1 decoded⟩

end Address
end Proactor
