import Proactor.Endpoint
import Proactor.Text.Hexadecimal
/-! # Endpoints as text

* **Writing** (`Endpoint.text`).  `1.2.3.4:5` or `[fe80::1%3]:5`.  The longest run of at least two
  zero groups, the first of several, is written `::`; an address that maps an IPv4 address ends in
  that address; the scope is shown unless it is zero, the flow never.
* **Reading** (`Endpoint.parse?`).  Both forms, and no blanks.  Parts of an IPv4 address have no
  leading zeros; a port or scope may have any number of digits; a group of an IPv6 address has at
  most four. -/

namespace Proactor.Endpoint

/-! ### Writing -/

/-- The eight groups of an IPv6 address. -/
def groups (address : Vector UInt8 16) : List Nat :=
  (List.range 8).map fun i =>
    (address.toArray.getD (2 * i) 0).toNat * 256 + (address.toArray.getD (2 * i + 1) 0).toNat

/-- Four bytes in dotted form. -/
def dotted (bytes : List UInt8) : String :=
  ".".intercalate (bytes.map fun b => toString b.toNat)

/-- Groups in hexadecimal with colons between them. -/
def colons (gs : List Nat) : String :=
  ":".intercalate (gs.map fun g => String.ofList (Nat.toDigits 16 g))

/-- Start and length of the longest run of zeros, the first of several; `current` is the run that
ends before the group with number `i`. -/
def zeroRunIn : List Nat → (i : Nat) → (current best : Nat × Nat) → Nat × Nat
  | [], _, _, best => best
  | g :: rest, i, current, best =>
    if g = 0 then
      let current := (if current.2 = 0 then i else current.1, current.2 + 1)
      zeroRunIn rest (i + 1) current (if best.2 < current.2 then current else best)
    else zeroRunIn rest (i + 1) (0, 0) best

/-- Start and length of the longest run of zero groups. -/
def zeroRun (gs : List Nat) : Nat × Nat := zeroRunIn gs 0 (0, 0) (0, 0)

/-- Whether the groups map an IPv4 address. -/
def isMapped (gs : List Nat) : Bool := gs.take 6 == [0, 0, 0, 0, 0, 0xFFFF]

/-- An IPv6 address in its shortest form. -/
def v6Text (address : Vector UInt8 16) : String :=
  let gs := groups address
  if isMapped gs then "::ffff:" ++ dotted (address.toList.drop 12)
  else
    let (start, length) := zeroRun gs
    if 1 < length then colons (gs.take start) ++ "::" ++ colons (gs.drop (start + length))
    else colons gs

/-- An endpoint as text. -/
def text : Endpoint → String
  | v4 address port => s!"{dotted address.toList}:{port.toNat}"
  | v6 address port _ scope =>
    if scope = 0 then s!"[{v6Text address}]:{port.toNat}"
    else s!"[{v6Text address}%{scope.toNat}]:{port.toNat}"

/-! ### Reading

A reader takes a prefix of the characters and gives what it read and the rest; one that fails
takes nothing. -/

/-- A reader of values of type `α`. -/
abbrev Reader (α : Type) := List Char → Option (α × List Char)

/-- Read the character `c`. -/
def readChar (c : Char) : Reader Unit
  | d :: rest => if d = c then some ((), rest) else none
  | [] => none

/-- The value of a digit in the given base. -/
def digitIn? (base : Nat) (c : Char) : Option Nat := (Text.hexDigit? c).filter (· < base)

/-- The digits at the front and the rest. -/
def spanDigits (base : Nat) : List Char → List Nat × List Char
  | [] => ([], [])
  | c :: rest => match digitIn? base c with
    | some d => let (ds, rest') := spanDigits base rest; (d :: ds, rest')
    | none => ([], c :: rest)

/-- Read a number up to `max` with at most `digits` digits.  Without `zeros`, a number of several
digits does not begin with a zero. -/
def readNumber (base max : Nat) (digits : Option Nat) (zeros : Bool) : Reader Nat := fun cs =>
  let (ds, rest) := spanDigits base cs
  let value := ds.foldl (fun n d => base * n + d) 0
  if ds = [] then none
  else if digits.any (· < ds.length) then none
  else if max < value then none
  else if !zeros && ds.head? = some 0 && 1 < ds.length then none
  else some (value, rest)

/-- Read `n` parts of a dotted address, each after a point unless it is the first. -/
def readParts : (n : Nat) → (first : Bool) → Reader (List UInt8)
  | 0, _, cs => some ([], cs)
  | n + 1, first, cs => do
    let cs ← if first then some cs else (readChar '.' cs).map (·.2)
    let (part, cs) ← readNumber 10 255 (some 3) false cs
    let (parts, cs) ← readParts n false cs
    some (UInt8.ofNat part :: parts, cs)

/-- Read an IPv4 address. -/
def readV4 : Reader (List UInt8) := readParts 4 true

/-- Read up to `n` groups, each after a colon unless it is the first; the last two may be written
as an IPv4 address.  The answer tells whether they were. -/
def readGroups : (n : Nat) → (first : Bool) → List Char → (List Nat × Bool) × List Char
  | 0, _, cs => (([], false), cs)
  | n + 1, first, cs =>
    let after := if first then some cs else (readChar ':' cs).map (·.2)
    let dottedEnd : Option (List UInt8 × List Char) :=
      if n = 0 then none else after.bind readV4
    match dottedEnd with
    | some ([a, b, c, d], rest) =>
      (([a.toNat * 256 + b.toNat, c.toNat * 256 + d.toNat], true), rest)
    | _ =>
      match after.bind (readNumber 16 0xFFFF (some 4) true) with
      | some (g, rest) =>
        let ((gs, dots), rest) := readGroups n false rest
        ((g :: gs, dots), rest)
      | none => (([], false), cs)

/-- Read the eight groups of an IPv6 address; `::` stands for one or more zero groups. -/
def readV6 : Reader (List Nat) := fun cs =>
  let ((head, dots), rest) := readGroups 8 true cs
  if head.length = 8 then some (head, rest)
  else if dots then none
  else do
    let ((), rest) ← readChar ':' rest
    let ((), rest) ← readChar ':' rest
    let ((tail, _), rest) := readGroups (7 - head.length) true rest
    some (head ++ List.replicate (8 - head.length - tail.length) 0 ++ tail, rest)

/-- Read a colon and a port. -/
def readPort : Reader UInt16 := fun cs => do
  let ((), cs) ← readChar ':' cs
  let (port, cs) ← readNumber 10 65535 none true cs
  some (UInt16.ofNat port, cs)

/-- Read a percent sign and a scope; without one the scope is zero. -/
def readScope (cs : List Char) : UInt32 × List Char :=
  match (readChar '%' cs).bind fun (_, cs) => readNumber 10 4294967295 none true cs with
  | some (scope, cs) => (UInt32.ofNat scope, cs)
  | none => (0, cs)

/-- The bytes of groups. -/
def ofGroups (gs : List Nat) : Vector UInt8 16 :=
  Vector.ofFn fun i =>
    let g := gs.getD (i.val / 2) 0
    UInt8.ofNat (if i.val % 2 = 0 then g / 256 else g % 256)

/-- Read an IPv4 endpoint. -/
def readEndpoint4 : Reader Endpoint := fun cs => do
  let (bytes, cs) ← readV4 cs
  let (port, cs) ← readPort cs
  some (.v4 (Vector.ofFn fun i => bytes.getD i.val 0) port, cs)

/-- Read an IPv6 endpoint. -/
def readEndpoint6 : Reader Endpoint := fun cs => do
  let ((), cs) ← readChar '[' cs
  let (gs, cs) ← readV6 cs
  let (scope, cs) := readScope cs
  let ((), cs) ← readChar ']' cs
  let (port, cs) ← readPort cs
  some (.v6 (ofGroups gs) port 0 scope, cs)

/-- The endpoint that a text denotes, if it is one from its first to its last character. -/
def parse? (s : String) : Option Endpoint :=
  match readEndpoint4 s.toList <|> readEndpoint6 s.toList with
  | some (e, []) => some e
  | _ => none

/-- What is said of a text that denotes no endpoint. -/
def parseFailure : String := "invalid socket address syntax"

end Proactor.Endpoint
