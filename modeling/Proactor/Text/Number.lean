/-! # Reading decimal numbers

A number is one or more ASCII digits after an optional sign; leading zeros are fine, and a number
outside the range of its type is refused.  An unsigned type has no minus sign. -/

namespace Proactor.Text

/-- The value of an ASCII digit. -/
def digit? (c : Char) : Option Nat :=
  if '0' ≤ c ∧ c ≤ '9' then some (c.toNat - '0'.toNat) else none

/-- The value of a text that holds digits only, at least one. -/
def digits? : List Char → Option Nat
  | [] => none
  | cs => cs.foldlM (fun n c => (digit? c).map (10 * n + ·)) 0

/-- An unsigned number up to `max`. -/
def natural? (max : Nat) (s : String) : Option Nat :=
  let cs := match s.toList with
    | '+' :: rest => rest
    | cs => cs
  (digits? cs).filter (· ≤ max)

/-- A signed number from `-(max + 1)` to `max`. -/
def integer? (max : Nat) (s : String) : Option Int :=
  let n : Option Int := match s.toList with
    | '+' :: rest => (digits? rest).map Int.ofNat
    | '-' :: rest => (digits? rest).map fun n => -(n : Int)
    | cs => (digits? cs).map Int.ofNat
  n.filter fun n => -(max : Int) - 1 ≤ n ∧ n ≤ max

/-- The two truth values by their English words. -/
def truth? : String → Option Bool
  | "true" => some true
  | "false" => some false
  | _ => none

end Proactor.Text
