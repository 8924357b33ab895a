import Proactor.Text.Number
/-! # Bytes in hexadecimal

Two lower-case digits for each byte; capital digits are read as well. -/

namespace Proactor.Text

/-- The digits of a number below sixteen. -/
def hexDigit (n : Nat) : Char := (Nat.toDigits 16 n).headD '0'

/-- Bytes as text. -/
def hexBytes (bytes : List UInt8) : String :=
  String.ofList (bytes.flatMap fun b => [hexDigit (b.toNat / 16), hexDigit (b.toNat % 16)])

/-- The value of a hexadecimal digit. -/
def hexDigit? (c : Char) : Option Nat :=
  if 'a' ≤ c ∧ c ≤ 'f' then some (c.toNat - 'a'.toNat + 10)
  else if 'A' ≤ c ∧ c ≤ 'F' then some (c.toNat - 'A'.toNat + 10)
  else digit? c

/-- The bytes of pairs of digits. -/
def hexPairs? : List Char → Option (List UInt8)
  | [] => some []
  | [_] => none
  | high :: low :: rest => do
    return UInt8.ofNat (16 * (← hexDigit? high) + (← hexDigit? low)) :: (← hexPairs? rest)

/-- The bytes of a text. -/
def hexBytes? (s : String) : Option (List UInt8) := hexPairs? s.toList

end Proactor.Text
