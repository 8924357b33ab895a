/-! # Durations

A duration counts nanoseconds.  `Duration.text` shows it in the largest unit in which it has a
whole part, with the fraction cut after its last digit that is not zero. -/

namespace Proactor

/-- A length of time. -/
structure Duration where
  nanoseconds : Nat
deriving DecidableEq, Repr, Inhabited

namespace Duration

def ofMilliseconds (n : Nat) : Duration := ⟨n * 1000000⟩

/-- Whole milliseconds; what remains is dropped. -/
def milliseconds (d : Duration) : Nat := d.nanoseconds / 1000000

def isZero (d : Duration) : Bool := d.nanoseconds == 0

/-- The digits after the point of a number of `n` units of the last of `places` places, without
zeros at the end. -/
def fraction (n places : Nat) : String :=
  let digits := Nat.toDigits 10 n
  let padded := List.replicate (places - digits.length) '0' ++ digits
  let kept := (padded.reverse.dropWhile (· == '0')).reverse
  if kept.isEmpty then "" else "." ++ String.ofList kept

/-- `n` nanoseconds in a unit of `size` nanoseconds, a one followed by `places` zeros. -/
def inUnit (n size places : Nat) (unit : String) : String :=
  toString (n / size) ++ fraction (n % size) places ++ unit

/-- The duration in the largest unit in which it has a whole part. -/
def text (d : Duration) : String :=
  let n := d.nanoseconds
  if 1000000000 ≤ n then inUnit n 1000000000 9 "s"
  else if 1000000 ≤ n then inUnit n 1000000 6 "ms"
  else if 1000 ≤ n then inUnit n 1000 3 "µs"
  else toString n ++ "ns"

end Duration
end Proactor
