import Proactor.Kernel.Record
import Proactor.Text.Blank
import Proactor.Text.Hexadecimal
/-! # A kernel at the other end of a line

A process that cannot make system calls itself can have an agent make them.  Both write lines of
words that are separated by blanks.

* **Requests** (`Wire.request`).  The name of a call, then its arguments as `name=value`.
* **Messages** (`Wire.read`).  What came of a call, as `err=`, `ret=`, `data=`, `addr=`, `len=`,
  `flags=` and any number of `event=token:bits`; or the word `signal`, when the process is told to
  stop.  Words without a meaning are skipped. -/

namespace Proactor

/-- A value as a word. -/
def Argument.text : Argument → String
  | number n => toString n
  | token t => toString t
  | numbers ns => ",".intercalate (ns.map fun n => toString n)
  | bytes b => Text.hexBytes b
  | word w => w
  | absent => "-"

namespace Wire

/-- A call as a line. -/
def request (c : SystemCall) : String :=
  let payload := if c.payload.isEmpty then [] else [("data", Argument.bytes c.payload)]
  " ".intercalate (c.name :: (c.arguments ++ payload).map fun (k, v) => k ++ "=" ++ v.text)

/-- What the agent says. -/
inductive Message where
  | response (r : Response)
  | signal
deriving Repr, Inhabited

/-- A number that the kernel reports. -/
def number? (s : String) : Option Int := Text.integer? 9223372036854775807 s

/-- An event as its token and its bits. -/
def event? (s : String) : Option Event :=
  match s.splitOn ":" with
  | [token, bits] => do
    let token ← Text.natural? 18446744073709551615 token
    let bits ← Text.natural? 4294967295 bits
    return ⟨UInt64.ofNat token, UInt32.ofNat bits⟩
  | _ => none

/-- A response with one more word. -/
def withWord (r : Response) (word : String) : Response :=
  match word.splitOn "=" with
  | ["err", v] => { r with error := number? v }
  | ["ret", v] => { r with returned := number? v }
  | ["data", v] => { r with bytes := (Text.hexBytes? v).getD [] }
  | ["addr", v] =>
    let bytes := (Text.hexBytes? v).getD []
    { r with address := ⟨bytes, bytes.length⟩ }
  | ["len", v] => { r with address.length := (Text.natural? 4294967295 v).getD 0 }
  | ["flags", v] => { r with flags := Int32.ofInt ((number? v).getD 0) }
  | ["event", v] => { r with events := r.events ++ (event? v).toList }
  | _ => r

/-- The message of a line. -/
def read (line : String) : Message :=
  let words := (Text.trim line).splitOn " "
  if words == ["signal"] then .signal else .response (words.foldl withWord {})

end Wire
end Proactor
