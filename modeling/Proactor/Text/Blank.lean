/-! # Blank characters and case

* **Blanks** (`isBlank`).  The 25 characters with the Unicode property White_Space.
* **Trimming** (`trim`).  Drops blanks at both ends of a text.
* **Case** (`folded`).  The lower-case form of the ASCII letters.  A word without the letter `k`
  has no other capital form in Unicode, so for such words this decides equality up to case. -/

namespace Proactor.Text

/-- The characters with the Unicode property White_Space. -/
def isBlank (c : Char) : Bool :=
  let n := c.toNat
  (9 ≤ n && n ≤ 13) || n == 0x20 || n == 0x85 || n == 0xA0 || n == 0x1680 ||
    (0x2000 ≤ n && n ≤ 0x200A) || n == 0x2028 || n == 0x2029 || n == 0x202F || n == 0x205F ||
    n == 0x3000

/-- A text without the blanks at its ends. -/
def trim (s : String) : String :=
  String.ofList ((s.toList.dropWhile isBlank).reverse.dropWhile isBlank).reverse

/-- A text in lower case. -/
def folded (s : String) : String := String.ofList (s.toList.map Char.toLower)

end Proactor.Text
