/-!
# Blank characters

Names, access codes, versions and stored expressions are trimmed of every character with the
Unicode property `White_Space`. Between the tokens of an expression only space, tab, carriage
return and line feed may stand.
-/

namespace RegisterBank.Text

/-- The characters with the Unicode property `White_Space`. -/
def isBlank (c : Char) : Bool :=
  let n := c.toNat
  (0x09 ≤ n && n ≤ 0x0D) || n == 0x20 || n == 0x85 || n == 0xA0 || n == 0x1680 ||
    (0x2000 ≤ n && n ≤ 0x200A) || n == 0x2028 || n == 0x2029 || n == 0x202F || n == 0x205F ||
    n == 0x3000

/-- Space, tab, carriage return and line feed. -/
def isGap (c : Char) : Bool :=
  c == ' ' || c == '\t' || c == '\r' || c == '\n'

/-- The characters without the blanks at both ends. -/
def trimChars (cs : List Char) : List Char :=
  ((cs.dropWhile isBlank).reverse.dropWhile isBlank).reverse

/-- The text without the blanks at both ends. -/
def trim (s : String) : String :=
  String.ofList (trimChars s.toList)

end RegisterBank.Text
