/-!
# Blank characters

The characters that trimming removes: the Unicode property `White_Space`.  Zero-width characters and the byte order
mark are not blank.
-/

namespace Coercion.Text

/-- The Unicode property `White_Space`. -/
def isBlank (c : Char) : Bool :=
  let n := c.toNat
  n == 0x20 || (0x09 ≤ n && n ≤ 0x0d) || n == 0x85 || n == 0xa0 || n == 0x1680 || (0x2000 ≤ n && n ≤ 0x200a) ||
    n == 0x2028 || n == 0x2029 || n == 0x202f || n == 0x205f || n == 0x3000

/-- Removes the blanks at the start. -/
def trimLeft (cs : List Char) : List Char :=
  cs.dropWhile isBlank

/-- Removes the blanks at both ends. -/
def trimChars (cs : List Char) : List Char :=
  (trimLeft (trimLeft cs).reverse).reverse

/-- Removes the blanks at both ends of a text. -/
def trim (s : String) : String :=
  String.ofList (trimChars s.toList)

end Coercion.Text
