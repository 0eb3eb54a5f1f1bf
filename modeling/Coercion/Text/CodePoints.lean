/-!
# Sets of code points

A `CodePoints` is a union of closed ranges of code points.  The larger sets are standard data; they are written as
text, one range `lo-hi` or one point `lo` per word in hexadecimal, and read once.
-/

namespace Coercion.Text

/-- The value of a hexadecimal digit of either case. -/
def hexDigit? (c : Char) : Option Nat :=
  if '0' ≤ c ∧ c ≤ '9' then some (c.toNat - 48)
  else if 'a' ≤ c ∧ c ≤ 'f' then some (c.toNat - 87)
  else if 'A' ≤ c ∧ c ≤ 'F' then some (c.toNat - 55)
  else none

/-- The number written by hexadecimal digits; other characters count as zero digits. -/
def hexValue (cs : List Char) : Nat :=
  cs.foldl (fun n c => 16 * n + (hexDigit? c).getD 0) 0

/-- Splits at every character that satisfies `sep`; there is one part more than there are separators. -/
def splitAtChars (sep : Char → Bool) (cs : List Char) : List (List Char) :=
  cs.foldr
    (fun c parts =>
      match parts with
      | [] => [[c]]
      | part :: rest => if sep c then [] :: part :: rest else (c :: part) :: rest)
    [[]]

/-- Splits at every occurrence of `sep`. -/
def splitChars (sep : Char) : List Char → List (List Char) :=
  splitAtChars (· == sep)

/-- The words of a text of data: the nonempty parts between spaces and line ends. -/
def dataWords (s : String) : List (List Char) :=
  (splitAtChars (fun c => c == ' ' || c == '\n') s.toList).filter (!·.isEmpty)

/-- A union of closed ranges of code points. -/
structure CodePoints where
  ranges : Array (Nat × Nat)

namespace CodePoints

/-- Reads ranges written as `lo-hi` or `lo`. -/
def ofText (s : String) : CodePoints :=
  ⟨((dataWords s).map fun w =>
    match splitChars '-' w with
    | [lo, hi] => (hexValue lo, hexValue hi)
    | _ => (hexValue w, hexValue w)).toArray⟩

/-- Membership of a character in one of the ranges. -/
def contains (s : CodePoints) (c : Char) : Bool :=
  s.ranges.any fun r => r.1 ≤ c.toNat && c.toNat ≤ r.2

end CodePoints

end Coercion.Text
