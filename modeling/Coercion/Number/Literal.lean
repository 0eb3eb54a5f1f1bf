import Coercion.Number.Range
import Coercion.Number.Word
import Coercion.Text.CodePoints

/-!
# Integer literals

Integers as programmers write them: decimal, or with a leading `0b`, `0`, `0o` or `0x` for another base, with
underscores between digits, and of at most 64 bits.
-/

namespace Coercion.Number

/-- Why a text is no integer. -/
inductive BadLiteral where
  | shape
  | range
  deriving DecidableEq

/-- The wording of the reason. -/
def BadLiteral.message : BadLiteral → String
  | shape => "invalid syntax"
  | range => "value out of range"

/-- A character in lower case, for the letters of ASCII. -/
def lowerLetter (c : Char) : Char := if 'A' ≤ c ∧ c ≤ 'Z' then Char.ofNat (c.toNat + 32) else c

/-- The value of a character as a digit, up to 35. -/
def digitValue? (c : Char) : Option Nat :=
  let l := lowerLetter c
  if isDigit c then some (c.toNat - 48) else if 'a' ≤ l ∧ l ≤ 'z' then some (l.toNat - 87) else none

/-- The base of a literal and the characters behind the mark of the base. -/
def splitBase : List Char → Nat × List Char
  | '0' :: m :: c :: cs =>
    match lowerLetter m with
    | 'b' => (2, c :: cs)
    | 'o' => (8, c :: cs)
    | 'x' => (16, c :: cs)
    | _ => (8, m :: c :: cs)
  | '0' :: cs => (8, cs)
  | cs => (10, cs)

/-- The value of digits with underscores, read from the left; the first obstacle counts. -/
def readDigits (base : Nat) : Nat → List Char → Except BadLiteral Nat
  | n, [] => .ok n
  | n, c :: cs =>
    if c = '_' then readDigits base n cs
    else
      match digitValue? c with
      | none => .error .shape
      | some d =>
        if base ≤ d then .error .shape
        else if wordCount ≤ n * base + d then .error .range
        else readDigits base (n * base + d) cs

/-- Whether each underscore stands between digits; `digit` tells whether one stands before the rest. -/
def underscoresBetween (isDigit : Char → Bool) : (digit : Bool) → List Char → Bool
  | _, [] => true
  | digit, '_' :: cs => digit && (cs.head?.map isDigit).getD false && underscoresBetween isDigit false cs
  | _, c :: cs => underscoresBetween isDigit (isDigit c) cs

/-- Whether the underscores of a literal are well placed; the mark of a base counts as a digit. -/
def underscoresFit (cs : List Char) : Bool :=
  let isHex (c : Char) := isDigit c || ('a' ≤ lowerLetter c && lowerLetter c ≤ 'f')
  match cs with
  | '0' :: m :: rest =>
    match lowerLetter m with
    | 'x' => underscoresBetween isHex true rest
    | 'b' | 'o' => underscoresBetween isDigit true rest
    | _ => underscoresBetween isDigit false cs
  | _ => underscoresBetween isDigit false cs

/-- Reads a natural number of 64 bits. -/
def readNatural (s : String) : Except BadLiteral Nat := do
  let cs := s.toList
  if cs.isEmpty then throw .shape
  let (base, digits) := splitBase cs
  let n ← readDigits base 0 digits
  if cs.contains '_' && !underscoresFit cs then throw .shape
  return n

/-- Reads an integer of 64 bits. -/
def readInteger (s : String) : Except BadLiteral Int := do
  let (negative, digits) := match s.toList with
    | '+' :: cs => (false, cs)
    | '-' :: cs => (true, cs)
    | cs => (false, cs)
  let n ← readNatural (String.ofList digits)
  if negative then
    if signedLimit < n then throw .range
    return -n
  else
    if signedLimit ≤ n then throw .range
    return n

end Coercion.Number
