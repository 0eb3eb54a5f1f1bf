import Coercion.Text.Printable

/-!
# Quoted texts

Messages show user text between double quotes: quotes and backslashes are escaped, printable characters stand as
they are, and everything else is written as an escape.
-/

namespace Coercion.Text

/-- The digits of `n` in base sixteen, lower case. -/
def hexDigits (n : Nat) : List Char :=
  Nat.toDigits 16 n

/-- Fills up to `width` characters with `c` on the left. -/
def padLeft (width : Nat) (c : Char) (cs : List Char) : List Char :=
  List.replicate (width - cs.length) c ++ cs

/-- Fills up to `width` characters with `c` on the right. -/
def padRight (width : Nat) (c : Char) (cs : List Char) : List Char :=
  cs ++ List.replicate (width - cs.length) c

/-- `n` in hexadecimal with at least `width` digits. -/
def hexPadded (width n : Nat) : List Char :=
  padLeft width '0' (hexDigits n)

/-- `n` in decimal with at least `width` digits. -/
def decimalPadded (width n : Nat) : List Char :=
  padLeft width '0' (Nat.toDigits 10 n)

/-- The escape of a character that is not shown as it is. -/
def escapeChar (c : Char) : List Char :=
  match c.toNat with
  | 0x07 => ['\\', 'a']
  | 0x08 => ['\\', 'b']
  | 0x0c => ['\\', 'f']
  | 0x0a => ['\\', 'n']
  | 0x0d => ['\\', 'r']
  | 0x09 => ['\\', 't']
  | 0x0b => ['\\', 'v']
  | n =>
    if n < 0x80 then '\\' :: 'x' :: hexPadded 2 n
    else if n < 0x10000 then '\\' :: 'u' :: hexPadded 4 n
    else '\\' :: 'U' :: hexPadded 8 n

/-- One character between quotes of the kind `mark`. -/
def quoteChar (mark c : Char) : List Char :=
  if c = mark ∨ c = '\\' then ['\\', c] else if isPrintable c then [c] else escapeChar c

/-- A text between double quotes. -/
def quote (s : String) : String :=
  String.ofList ('"' :: (s.toList.flatMap (quoteChar '"') ++ ['"']))

end Coercion.Text
