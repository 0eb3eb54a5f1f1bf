import Coercion.Number.Word
import Coercion.Text.CodePoints

/-!
# Written numbers

Which decimal texts are floating-point numbers and which of them are too large for a double.
-/

namespace Coercion.Number

/-- An ASCII digit. -/
def isDigit (c : Char) : Bool := '0' ≤ c && c ≤ '9'

/-- The value of decimal digits. -/
def decimalValue (cs : List Char) : Nat :=
  cs.foldl (fun n c => 10 * n + (c.toNat - 48)) 0

/-- A decimal number: digits before and after the point, and an exponent of ten. -/
structure Decimal where
  whole : List Char
  fraction : List Char
  exponent : Int

/-- Splits off a sign. -/
def splitSign : List Char → Bool × List Char
  | '-' :: cs => (true, cs)
  | '+' :: cs => (false, cs)
  | cs => (false, cs)

/-- Reads the exponent part of a number, which may be missing; the text must end behind it. -/
def readExponent (cs : List Char) : Option Int :=
  match cs with
  | [] => some 0
  | e :: rest =>
    if e = 'e' ∨ e = 'E' then
      let (negative, digits) := splitSign rest
      if digits.isEmpty || !digits.all isDigit then none
      else
        -- beyond a few thousand the size no longer matters
        let n : Int := min (decimalValue digits) 100000
        some (if negative then -n else n)
    else none

/-- Reads an optionally signed decimal number with at least one digit, a fraction and an exponent being optional. -/
def readDecimal (cs : List Char) : Option Decimal :=
  let (_, body) := splitSign cs
  let whole := body.takeWhile isDigit
  let rest := body.dropWhile isDigit
  let (fraction, rest) := match rest with
    | '.' :: r => (r.takeWhile isDigit, r.dropWhile isDigit)
    | r => ([], r)
  if whole.isEmpty && fraction.isEmpty then none
  else (readExponent rest).map fun e => ⟨whole, fraction, e⟩

/-- Whether the magnitude of a number rounds to a finite double: it lies below the middle between the largest double
and the next power of two. -/
def Decimal.isFinite (d : Decimal) : Bool :=
  let digits := (d.whole ++ d.fraction).dropWhile (· == '0')
  let last : Int := d.exponent - d.fraction.length
  if digits.isEmpty then true
  else
    let point : Int := last + digits.length
    if point < 308 then true
    else if 310 < point then false
    else
      let n := decimalValue digits
      let limit := 18014398509481983 * power 2 970
      if 0 ≤ last then n * power 10 last.toNat < limit else n < limit * power 10 (-last).toNat

end Coercion.Number
