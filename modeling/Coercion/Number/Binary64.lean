import Coercion.Number.Word

/-!
# Exact double-precision quotients

Averages and rates are quotients rounded to double precision.  A `Binary64` is such a number: not negative, its
mantissa of 53 bits.  All arithmetic is exact arithmetic on natural numbers followed by one rounding to nearest, ties
to even.  The quotients of counts and durations stay far inside the range of exponents, which is therefore not
bounded here.
-/

namespace Coercion

/-- The quotient of two natural numbers rounded to the nearest integer, a tie to the even one. -/
def roundDiv (n d : Nat) : Nat :=
  let q := n / d
  let r := n % d
  if 2 * r < d then q else if d < 2 * r then q + 1 else if q % 2 = 0 then q else q + 1

/-- The number `mantissa * 2 ^ exponent`; the mantissa is zero or has exactly 53 bits. -/
structure Binary64 where
  mantissa : Nat
  exponent : Int
  deriving DecidableEq, Inhabited

namespace Binary64

/-- The least mantissa, `2 ^ 52`. -/
def leastMantissa : Nat := 4503599627370496

/-- Zero. -/
def zero : Binary64 := ⟨0, 0⟩

/-- Multiplies a ratio by a power of two. -/
def scaleRatio (num den : Nat) (shift : Int) : Nat × Nat :=
  if 0 ≤ shift then (num * Number.power 2 shift.toNat, den) else (num, den * Number.power 2 (-shift).toNat)

/-- The power of two that brings a positive ratio into the range of 53-bit integers. -/
def mantissaShift (num den : Nat) : Int :=
  let shift : Int := 52 - (Nat.log2 num : Int) + Nat.log2 den
  let (n, d) := scaleRatio num den shift
  if n < d * leastMantissa then shift + 1 else shift

/-- The double nearest to a ratio. -/
def ofRatio (num den : Nat) : Binary64 :=
  if num = 0 then zero
  else
    let shift := mantissaShift num den
    let (n, d) := scaleRatio num den shift
    let m := roundDiv n d
    if m = 2 * leastMantissa then ⟨leastMantissa, 1 - shift⟩ else ⟨m, -shift⟩

/-- The double nearest to a natural number. -/
def ofNat (n : Nat) : Binary64 := ofRatio n 1

/-- The value as a ratio of natural numbers. -/
def ratio (x : Binary64) : Nat × Nat := scaleRatio x.mantissa 1 x.exponent

/-- The rounded sum. -/
def add (x y : Binary64) : Binary64 :=
  let (a, b) := x.ratio
  let (c, d) := y.ratio
  ofRatio (a * d + c * b) (b * d)

/-- The rounded quotient by a positive number. -/
def div (x y : Binary64) : Binary64 :=
  let (a, b) := x.ratio
  let (c, d) := y.ratio
  ofRatio (a * d) (b * c)

/-- The 64 bits of the interchange format. -/
def bits (x : Binary64) : Nat :=
  if x.mantissa = 0 then 0 else (x.exponent + 1075).toNat * leastMantissa + (x.mantissa - leastMantissa)

end Binary64

end Coercion
