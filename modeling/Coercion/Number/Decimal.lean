import Coercion.Number.Binary64
import Coercion.Number.Word
import Coercion.Text.Quoted

/-!
# Decimal texts of doubles

Two ways to write a double: with a fixed number of places, and with the fewest digits that read back as the same
double.
-/

namespace Coercion.Binary64

/-- Writes with `places` digits after the point, rounding the exact value to nearest, ties to even. -/
def fixed (x : Binary64) (places : Nat) : String :=
  let (n, d) := x.ratio
  let ds := Text.decimalPadded (places + 1) (roundDiv (n * Number.power 10 places) d)
  let whole := ds.take (ds.length - places)
  String.ofList (if places = 0 then whole else whole ++ '.' :: ds.drop (ds.length - places))

/-- The open or closed interval of the reals that round to a double, as numerators over a common denominator. -/
structure Neighbourhood where
  low : Nat
  value : Nat
  high : Nat
  den : Nat
  closed : Bool

/-- The interval of a positive double; below a power of two the next double is half as far away. -/
def neighbourhood (x : Binary64) : Neighbourhood :=
  let (n, d) := scaleRatio 1 4 x.exponent
  let m := x.mantissa
  { low := (if m = leastMantissa then 4 * m - 1 else 4 * m - 2) * n
    value := 4 * m * n
    high := (4 * m + 2) * n
    den := d
    closed := m % 2 == 0 }

/-- Whether `digits * 10 ^ e` reads back as the double. -/
def Neighbourhood.contains (b : Neighbourhood) (digits : Nat) (e : Int) : Bool :=
  let x := if 0 ≤ e then digits * Number.power 10 e.toNat * b.den else digits * b.den
  let s := if 0 ≤ e then 1 else Number.power 10 (-e).toNat
  if b.closed then b.low * s ≤ x && x ≤ b.high * s else b.low * s < x && x < b.high * s

/-- The neighbour of the value on the grid of multiples of `10 ^ e` that reads back, the nearer one if both do. -/
def Neighbourhood.onGrid? (b : Neighbourhood) (e : Int) : Option Nat :=
  let n := if 0 ≤ e then b.value else b.value * Number.power 10 (-e).toNat
  let d := if 0 ≤ e then b.den * Number.power 10 e.toNat else b.den
  let near := roundDiv n d
  let far := if near * d ≤ n then near + 1 else near - 1
  if b.contains near e then some near else if b.contains far e then some far else none

/-- The number of decimal digits before the point of a positive ratio, negative for leading zeros after it. -/
def pointPosition (num den : Nat) : Int :=
  if den ≤ num then (Nat.toDigits 10 (num / den)).length
  else 1 - ((Nat.toDigits 10 ((den - 1) / num)).length : Int)

/-- The fewest digits of a positive double that read back, trying grids from coarse to fine: the number and the
exponent of its last digit. -/
def shortestFrom (b : Neighbourhood) (point : Int) : (fuel count : Nat) → Nat × Int
  | 0, _ => (0, 0)
  | fuel + 1, count =>
    let e := point - count
    match b.onGrid? e with
    | some n => (n, e)
    | none => shortestFrom b point fuel (count + 1)

/-- The fewest digits that read back: digits and the position of the point among them. -/
def shortest (x : Binary64) : List Char × Int :=
  if x.mantissa = 0 then (['0'], 1)
  else
    let b := x.neighbourhood
    let (n, e) := shortestFrom b (pointPosition b.value b.den) 18 1
    let ds := Nat.toDigits 10 n
    let kept := (ds.reverse.dropWhile (· == '0')).reverse
    (kept, ds.length + e)

/-- Writes digits positionally, with the point at a given position. -/
def positional (ds : List Char) (point : Int) : List Char :=
  if point ≤ 0 then ['0', '.'] ++ List.replicate (-point).toNat '0' ++ ds
  else
    let p := point.toNat
    if ds.length ≤ p then Text.padRight p '0' ds else ds.take p ++ '.' :: ds.drop p

/-- Writes digits with an exponent of at least two digits and a sign. -/
def scientific (ds : List Char) (point : Int) : List Char :=
  let e := point - 1
  let tail := match ds with
    | [] => ['0']
    | [d] => [d]
    | d :: rest => d :: '.' :: rest
  tail ++ 'e' :: (if e < 0 then '-' else '+') :: Nat.toDigits 10 e.natAbs

/-- The shortest text that reads back, positional from `1e-6` up to `1e21`. -/
def shortestText (x : Binary64) : String :=
  let (ds, point) := x.shortest
  String.ofList (if -5 ≤ point ∧ point ≤ 21 then positional ds point else scientific ds point)

end Coercion.Binary64
