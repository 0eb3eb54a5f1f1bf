import Coercion.Number.Word

/-!
# Random numbers

A permuted congruential generator: a linear recurrence on 128 bits whose upper half is mixed with two
multiplications and two shifts.  Everything drawn from it is fixed by its two seeds.
-/

namespace Coercion.Number

/-- The state of a generator. -/
structure Pcg where
  state : BitVec 128
  deriving DecidableEq

namespace Pcg

/-- The generator with two seeds. -/
def ofSeeds (hi lo : UInt64) : Pcg := ⟨hi.toBitVec ++ lo.toBitVec⟩

/-- The multiplier of the recurrence. -/
def multiplier : BitVec 128 := 47026247687942121848144207491837523525#128

/-- The increment of the recurrence. -/
def increment : BitVec 128 := 117397592171526113268558934119004209487#128

/-- The next state. -/
def next (g : Pcg) : Pcg := ⟨g.state * multiplier + increment⟩

/-- The number that a state shows. -/
def output (g : Pcg) : UInt64 :=
  let hi : UInt64 := ⟨g.state.extractLsb' 64 64⟩
  let lo : UInt64 := ⟨g.state.extractLsb' 0 64⟩
  let hi := (hi ^^^ (hi >>> 32)) * 0xda942042e4dd58b5
  (hi ^^^ (hi >>> 48)) * (lo ||| 1)

/-- Draws a 64-bit number. -/
def draw (g : Pcg) : Nat × Pcg :=
  let g := g.next
  (g.output.toNat, g)

/-- Scales drawn numbers down to a range; a number whose remainder is below the limit is drawn again, so that no
number of the range is favoured. -/
def drawScaled (n limit : Nat) : (fuel : Nat) → Pcg → Nat × Pcg
  | 0, g =>
    let (x, g) := g.draw
    (x * n / wordCount, g)
  | fuel + 1, g =>
    let (x, g) := g.draw
    if x * n % wordCount < limit then drawScaled n limit fuel g else (x * n / wordCount, g)

/-- Draws a number below `n`.  A hundred drawings in vain are out of the question, and then the next one counts. -/
def below (g : Pcg) (n : Nat) : Nat × Pcg :=
  if n = power 2 (Nat.log2 n) then
    let (x, g) := g.draw
    (x % n, g)
  else drawScaled n (wordCount % n) 100 g

/-- Draws an order of the numbers below `n`: from the last place down, each place is swapped with one not behind it. -/
def shuffle (g : Pcg) (order : Array Nat) : Nat → Array Nat
  | 0 => order
  | i + 1 =>
    let (j, g) := g.below (i + 2)
    shuffle g (order.swapIfInBounds (i + 1) j) i

/-- Draws an order of the numbers below `n`. -/
def permutation (g : Pcg) (n : Nat) : List Nat := (shuffle g (Array.range n) (n - 1)).toList

end Pcg

end Coercion.Number
