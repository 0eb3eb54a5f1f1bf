/-!
# Words of 64 bits

The bounds of the integers that fit into 64 bits, and powers of natural numbers.
-/

namespace Coercion.Number

/-- The number of words, which is the first natural number that does not fit. -/
abbrev wordCount : Nat := 18446744073709551616

/-- Half of it: the first natural number that does not fit with a sign. -/
abbrev signedLimit : Nat := 9223372036854775808

/-- The power `base ^ n`. -/
abbrev power (base n : Nat) : Nat := Nat.pow base n

end Coercion.Number
