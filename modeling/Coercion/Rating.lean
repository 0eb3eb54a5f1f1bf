import Coercion.Kind

/-!
# Ratings

A rating counts how many arguments of a call needed each kind of conversion.  Counters are 32-bit words.  One value
is reserved: the rating of a candidate that is not admissible, which compares worse than every other.
-/

namespace Coercion

/-- How many positions needed a promotion, a safe and a lossy conversion. -/
structure Rating where
  promote : UInt32
  safe : UInt32
  lossy : UInt32
  deriving DecidableEq, Inhabited

namespace Rating

/-- The rating of a call that needs no conversion. -/
def zero : Rating := ⟨0, 0, 0⟩

/-- The rating of a rejected candidate. -/
def impossible : Rating := ⟨0xffffffff, 0xffffffff, 0xffffffff⟩

/-- Whether this is the rating of a rejected candidate. -/
def isImpossible (r : Rating) : Bool := r == impossible

/-- Whether no conversion is needed. -/
def isExact (r : Rating) : Bool := r == zero

/-- Counts one position of a kind; kinds that are no conversion leave the rating alone. -/
def count (r : Rating) : Kind → Rating
  | .promote => { r with promote := r.promote + 1 }
  | .safe => { r with safe := r.safe + 1 }
  | .lossy => { r with lossy := r.lossy + 1 }
  | _ => r

/-- The counters, worst kind first. -/
def counters (r : Rating) : List UInt32 := [r.lossy, r.safe, r.promote]

/-- Fewer lossy conversions decide, then fewer safe ones, then fewer promotions. -/
def compare (r s : Rating) : Ordering :=
  ((Ord.compare r.lossy s.lossy).then (Ord.compare r.safe s.safe)).then (Ord.compare r.promote s.promote)

/-- Strictly better. -/
def less (r s : Rating) : Bool := r.compare s == .lt

/-- The sum of two ratings, where the impossible one absorbs. -/
def add (r s : Rating) : Rating :=
  if r.isImpossible || s.isImpossible then impossible
  else ⟨r.promote + s.promote, r.safe + s.safe, r.lossy + s.lossy⟩

/-- A rating in words. -/
def render (r : Rating) : String :=
  if r.isImpossible then "impossible"
  else "unsafe=" ++ toString r.lossy ++ " safe=" ++ toString r.safe ++ " promote=" ++ toString r.promote

end Rating

end Coercion
