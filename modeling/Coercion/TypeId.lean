/-!
# Type identifiers and ordered pairs

A type is known to the conversion tables by a 32-bit identifier.  Negative identifiers stand for "no type".
Conversions are directed, so tables are keyed by ordered pairs.
-/

namespace Coercion

/-- The identifier of a type.  Its order serves listing only and carries no meaning. -/
structure TypeId where
  id : Int32
  deriving DecidableEq, Hashable, Inhabited

namespace TypeId

/-- The absence of a type. -/
def none : TypeId := ⟨-1⟩

/-- An identifier is valid when it is not negative. -/
def valid (t : TypeId) : Bool := 0 ≤ t.id

/-- Orders types by identifier. -/
def compare (a b : TypeId) : Ordering := Ord.compare a.id b.id

/-- The name of a type that nobody declared. -/
def render (t : TypeId) : String :=
  if t.valid then "T" ++ toString t.id.toInt else "<notype>"

/-- An integer outside the range of identifiers. -/
structure OutOfRange where
  value : Int
  deriving DecidableEq

/-- The wording of the range error. -/
def OutOfRange.message (e : OutOfRange) : String :=
  "type id " ++ toString e.value ++ " out of range: out of range"

/-- The identifier of an integer, if it fits 32 bits. -/
def ofInt (n : Int) : Except OutOfRange TypeId :=
  if -2147483648 ≤ n ∧ n ≤ 2147483647 then .ok ⟨Int32.ofInt n⟩ else .error ⟨n⟩

end TypeId

/-- A list of parameter or argument types. -/
abbrev Signature := List TypeId

/-- The direction of a conversion: from `source` to `target`. -/
structure Pair where
  source : TypeId
  target : TypeId
  deriving DecidableEq, Hashable, Inhabited

namespace Pair

/-- The opposite direction. -/
def reverse (p : Pair) : Pair := ⟨p.target, p.source⟩

/-- Orders pairs by source, then by target. -/
def compare (p q : Pair) : Ordering :=
  (p.source.compare q.source).then (p.target.compare q.target)

/-- The order of listings. -/
def le (p q : Pair) : Bool := (p.compare q).isLE

/-- A pair as `source->target`. -/
def render (p : Pair) : String := p.source.render ++ "->" ++ p.target.render

end Pair

end Coercion
