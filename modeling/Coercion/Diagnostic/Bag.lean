import Coercion.Diagnostic.Basic

/-!
# Bags of diagnostics

A bag collects diagnostics up to a capacity.  Adding to a full bag changes nothing; merging keeps everything and
raises the capacity where it can.
-/

namespace Coercion

/-- Diagnostics in the order of their arrival, up to a capacity. -/
structure Bag where
  items : Array Diagnostic
  capacity : UInt16
  deriving DecidableEq, Inhabited

namespace Bag

/-- A length as a capacity, if it is one. -/
def capacity? (n : Int) : Option UInt16 :=
  if 0 ≤ n ∧ n < 65536 then some (UInt16.ofNat n.toNat) else none

/-- An empty bag; a number that is no capacity gives the largest one. -/
def ofCapacity (n : Int) : Bag := ⟨#[], (capacity? n).getD 65535⟩

/-- The number of diagnostics. -/
def size (b : Bag) : Nat := b.items.size

/-- Whether another diagnostic fits. -/
def hasRoom (b : Bag) : Bool := b.size < b.capacity.toNat

/-- Adds a diagnostic if it fits. -/
def add (b : Bag) (d : Diagnostic) : Bag :=
  if b.hasRoom then { b with items := b.items.push d } else b

/-- Adds a diagnostic if it fits; also tells whether it did. -/
def offer (b : Bag) (d : Diagnostic) : Bag × Bool :=
  let room := b.hasRoom
  (b.add d, room)

/-- Whether some diagnostic is an error. -/
def hasErrors (b : Bag) : Bool := b.items.any (·.severity.isError)

/-- The number of diagnostics that are at least as serious as `floor`. -/
def count (b : Bag) (floor : Severity) : Nat :=
  b.items.countP fun d => floor.rank ≤ d.severity.rank

/-- Whether some diagnostic has a code. -/
def hasCode (b : Bag) (c : DiagCode) : Bool := b.items.any (·.code == c)

/-- Appends the diagnostics of another bag; the capacity grows to the new size if that is a capacity. -/
def merge (b other : Bag) : Bag :=
  let items := b.items ++ other.items
  let grown := if b.capacity.toNat < items.size then (capacity? items.size).getD b.capacity else b.capacity
  ⟨items, grown⟩

/-- Orders the diagnostics; those that compare alike keep their order. -/
def sort (b : Bag) : Bag := { b with items := (b.items.toList.mergeSort Diagnostic.le).toArray }

/-- All errors in one text, if there are any. -/
def errorText? (b : Bag) : Option String :=
  let errors := (b.items.toList.filter (·.severity.isError)).map Diagnostic.render
  if errors.isEmpty then none
  else some (toString errors.length ++ " error(s):\n" ++ "\n".intercalate errors)

end Bag

end Coercion
