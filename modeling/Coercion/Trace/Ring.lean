import Coercion.Trace.Event

/-!
# The event ring

A circular buffer that keeps the newest events and counts the rest.
-/

namespace Coercion.Trace

/-- A buffer whose next slot is the number of events ever stored, modulo its size. -/
structure Ring where
  slots : Array (Option Event)
  /-- The number of events ever stored, as a word. -/
  total : UInt64
  nonempty : 0 < slots.size

namespace Ring

/-- The size of a ring for a requested capacity. -/
def sizeFor (capacity : Int) : Nat := if capacity ≤ 0 then 4096 else capacity.toNat

private theorem sizeFor_pos (capacity : Int) : 0 < sizeFor capacity := by
  unfold sizeFor
  split <;> omega

/-- A ring without events. -/
def ofCapacity (capacity : Int) : Ring where
  slots := Array.replicate (sizeFor capacity) none
  total := 0
  nonempty := by simpa using sizeFor_pos capacity

instance : Inhabited Ring := ⟨ofCapacity 0⟩

/-- The slot of event number `i`. -/
def slotOf (r : Ring) (i : Nat) : Fin r.slots.size := ⟨i % r.slots.size, Nat.mod_lt i r.nonempty⟩

/-- What the slot of event number `i` holds. -/
def event? (r : Ring) (i : Nat) : Option Event := r.slots[r.slotOf i]

/-- Stores an event over the oldest one. -/
def push (r : Ring) (e : Event) : Ring where
  slots := r.slots.set (r.slotOf r.total.toNat) (some e) (r.slotOf r.total.toNat).isLt
  total := r.total + 1
  nonempty := by simpa using r.nonempty

/-- The number of events held. -/
def held (r : Ring) : Nat := min r.total.toNat r.slots.size

/-- The number of events overwritten. -/
def dropped (r : Ring) : Nat := r.total.toNat - r.held

/-- How many events a tail of length `n` has: all of them unless `n` is a number from one to those held. -/
def tailLength (r : Ring) (n : Int) : Nat := if n ≤ 0 ∨ (r.held : Int) < n then r.held else n.toNat

/-- The newest `n` events, oldest first; all of them unless `n` is a number from one to those held. -/
def tail (r : Ring) (n : Int) : List Event :=
  (List.range (r.tailLength n)).filterMap fun i => r.event? (r.total.toNat - r.tailLength n + i)

/-- All events held, oldest first. -/
def snapshot (r : Ring) : List Event := r.tail 0

/-- Changes the events held. -/
def map (r : Ring) (f : Event → Event) : Ring where
  slots := r.slots.map (·.map f)
  total := r.total
  nonempty := by simpa using r.nonempty

end Ring

end Coercion.Trace
