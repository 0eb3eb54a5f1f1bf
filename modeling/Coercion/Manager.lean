import Coercion.CompatTable

/-!
# The compatibility manager

A manager holds the compatibility table of a universe.  It is filled first and then frozen; a question about an
invalid type, or a registration after freezing, breaks the contract of its callers and is a `Fault`.
-/

namespace Coercion

/-- A broken contract between the engine and its caller. -/
inductive Fault where
  /-- An operation met an invalid type. -/
  | invalidType (t : TypeId)
  /-- A registration after freezing. -/
  | frozen
  /-- Candidate `overload` has another number of parameters than the call. -/
  | arity (overload parameters arguments : Nat)
  /-- A flat list of candidates does not hold `count` times `arity` types. -/
  | flatSize (types : Nat) (count : Int) (arity : Nat)
  /-- A position outside a list. -/
  | outOfBounds
  deriving DecidableEq

/-- The wording of a broken contract; a position outside a list has none. -/
def Fault.message? : Fault → Option String
  | .invalidType t => some ("typeconv: invalid type " ++ t.render)
  | .frozen => some "typeconv: registration after Freeze"
  | .arity k n a =>
    some ("typeconv: overload " ++ toString k ++ " has " ++ toString n ++ " parameters, call has " ++ toString a)
  | .flatSize n c a =>
    some ("typeconv: flat overload table has " ++ toString n ++ " types, want " ++ toString c ++ "*" ++ toString a)
  | .outOfBounds => none

/-- A compatibility table that can be frozen. -/
structure Manager where
  table : CompatTable := .empty
  frozen : Bool := false
  deriving Inhabited

namespace Manager

/-- Requires valid types, the source first. -/
def requireValid (p : Pair) : Except Fault Unit :=
  if !p.source.valid then .error (.invalidType p.source)
  else if !p.target.valid then .error (.invalidType p.target)
  else .ok ()

/-- Ends the registration phase. -/
def freeze (m : Manager) : Manager := { m with frozen := true }

/-- Registers a kind for a pair; the last registration wins. -/
def add (m : Manager) (p : Pair) (k : Kind) : Except Fault Manager := do
  requireValid p
  if m.frozen then .error .frozen else .ok { m with table := m.table.insert p k }

/-- Registers records in order, up to the first fault. -/
def addAll (m : Manager) (rs : List Record) : Except Fault Manager :=
  rs.foldlM (fun m r => m.add r.pair r.kind) m

/-- How the source of a pair may stand in for its target: exactly, when they are the same type. -/
def compatible (m : Manager) (p : Pair) : Except Fault Kind := do
  requireValid p
  return if p.source = p.target then .exact else m.table.find p

end Manager

end Coercion
