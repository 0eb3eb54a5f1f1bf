import Coercion.Manager
import Std.Data.HashMap
import Std.Data.TreeSet

/-!
# The conversion graph

Declared and derived conversions between types.  A relation remembers whether it was declared or derived, and, when a
better path was found for a declared one, what was declared.
-/

namespace Coercion

/-- What the graph knows about a pair. -/
structure Relation where
  kind : Kind
  derived : Bool := false
  /-- The declared kind, once a better path has replaced it. -/
  declared : Option Kind := none
  deriving DecidableEq, Inhabited

/-- A pair with its relation. -/
structure Edge where
  pair : Pair
  relation : Relation
  deriving DecidableEq, Inhabited

/-- The registrations of an edge: what was declared stays under the better kind. -/
def Edge.records (e : Edge) : List Record :=
  (match e.relation.declared with
    | some k => [⟨e.pair, k⟩]
    | none => []) ++ [⟨e.pair, e.relation.kind⟩]

/-- The types in order of appearance and the relations between them. -/
structure Graph where
  nodes : List TypeId := []
  /-- The types that are listed already. -/
  seen : Std.TreeSet TypeId TypeId.compare := ∅
  relations : Std.HashMap Pair Relation := ∅
  deriving Inhabited

namespace Graph

/-- The graph without types. -/
def empty : Graph := {}

/-- Why a declaration is refused. -/
inductive Refusal where
  | notAConversion (kind : Kind)
  | invalidType (pair : Pair)
  | selfConversion (type : TypeId)
  deriving DecidableEq

/-- The wording of a refusal. -/
def Refusal.message : Refusal → String
  | .notAConversion k => "castgraph: " ++ k.name ++ " is not a conversion kind"
  | .invalidType p => "castgraph: invalid type in " ++ p.render
  | .selfConversion t => "castgraph: self conversion " ++ t.render

/-- Why a declaration cannot be made, if it cannot. -/
def refusal? (p : Pair) (k : Kind) : Option Refusal :=
  if !k.isConversion then some (.notAConversion k)
  else if !p.source.valid || !p.target.valid then some (.invalidType p)
  else if p.source = p.target then some (.selfConversion p.source)
  else none

/-- Lists a type unless it was seen before. -/
def addNode (g : Graph) (t : TypeId) : Graph :=
  if g.seen.contains t then g else { g with nodes := g.nodes ++ [t], seen := g.seen.insert t }

/-- The relation of a pair. -/
def lookup? (g : Graph) (p : Pair) : Option Relation := g.relations[p]?

/-- Whether a pair is declared. -/
def isDeclared (g : Graph) (p : Pair) : Bool :=
  match g.lookup? p with
  | some r => !r.derived
  | none => false

/-- Declares a conversion; a later declaration of the same pair replaces the earlier one.  Also tells whether it
did. -/
def insert (g : Graph) (p : Pair) (k : Kind) : Except Refusal (Graph × Bool) :=
  match refusal? p k with
  | some e => .error e
  | none =>
    let listed := (g.addNode p.source).addNode p.target
    .ok ({ listed with relations := g.relations.insert p { kind := k } }, g.isDeclared p)

/-- The types in order. -/
def sortedNodes (g : Graph) : List TypeId :=
  g.nodes.mergeSort fun a b => (a.compare b).isLE

/-- The relations, sorted by pair. -/
def edges (g : Graph) : List Edge :=
  let nodes := g.sortedNodes
  nodes.flatMap fun i => nodes.filterMap fun j => (g.lookup? ⟨i, j⟩).map (⟨⟨i, j⟩, ·⟩)

/-- Registers every relation, in the order of the pairs; also tells how many there are. -/
def apply (g : Graph) (m : Manager) : Except Fault (Manager × Nat) :=
  let edges := g.edges
  (m.addAll (edges.flatMap Edge.records)).map (·, edges.length)

end Graph

end Coercion
