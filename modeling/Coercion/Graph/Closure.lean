import Coercion.Graph.Basic
import Coercion.Trace.Journal

/-!
# Closing a graph under composition

Two conversions in a row are one conversion, of the worse of the two kinds, and between two types the best path wins.
The closure goes over the intermediate types in order; for each it relaxes every pair that a relation into it and a
relation out of it join.  Every change of a relation is logged, and the trace of a run is made from the log.
-/

namespace Coercion.Graph

/-- A change of a relation: a first relation for a pair, or a better kind for one. -/
structure Write where
  pair : Pair
  kind : Kind
  fresh : Bool
  deriving DecidableEq, Inhabited

/-- Relations under way and the writes so far, the latest first. -/
structure Closing where
  relations : Std.HashMap Pair Relation
  log : List Write

/-- A relation after a better path was found. -/
def improve (r : Relation) (k : Kind) : Relation :=
  { r with kind := k, declared := if !r.derived && r.declared.isNone then some r.kind else r.declared }

/-- Offers a pair a path of kind `k`. -/
def relax (s : Closing) (p : Pair) (k : Kind) : Closing :=
  match s.relations[p]? with
  | none => ⟨s.relations.insert p { kind := k, derived := true }, ⟨p, k, true⟩ :: s.log⟩
  | some r =>
    if k.code < r.kind.code then ⟨s.relations.insert p (improve r k), ⟨p, k, false⟩ :: s.log⟩ else s

/-- Offers the pairs from `i` a path through `k`, given the kind of the step from `i` to `k`. -/
def relaxFrom (nodes : List TypeId) (k i : TypeId) (first : Kind) (s : Closing) : Closing :=
  nodes.foldl
    (fun s j =>
      if j = i ∨ j = k then s
      else
        match s.relations[(⟨k, j⟩ : Pair)]? with
        | none => s
        | some second => relax s ⟨i, j⟩ (first.compose second.kind))
    s

/-- Offers every pair a path through `k`. -/
def relaxThrough (nodes : List TypeId) (k : TypeId) (s : Closing) : Closing :=
  nodes.foldl
    (fun s i =>
      if i = k then s
      else
        match s.relations[(⟨i, k⟩ : Pair)]? with
        | none => s
        | some first => relaxFrom nodes k i first.kind s)
    s

/-- What a closure did. -/
structure Stats where
  nodes : Nat := 0
  declared : Nat := 0
  derived : Nat := 0
  improved : Nat := 0
  deriving DecidableEq, Inhabited

/-- Closes a graph; also gives its writes in order. -/
def close (g : Graph) : Graph × List Write :=
  let nodes := g.sortedNodes
  let s := nodes.foldl (fun s k => relaxThrough nodes k s) ⟨g.relations, []⟩
  ({ g with relations := s.relations }, s.log.reverse)

/-- The statistics of closing a graph with given writes. -/
def closeStats (g : Graph) (writes : List Write) : Stats :=
  { nodes := g.nodes.length
    declared := g.edges.countP (!·.relation.derived)
    derived := writes.countP (·.fresh)
    improved := writes.countP (!·.fresh) }

/-- Closes a graph and tells what was done. -/
def propagate (g : Graph) : Graph × Stats :=
  let (closed, writes) := g.close
  (closed, g.closeStats writes)

/-- Records a write as a point under a span. -/
def Write.trace (parent : UInt64) (j : Trace.Journal) (w : Write) : Trace.Journal :=
  j.point .rule (if w.fresh then "derive" else "improve") (w.pair.render ++ " " ++ w.kind.name) parent

/-- Closes a graph inside a span of the trace. -/
def propagateTraced (g : Graph) (j : Trace.Journal) (current : UInt64) : Graph × Stats × Trace.Journal :=
  let (span, j) := j.beginSpan .pass "propagate" current
  let (closed, writes) := g.close
  let stats := g.closeStats writes
  let j := writes.foldl (Write.trace span.id) j
  let span := Trace.Journal.note span "nodes" (toString stats.nodes)
  let span := Trace.Journal.note span "derived" (toString stats.derived)
  let span := Trace.Journal.note span "improved" (toString stats.improved)
  (closed, stats, j.endSpan span "")

end Coercion.Graph
