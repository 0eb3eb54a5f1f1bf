import Coercion.Number.Random
import Coercion.Selection

/-!
# Random questions

Questions to a manager over a pool of types: three of four ask about a pair, the others for a selection.
-/

namespace Coercion.Stress

open Number (Pcg)

/-- A question. -/
inductive Query where
  | pair (p : Pair)
  | select (args : Signature) (overloads : List Signature)
  deriving DecidableEq, Inhabited

/-- The answer to a question. -/
inductive Answer where
  | kind (k : Kind)
  | selection (s : Selection)
  deriving DecidableEq, Inhabited

/-- An answer in words. -/
def Answer.render : Answer → String
  | .kind k => k.name
  | .selection s =>
    "best=" ++ toString s.best ++ " count=" ++ toString s.count ++ " rating=" ++ s.rating.render

/-- Asks a manager. -/
def Query.ask (m : Manager) (allowLossy : Bool) : Query → Except Fault Answer
  | .pair p => (m.compatible p).map .kind
  | .select args overloads => (m.select args overloads allowLossy).map .selection

/-- Draws a type of a pool. -/
def drawType (pool : Array TypeId) (g : Pcg) : TypeId × Pcg :=
  let (i, g) := g.below pool.size
  (pool.getD i .none, g)

/-- Draws `n` things one after the other, behind those drawn before, the last of them first. -/
def drawOnto {α : Type} (one : Pcg → α × Pcg) : Nat → List α → Pcg → List α × Pcg
  | 0, drawn, g => (drawn.reverse, g)
  | n + 1, drawn, g =>
    let (a, g) := one g
    drawOnto one n (a :: drawn) g

/-- Draws `n` things one after the other. -/
def drawMany {α : Type} (one : Pcg → α × Pcg) (n : Nat) (g : Pcg) : List α × Pcg := drawOnto one n [] g

/-- Draws a question. -/
def drawQuery (pool : Array TypeId) (arity overloads : Nat) (g : Pcg) : Query × Pcg :=
  let (die, g) := g.below 4
  if die ≠ 0 then
    let (a, g) := drawType pool g
    let (b, g) := drawType pool g
    (.pair ⟨a, b⟩, g)
  else
    let (args, g) := drawMany (drawType pool) arity g
    let (ovs, g) := drawMany (drawMany (drawType pool) arity) overloads g
    (.select args ovs, g)

/-- The questions of a seed. -/
def queries (seed : UInt64) (pool : List TypeId) (n arity overloads : Nat) : List Query :=
  (drawMany (drawQuery pool.toArray arity overloads) n (.ofSeeds seed (seed ^^^ 0x9e3779b97f4a7c15))).1

/-- The order in which a worker asks `n` questions. -/
def workerOrder (seed : UInt64) (worker n : Nat) : List Nat :=
  (Pcg.ofSeeds seed (UInt64.ofNat worker + 1)).permutation n

end Coercion.Stress
