import Coercion.Diagnostic.Bag
import Coercion.Graph.Basic
import Coercion.Registry
import Coercion.Table.Basic

/-!
# Declaring a table

The declarations of a table are made one after the other: types, aliases, conversions.  One that cannot be made is
passed over and leaves a problem behind.
-/

namespace Coercion

open Registry (normalize)

/-! ### Types -/

/-- The problem of a type that could not be declared. -/
def Registry.Refusal.typeProblem (i : Nat) (e : Registry.Refusal) : Diagnostic :=
  .error (if e.isDuplicate then .duplicateType else .badRule) ("types[" ++ toString i ++ "]") e.message

/-- Declares types from number `i` on. -/
def Registry.declareTypes (r : Registry) : Nat → List String → Registry × List Diagnostic
  | _, [] => (r, [])
  | i, name :: names =>
    match r.declare name with
    | .ok (_, r) => r.declareTypes (i + 1) names
    | .error e =>
      let (r, problems) := r.declareTypes (i + 1) names
      (r, e.typeProblem i :: problems)

/-! ### Aliases -/

/-- The problem of an alias. -/
def aliasProblem (name message : String) : Diagnostic := .error .badAlias ("aliases." ++ name) message

/-- Aliases under way: the names that may still become aliases, and those that have to wait for another alias. -/
structure Aliasing where
  registry : Registry
  /-- The normalized names of aliases that are not settled. -/
  unsettled : List String
  /-- Aliases to be tried again. -/
  waiting : List (String × String) := []
  problems : List Diagnostic := []

namespace Aliasing

/-- An alias is settled, bound or refused. -/
def settle (s : Aliasing) (name : String) : Aliasing :=
  { s with unsettled := s.unsettled.filter (· != normalize name) }

/-- Tries to bind an alias.  It waits if its target is unknown but may become an alias. -/
def bind (s : Aliasing) (a : String × String) : Aliasing :=
  match s.registry.addAlias a.1 a.2 with
  | .ok r => { s with registry := r }.settle a.1
  | .error e =>
    if e.isUnknown && s.unsettled.contains (normalize a.2) then { s with waiting := s.waiting ++ [a] }
    else { s with problems := s.problems ++ [aliasProblem a.1 e.message] }.settle a.1

/-- The problem of an alias that waits for ever. -/
def cycleProblem (a : String × String) : Diagnostic :=
  aliasProblem a.1 ("alias " ++ Text.quote a.1 ++ " never resolves: cycle through " ++ Text.quote a.2)

/-- Passes over the waiting aliases until all are settled, or none of them can be. -/
def run : (fuel : Nat) → List (String × String) → Aliasing → Aliasing
  | 0, _, s => s
  | _, [], s => s
  | fuel + 1, pending, s =>
    let s := pending.foldl bind { s with waiting := [] }
    if s.waiting.length = pending.length then { s with problems := s.problems ++ s.waiting.map cycleProblem }
    else run fuel s.waiting s

end Aliasing

/-- Binds aliases, which may name other aliases, in the order of their names. -/
def Registry.declareAliases (r : Registry) (aliases : List (String × String)) : Registry × List Diagnostic :=
  let sorted := aliases.mergeSort fun a b => a.1 ≤ b.1
  let s := Aliasing.run (sorted.length + 1) sorted
    { registry := r, unsettled := (sorted.map fun a => normalize a.1).eraseDups }
  (s.registry, s.problems)

/-! ### Conversions -/

/-- Declares one direction of a conversion. -/
def Graph.declare (g : Graph) (subject : String) (p : Pair) (k : Kind) : Graph × List Diagnostic :=
  match g.insert p k with
  | .error e => (g, [.error .badRule subject e.message])
  | .ok (g, true) => (g, [.warning .shadowedRule subject ("overrides an earlier rule, now " ++ k.name)])
  | .ok (g, false) => (g, [])

/-- The subject of rule number `i`. -/
def Rule.subject (i : Nat) (rule : Rule) : String :=
  "rules[" ++ toString i ++ "] " ++ rule.source ++ "->" ++ rule.target

/-- The pair of types that a rule is about, or what is wrong with its names. -/
def Registry.pairOf (r : Registry) (rule : Rule) : Except String Pair :=
  match r.lookup rule.source, r.lookup rule.target with
  | .ok a, .ok b => .ok ⟨a, b⟩
  | .error e, .ok _ => .error e.message
  | .ok _, .error e => .error e.message
  | .error e, .error e' => .error (e.message ++ "\n" ++ e'.message)

/-- Declares a conversion, and the way back if the rule has one. -/
def Registry.declareRule (r : Registry) (i : Nat) (rule : Rule) (g : Graph) : Graph × List Diagnostic :=
  let subject := rule.subject i
  match r.pairOf rule with
  | .error e => (g, [.error .unknownType subject e])
  | .ok p =>
    match Kind.parse rule.kind with
    | .error e => (g, [.error .badRule subject e.message])
    | .ok k =>
      let (g, forth) := g.declare subject p k
      if rule.reverse = "" then (g, forth)
      else
        match Kind.parse rule.reverse with
        | .error e => (g, forth ++ [.error .badRule subject ("reverse: " ++ e.message)])
        | .ok k' =>
          let (g, back) := g.declare (subject ++ " (reverse)") p.reverse k'
          (g, forth ++ back)

/-- Declares conversions from number `i` on. -/
def Registry.declareRules (r : Registry) : Nat → List Rule → Graph → Graph × List Diagnostic
  | _, [], g => (g, [])
  | i, rule :: rules, g =>
    let (g, here) := r.declareRule i rule g
    let (g, rest) := r.declareRules (i + 1) rules g
    (g, here ++ rest)

/-! ### Tables -/

/-- What the declarations of a table make. -/
structure Declared where
  registry : Registry
  graph : Graph
  /-- What could not be declared, and what was declared twice, in order. -/
  problems : List Diagnostic

/-- Makes the declarations of a table. -/
def Table.declare (t : Table) : Declared :=
  let (r, types) := Registry.empty.declareTypes 0 t.types
  let (r, aliases) := r.declareAliases t.aliases
  let (g, rules) := r.declareRules 0 t.rules .empty
  ⟨r, g, types ++ aliases ++ rules⟩

end Coercion
