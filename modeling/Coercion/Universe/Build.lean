import Coercion.Graph.Closure
import Coercion.Table.Numeric
import Coercion.Universe.Declaration

/-!
# Universes

A universe is a table ready for questions: the registry of its names and the manager of its conversions, closed under
composition.  Building one collects the problems of the table in a bag of bounded size, and fails if that bag holds an
error.
-/

namespace Coercion

/-- A table ready for questions. -/
structure Universe where
  name : String
  registry : Registry
  manager : Manager
  table : Table
  /-- What the closure did; nothing if it was left out. -/
  stats : Graph.Stats
  deriving Inhabited

namespace Universe

/-- How a universe is built. -/
structure Options where
  /-- Leaves the declared conversions as they are. -/
  noPropagate : Bool := false
  /-- Leaves the manager open. -/
  noFreeze : Bool := false
  /-- The size of the bag; 64 if it is not positive. -/
  maxDiagnostics : Int := 0

/-- The size of the bag. -/
def Options.capacity (o : Options) : Int := if o.maxDiagnostics ≤ 0 then 64 else o.maxDiagnostics

/-- Why a universe cannot be built. -/
inductive Failure where
  | noTable
  /-- The bag of the table named holds errors, here in one text. -/
  | invalid (table errors : String)
  | fault (f : Fault)

/-- The wording of a failure. -/
def Failure.message : Failure → String
  | .noTable => "nil type table"
  | .invalid t e => "type table " ++ Text.quote t ++ ": " ++ e
  | .fault f => f.message?.getD ""

/-- Adds problems to a bag, as far as they fit. -/
def collect (b : Bag) (problems : List Diagnostic) : Bag := problems.foldl Bag.add b

/-- The result of building: a universe or a failure, the bag, and the journal. -/
structure Outcome where
  result : Except Failure Universe
  bag : Bag
  journal : Trace.Journal

/-- Closes the graph of a table, unless the options say otherwise. -/
def closeDeclared (o : Options) (g : Graph) (j : Trace.Journal) (current : UInt64) :
    Graph × Graph.Stats × Trace.Journal :=
  if o.noPropagate then (g, {}, j) else g.propagateTraced j current

/-- Builds a universe inside a span of the trace. -/
def buildTraced (t : Table) (o : Options) (j : Trace.Journal) (current : UInt64) : Outcome :=
  let (span, inner, j) := j.startSpan .pass ("universe:" ++ t.name) current
  let d := t.declare
  let bag := collect (.ofCapacity o.capacity) d.problems
  if bag.hasErrors then
    ⟨.error (.invalid t.name (bag.errorText?.getD "")), bag, j.endSpan span "invalid table"⟩
  else
    let (g, stats, j) := closeDeclared o d.graph j inner
    match g.apply {} with
    | .error f => ⟨.error (.fault f), bag, j⟩
    | .ok (m, pairs) =>
      let span := Trace.Journal.note span "types" (toString d.registry.size)
      let span := Trace.Journal.note span "pairs" (toString pairs)
      ⟨.ok ⟨t.name, d.registry, if o.noFreeze then m else m.freeze, t, stats⟩, bag, j.endSpan span ""⟩

/-- Builds a universe. -/
def build (t : Table) (o : Options) : Except Failure Universe × Bag :=
  let r := buildTraced t o .silent 0
  (r.result, r.bag)

/-- Builds the universe of the numeric table. -/
def numeric (j : Trace.Journal) (current : UInt64) : Outcome := buildTraced .numeric {} j current

/-- The type of a name. -/
def lookup (u : Universe) (name : String) : Except Registry.Refusal TypeId := u.registry.lookup name

/-- How the type of one name may stand in for that of another. -/
def check (u : Universe) (source target : String) : Except Registry.Refusal (Except Fault Kind) := do
  let a ← u.lookup source
  let b ← u.lookup target
  return u.manager.compatible ⟨a, b⟩

end Universe

end Coercion
