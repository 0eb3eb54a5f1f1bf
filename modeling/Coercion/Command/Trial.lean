import Coercion.Command.Session
import Coercion.Number.Word
import Coercion.Stress.Dashboard

/-!
# Commands that try the program out

A stress run asks many questions at the same time and compares the answers; a benchmark tells how long questions take.
-/

namespace Coercion.Command

variable {m : Type → Type} [Monad m] [Host m]

/-! ### Stress runs -/

/-- Whether the progress of a stress run is shown. -/
inductive UiMode where
  | auto
  | on
  | off
  deriving DecidableEq

/-- Reads a mode in any case, blanks around it allowed. -/
def UiMode.read? (s : String) : Option UiMode :=
  match Text.trim (Text.lower s) with
  | "" | "auto" => some auto
  | "on" => some on
  | "off" => some off
  | _ => none

/-- The dashboard after the reports of a run. -/
def finalDashboard (workers : Nat) (progress : List Stress.Progress) : Stress.Dashboard :=
  let d := progress.foldl
    (fun (d : Stress.Dashboard) p => (d.update (.report p.worker p.status.name p.done p.total p.mismatches)).1)
    (.ofWorkers "stress" workers)
  (d.update .closed).1

/-- The figures of a run, given the time in nanoseconds. -/
def stressFigures (r : Stress.Report) (elapsed : Nat) : String :=
  "workers:    " ++ toString r.workers ++ "\nqueries:    " ++ toString r.queries ++ "\nregistered: " ++
    toString r.registered ++ "\nmismatches: " ++ toString r.mismatches ++ "\nthroughput: " ++
    (r.perSecond elapsed).fixed 0 ++ " queries/s\n" ++
    String.join (r.samples.map fun mm => "  " ++ mm.render ++ "\n")

/-- Stresses the universe. -/
def runStress (g : Globals) (o : StressOptions) : Action m Unit := do
  let some ui := UiMode.read? o.ui | throw (.ui o.ui)
  let s ← openSession g "stress" (decide (0 < o.writers))
  let pool := s.loaded.registry.types
  if pool.isEmpty then throw (.noTypes s.loaded.name)
  let options : Stress.Options :=
    { workers := o.workers, queries := o.queries, arity := o.arity, overloads := o.overloads
      seed := UInt64.ofNat o.seed, allowLossy := s.allowLossy o.lossy, writers := o.writers }
  let processors ← Host.processors
  let i ← beginPhase "stress"
  let start ← Host.clock
  let result ← traced fun j current =>
    match Stress.run s.loaded.manager pool options processors {} j current with
    | .ok r => (.ok r, current, r.journal)
    | .error f => (.error f, current, j)
  let stop ← Host.clock
  let r : Stress.Outcome ← orFail result .fault
  endPhase i r.report.queries.toInt64.toInt (toString r.report.workers ++ " workers")
  match r.failure with
  | some e => throw (.stress e)
  | none => pure ()
  let live := ui = .on || (ui = .auto && (← Host.terminal))
  if live then say .output (finalDashboard r.report.workers r.progress).view
  say .output (stressFigures r.report (stop - start))
  match r.report.verdict? with
  | some verdict => throw (.mismatches verdict)
  | none => pure ()

/-! ### Benchmarks -/

/-- All signatures of a length over a pool. -/
def signaturesOver (pool : List TypeId) : Nat → List Signature
  | 0 => [[]]
  | n + 1 => (signaturesOver pool n).flatMap fun sig => pool.map fun t => sig ++ [t]

/-- The number of parameters that all overloads have in common. -/
def commonArity? : List Signature → Option Nat
  | [] => none
  | first :: rest => if rest.all fun sig => sig.length = first.length then some first.length else none

/-- How many operations there are in rounds, in arithmetic on 64 bits. -/
def operationsIn (rounds : Int) (perRound : Nat) : Int := (Int64.ofInt (rounds * perRound)).toInt

/-- Asks for every pair of a pool and adds the codes of the answers up. -/
def lookupWork (mgr : Manager) (pool : List TypeId) (rounds : Nat) : Nat :=
  rounds.fold
    (fun _ _ sum =>
      pool.foldl (fun sum a => pool.foldl (fun sum b => sum + (codeOf (mgr.compatible ⟨a, b⟩))) sum) sum)
    0
where
  codeOf (r : Except Fault Kind) : Nat := (r.toOption.map (·.code)).getD 0

/-- Selects among overloads for every call over a pool and counts the calls that select one. -/
def selectWork (mgr : Manager) (pool : List TypeId) (overloads : List Signature) (arity : Nat) (allowLossy : Bool)
    (rounds : Nat) : Nat :=
  let calls := signaturesOver pool arity
  rounds.fold (fun _ _ sum => calls.foldl (fun sum call => sum + found (mgr.select call overloads allowLossy)) sum) 0
where
  found (r : Except Fault Selection) : Nat :=
    match r with
    | .ok s => if s.unique?.isSome then 1 else 0
    | .error _ => 0

/-- Measures some work as a phase of a timer. -/
def measureInto (t : Timer) (name : String) (operations : Int) (work : Unit → Nat) : Action m Timer := do
  return t.measured name operations 0 (← Host.measure work)

/-- Measures selections for the overload sets of a resolver; sets of mixed arity and sets without calls are passed
over. -/
def measureFunctions (u : Universe) (allowLossy : Bool) (rounds : Int) :
    Timer → List (String × List Signature) → Action m Timer
  | t, [] => return t
  | t, (name, overloads) :: rest => do
    let pool := u.registry.types
    match commonArity? overloads with
    | none => measureFunctions u allowLossy rounds t rest
    | some arity =>
      let calls := Number.power pool.length arity
      if calls = 0 then measureFunctions u allowLossy rounds t rest
      else do
        let t ← measureInto t ("select " ++ name) (operationsIn rounds calls) fun _ =>
          selectWork u.manager pool overloads arity allowLossy rounds.toNat
        measureFunctions u allowLossy rounds t rest

/-- Measures questions about the universe. -/
def runBench (g : Globals) (o : BenchOptions) : Action m Unit := do
  if o.rounds ≤ 0 then throw (.rounds o.rounds)
  let s ← openSession g "bench" false
  let u := s.loaded
  let pool := u.registry.types
  let lossy := s.allowLossy o.lossy
  let t ← measureInto {} "is-compatible" (operationsIn o.rounds (pool.length * pool.length)) fun _ =>
    lookupWork u.manager pool o.rounds.toNat
  let (r, bag) := Resolver.ofFunctions u.registry u.table.functions { allowLossy := lossy }
  match bag.errorText? with
  | some errors => throw (.functions errors)
  | none => do
    let t ← measureFunctions u lossy o.rounds t r.functions
    say .output t.summary

end Coercion.Command
