import Coercion.Number.Decimal
import Coercion.Stress.Query
import Coercion.Trace.Journal

/-!
# Stress runs

Workers ask a manager the same questions, each in an order of its own, and compare the answers with those given before
the run.  Meanwhile writers may register conversions between types outside the pool, and whoever watches the progress
may cancel the run or register further conversions.

A run is a sequence of atomic moves of workers and writers.  What holds of a run is said for any order of moves; the
plain run lets the workers go one after the other, and then each writer once.
-/

namespace Coercion.Stress

/-- How a run is made.  Numbers that are not positive stand for a default. -/
structure Options where
  workers : Int := 0
  queries : Int := 0
  arity : Int := 0
  overloads : Int := 0
  seed : UInt64 := 0
  allowLossy : Bool := false
  writers : Int := 0
  /-- The number of questions between progress reports. -/
  reportEvery : Int := 0

namespace Options

/-- A number, or its default. -/
def orDefault (n : Int) (default : Nat) : Nat := if n ≤ 0 then default else n.toNat

/-- The number of workers: as many as there are processors, if it is not given. -/
def workerCount (o : Options) (processors : Nat) : Nat := orDefault o.workers processors

/-- The number of questions. -/
def queryCount (o : Options) : Nat := orDefault o.queries 10000

/-- The number of arguments. -/
def argumentCount (o : Options) : Nat := orDefault o.arity 2

/-- The number of candidates. -/
def candidateCount (o : Options) : Nat := orDefault o.overloads 4

/-- The distance of progress reports. -/
def reportDistance (o : Options) : Nat := orDefault o.reportEvery 500

end Options

/-! ### Progress -/

/-- What a worker is doing. -/
inductive Status where
  | queued
  | working
  | done
  | error
  deriving DecidableEq, Inhabited

/-- The name of a status. -/
def Status.name : Status → String
  | queued => "queued"
  | working => "working"
  | done => "done"
  | error => "error"

/-- Why a run ends early. -/
inductive Failure where
  | emptyPool
  | cancelled
  deriving DecidableEq

/-- The wording of a failure. -/
def Failure.message : Failure → String
  | emptyPool => "stress: empty type pool"
  | cancelled => "context canceled"

/-- A report of a worker. -/
structure Progress where
  worker : Nat
  status : Status
  done : UInt64 := 0
  total : UInt64
  mismatches : UInt64 := 0
  failure : Option Failure := none
  deriving DecidableEq, Inhabited

/-- What a watcher of the progress does: it cancels the run, or registers conversions, at a number of reports seen.
Zero is never; a negative number cancels before the run. -/
structure Watcher where
  cancelAt : Int := 0
  registerAt : Int := 0
  records : List Record := []

/-- An answer that differs from the one before the run. -/
structure Mismatch where
  worker : Nat
  query : Nat
  want : String
  got : String
  deriving DecidableEq, Inhabited

/-- A mismatch in words. -/
def Mismatch.render (m : Mismatch) : String :=
  "worker " ++ toString m.worker ++ " query " ++ toString m.query ++ ": got " ++ m.got ++ ", want " ++ m.want

/-- The number of mismatches kept as samples. -/
def sampleLimit : Nat := 16

/-! ### Moves -/

/-- What does not change during a run. -/
structure Setup where
  options : Options
  workers : Nat
  questions : Array Query
  /-- The answers before the run. -/
  baseline : Array Answer
  watcher : Watcher
  /-- The first identifier for writers. -/
  base : Int32
  /-- The span of the run. -/
  span : UInt64

/-- A worker. -/
structure Worker where
  /-- The questions still to be asked. -/
  pending : List Nat
  started : Bool := false
  stopped : Bool := false
  /-- How many questions have been asked, each once. -/
  asked : Nat := 0
  /-- How many of them had another answer than before the run. -/
  bad : Nat := 0
  span : Trace.Span := {}
  deriving Inhabited

/-- The state of a run. -/
structure State where
  manager : Manager
  workers : Array Worker
  /-- How many pairs each writer has registered. -/
  writers : Array Nat
  journal : Trace.Journal
  cancelled : Bool := false
  /-- The reports so far, the latest first. -/
  progress : List Progress := []
  /-- The number of questions asked by workers that got to their end. -/
  done : UInt64 := 0
  mismatches : UInt64 := 0
  samples : Array Mismatch := #[]
  /-- The first failure of a worker. -/
  failure : Option Failure := none

/-- A move. -/
inductive Move where
  | worker (w : Nat)
  | writer (w : Nat)
  deriving DecidableEq

/-- The number of pairs a writer registers at most. -/
def writerPairs : Nat := 4096

/-- The pair number `k` of a writer, in arithmetic on 32 bits. -/
def writerPair (base : Int32) (w k : Nat) : Pair :=
  let t := base + Int32.ofNat w * Int32.ofNat (2 * writerPairs) + Int32.ofNat k * 2
  ⟨⟨t⟩, ⟨t + 1⟩⟩

namespace State

/-- Reports progress, to which the watcher may react. -/
def report (c : Setup) (s : State) (p : Progress) : Except Fault State := do
  let s := { s with progress := p :: s.progress }
  let seen : Int := s.progress.length
  let s := if seen = c.watcher.cancelAt then { s with cancelled := true } else s
  if seen = c.watcher.registerAt then
    let m ← s.manager.addAll c.watcher.records
    return { s with manager := m }
  else return s

/-- A report of a worker in its present state. -/
def progressOf (c : Setup) (w : Nat) (x : Worker) (status : Status) : Progress :=
  { worker := w, status, done := UInt64.ofNat x.asked, total := UInt64.ofNat c.questions.size
    mismatches := UInt64.ofNat x.bad }

/-- Puts a worker back. -/
def putWorker (s : State) (w : Nat) (x : Worker) : State := { s with workers := s.workers.setIfInBounds w x }

/-- A worker starts. -/
def start (c : Setup) (s : State) (w : Nat) (x : Worker) : Except Fault State :=
  let (span, j) := s.journal.beginSpan .table ("worker " ++ toString w) c.span
  let x := { x with started := true, span }
  ({ s with journal := j }.putWorker w x).report c (progressOf c w x .working)

/-- A worker stops because the run was cancelled. -/
def abort (c : Setup) (s : State) (w : Nat) (x : Worker) : Except Fault State := do
  let x := { x with stopped := true }
  let s ← (s.putWorker w x).report c { progressOf c w x .error with failure := some .cancelled }
  return { s with
    journal := s.journal.endSpan x.span ""
    cancelled := true
    failure := s.failure.or (some .cancelled) }

/-- A worker has asked everything. -/
def finish (c : Setup) (s : State) (w : Nat) (x : Worker) : Except Fault State := do
  let x := { x with stopped := true, span := Trace.Journal.note x.span "mismatches" (toString x.bad) }
  let s := { s with done := s.done + UInt64.ofNat x.asked }.putWorker w x
  let s ← s.report c (progressOf c w x (if x.bad = 0 then .done else .error))
  return { s with journal := s.journal.endSpan x.span "" }

/-- A worker asks question `i`. -/
def askNext (c : Setup) (s : State) (w i : Nat) (rest : List Nat) (x : Worker) : Except Fault State := do
  let want := c.baseline.getD i default
  let got ← (c.questions.getD i default).ask s.manager c.options.allowLossy
  let x := { x with pending := rest, asked := x.asked + 1 }
  if got = want then return s.putWorker w x
  else
    let mm : Mismatch := ⟨w, i, want.render, got.render⟩
    return { s with
      mismatches := s.mismatches + 1
      samples := if s.samples.size < sampleLimit then s.samples.push mm else s.samples }.putWorker w
        { x with bad := x.bad + 1 }

/-- A worker goes on: at the distance of reports it looks whether the run was cancelled, and reports. -/
def goOn (c : Setup) (s : State) (w i : Nat) (rest : List Nat) (x : Worker) : Except Fault State :=
  if x.asked % c.options.reportDistance = 0 then
    if s.cancelled then s.abort c w x
    else if x.asked = 0 then s.askNext c w i rest x
    else do
      let s ← s.report c (progressOf c w x .working)
      s.askNext c w i rest x
  else s.askNext c w i rest x

/-- The next move of a worker. -/
def moveWorker (c : Setup) (s : State) (w : Nat) : Except Fault State :=
  match s.workers[w]? with
  | none => .ok s
  | some x =>
    if x.stopped then .ok s
    else if !x.started then s.start c w x
    else
      match x.pending with
      | [] => s.finish c w x
      | i :: rest => s.goOn c w i rest x

/-- The next move of a writer. -/
def moveWriter (c : Setup) (s : State) (w : Nat) : Except Fault State :=
  match s.writers[w]? with
  | none => .ok s
  | some k =>
    if k < writerPairs then do
      let m ← s.manager.add (writerPair c.base w k) .promote
      return { s with manager := m, writers := s.writers.setIfInBounds w (k + 1) }
    else .ok s

/-- A move. -/
def move (c : Setup) (s : State) : Move → Except Fault State
  | .worker w => s.moveWorker c w
  | .writer w => s.moveWriter c w

/-- The moves of a schedule. -/
def run (c : Setup) (s : State) (schedule : List Move) : Except Fault State :=
  schedule.foldlM (fun s m => s.move c m) s

end State

/-! ### Runs -/

/-- What came out of a run.  It is counted in words, which begin again at zero after the last one. -/
structure Report where
  workers : Nat := 0
  queries : UInt64 := 0
  registered : UInt64 := 0
  mismatches : UInt64 := 0
  samples : List Mismatch := []
  deriving Inhabited

/-- The questions answered in a second, given the time in nanoseconds. -/
def Report.perSecond (r : Report) (elapsed : Int) : Binary64 :=
  if elapsed ≤ 0 then .zero
  else
    let n := elapsed.toNat
    (Binary64.ofNat r.queries.toNat).div
      ((Binary64.ofNat (n / 1000000000)).add ((Binary64.ofNat (n % 1000000000)).div (.ofNat 1000000000)))

/-- What is wrong with the answers of a run, if anything is. -/
def Report.verdict? (r : Report) : Option String :=
  if r.mismatches = 0 then none
  else some ("concurrent answer differs from baseline: " ++ toString r.mismatches ++ " of " ++ toString r.queries)

/-- The largest identifier of a pool, at least zero. -/
def largestId (pool : List TypeId) : Int32 := pool.foldl (fun hi t => max hi t.id) 0

/-- The result of a run. -/
structure Outcome where
  report : Report := {}
  failure : Option Failure := none
  manager : Manager
  progress : List Progress := []
  journal : Trace.Journal

/-- The answers before a run. -/
def baselineOf (m : Manager) (allowLossy : Bool) (qs : List Query) : Except Fault (List Answer) :=
  qs.mapM (Query.ask m allowLossy)

/-- The workers one after the other, each with a move for its start, its questions and its end, and then a move of
each writer. -/
def plainSchedule (workers questions writers : Nat) : List Move :=
  (List.range workers).flatMap (fun w => List.replicate (questions + 2) (.worker w)) ++
    (List.range writers).map .writer

/-- The state before the first move: all workers are queued. -/
def initial (c : Setup) (m : Manager) (j : Trace.Journal) : Except Fault State :=
  let workers := (List.range c.workers).map fun w =>
    { pending := workerOrder c.options.seed w c.questions.size : Worker }
  let writers := if m.frozen then 0 else c.options.writers.toNat
  (List.range c.workers).foldlM
    (fun (s : State) w => s.report c { worker := w, status := .queued, total := UInt64.ofNat c.questions.size })
    { manager := m, workers := workers.toArray, writers := Array.replicate writers 0, journal := j
      cancelled := decide (c.watcher.cancelAt < 0) }

/-- What came out of a state. -/
def State.outcome (c : Setup) (s : State) (span : Trace.Span) : Outcome :=
  let report : Report :=
    { workers := c.workers, queries := s.done, registered := UInt64.ofNat (s.writers.foldl (· + ·) 0)
      mismatches := s.mismatches, samples := s.samples.toList }
  let span := Trace.Journal.note span "queries" (toString report.queries)
  let span := Trace.Journal.note span "mismatches" (toString report.mismatches)
  ⟨report, s.failure, s.manager, s.progress.reverse, s.journal.endSpan span ""⟩

/-- Stresses a manager with questions over a pool, inside a span of the trace. -/
def run (m : Manager) (pool : List TypeId) (o : Options) (processors : Nat) (watcher : Watcher)
    (j : Trace.Journal) (current : UInt64) : Except Fault Outcome :=
  if pool.isEmpty then .ok { failure := some .emptyPool, manager := m, journal := j }
  else do
    let (span, j) := j.beginSpan .driver "stress" current
    let qs := queries o.seed pool o.queryCount o.argumentCount o.candidateCount
    let baseline ← baselineOf m o.allowLossy qs
    let j := j.point .pass "stress:baseline" (toString qs.length ++ " queries") span.id
    let c : Setup :=
      { options := o, workers := o.workerCount processors, questions := qs.toArray, baseline := baseline.toArray
        watcher, base := largestId pool + 1, span := span.id }
    let s ← initial c m j
    let s ← s.run c (plainSchedule c.workers c.questions.size s.writers.size)
    return s.outcome c span

end Coercion.Stress
