import Coercion.Command.Failure
import Coercion.Text.Style
import Coercion.Timer

/-!
# Actions

Commands are actions on a host.  An action keeps the timer and the trace of the command, and may fail.  Before a
command, `prepare` sets up what the options of the program ask for; after it, `conclude` writes what was left to the
end.
-/

namespace Coercion.Command

/-- A host whose operations are lifted into another monad. -/
@[reducible] def Host.lifted {m n : Type → Type} [Host m] (lift : {α : Type} → m α → n α) : Host n where
  directory := lift Host.directory
  kind path := lift (Host.kind path)
  read path := lift (Host.read path)
  write path bytes := lift (Host.write path bytes)
  append path bytes := lift (Host.append path bytes)
  makeDirectory path := lift (Host.makeDirectory path)
  emit s bytes := lift (Host.emit s bytes)
  clock := lift Host.clock
  moment := lift Host.moment
  measure work := lift (Host.measure work)
  processors := lift Host.processors
  terminal := lift Host.terminal

/-- What an action keeps. -/
structure Context where
  color : Bool := false
  timer : Timer := {}
  journal : Trace.Journal := .silent
  /-- The span under which new ones begin. -/
  current : UInt64 := 0
  /-- The file of the trace; without one it goes to a stream. -/
  traceFile : Option String := none
  /-- How many pieces of the trace have been handed over. -/
  delivered : Nat := 0
  /-- Whether the timer is shown in the end. -/
  summary : Bool := false
  /-- The file of a memory profile, written in the end. -/
  memoryProfile : Option String := none

/-- An action on a host, which changes a context. -/
abbrev ContextT (m : Type → Type) := StateT Context m

/-- An action on a host that may fail. -/
abbrev Action (m : Type → Type) := ExceptT Failure (ContextT m)

section

variable {m : Type → Type} [Monad m] [Host m]

instance : Host (ContextT m) := Host.lifted fun x => StateT.lift x

instance : Host (Action m) := Host.lifted fun x => ExceptT.lift x

/-- Writes a text to a stream. -/
def say {n : Type → Type} [Host n] (s : Stream) (text : String) : n Unit := Host.emit s text.toUTF8

/-- The value of a result, or a failure. -/
def orFail {ε α : Type} (r : Except ε α) (failure : ε → Failure) : Action m α :=
  match r with
  | .ok a => pure a
  | .error e => throw (failure e)

/-! ### Timing -/

/-- Begins a phase of the command's timer. -/
def beginPhase (name : String) : Action m Nat := do
  let now ← Host.clock
  modifyGet fun d =>
    let (i, t) := d.timer.beginPhase now name
    (i, { d with timer := t })

/-- Ends a phase of the command's timer. -/
def endPhase (index : Nat) (operations : Int) (note : String) : Action m Unit := do
  let now ← Host.clock
  modify fun d => { d with timer := d.timer.endPhase now index operations note }

/-! ### Tracing -/

/-- Hands over the pieces of the trace that are new. -/
def deliverTrace : ContextT m Unit := do
  let d ← get
  let fresh := (d.journal.written.toList).drop d.delivered
  set { d with delivered := d.journal.written.size }
  unless fresh.isEmpty do
    let bytes := (String.join fresh).toUTF8
    match d.traceFile with
    | some path => Host.append path bytes
    | none => Host.emit .trace bytes

/-- Does something to the trace at the time of the host, and hands over what it wrote. -/
def traced {α : Type} (f : Trace.Journal → UInt64 → α × UInt64 × Trace.Journal) : Action m α := do
  let now ← Host.moment
  let a ← modifyGet fun d =>
    let (a, current, journal) := f { d.journal with clock := now } d.current
    (a, { d with current, journal })
  ExceptT.lift deliverTrace
  return a

/-! ### Before a command -/

/-- Chooses whether output is coloured. -/
def prepareColor (mode : String) : Action m Unit := do
  match Text.lower (Text.trim mode) with
  | "on" => modify fun d => { d with color := true }
  | "off" => modify fun d => { d with color := false }
  | "" | "auto" => do
    let terminal ← Host.terminal
    modify fun d => { d with color := terminal }
  | _ => throw (.color mode)

/-- Sets up the trace.  A trace file without a level means the level of phases. -/
def prepareTrace (g : Globals) : Action m Unit := do
  let level ← orFail (Trace.Level.parse g.traceLevel) .traceLevel
  let level := if level = .off ∧ g.trace ≠ "" then .phase else level
  unless level = .off do
    let mode ← orFail (Trace.Mode.parse g.traceMode) .traceMode
    let journal ← orFail
      (Trace.Journal.ofMode level mode (Trace.Format.auto.resolve g.trace) g.traceRingSize) .traceStorage
    let traceFile := if mode = .ring ∨ g.trace = "" ∨ g.trace = "-" then none else some g.trace
    match traceFile with
    | some path => do orFail (← Host.write path .empty) .traceOutput
    | none => pure ()
    modify fun d => { d with journal, traceFile }

/-- Makes the files of the profiles that are asked for. -/
def prepareProfiles (g : Globals) : Action m Unit := do
  if g.cpuProfile ≠ "" then orFail (← Host.write g.cpuProfile .empty) (.profile "cpu profile")
  if g.runtimeTrace ≠ "" then orFail (← Host.write g.runtimeTrace .empty) (.profile "runtime trace")
  if g.memProfile ≠ "" then modify fun d => { d with memoryProfile := some g.memProfile }

/-- Sets up what the options of the program ask for. -/
def prepare (g : Globals) : Action m Unit := do
  prepareColor g.color
  prepareTrace g
  prepareProfiles g
  modify fun d => { d with summary := g.timings }

/-! ### After a command -/

/-- How many events of a ring are shown after a failure. -/
def tailLimit : Nat := 256

/-- Shows the newest events of a ring after a failure. -/
def showTail : ContextT m Unit := do
  match (← get).journal.ring? with
  | none => pure ()
  | some r =>
    let n := min r.held tailLimit
    say .error ("trace: last " ++ toString n ++ " events before failure (" ++ toString r.dropped ++ " dropped):\n" ++
      Trace.dump (r.tail n) .text)

/-- Writes what was left to the end. -/
def conclude : ContextT m Unit := do
  let d ← get
  if d.summary then say .error d.timer.summary
  match d.memoryProfile with
  | none => pure ()
  | some path =>
    match ← Host.write path .empty with
    | .ok () => pure ()
    | .error e => say .error ("profile: heap profile: " ++ e.message ++ "\n")
  deliverTrace

end

end Coercion.Command
