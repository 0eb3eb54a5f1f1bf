import Coercion.Command.Action
import Coercion.Command.Path
import Coercion.Diagnostic.Report
import Coercion.Resolver
import Coercion.Table.Source

/-!
# Sessions

Most commands work on a universe.  The manifest, which is the one given or the nearest one above the working directory,
and the options of the program tell which table it is made from.  Problems of the table are shown before the command
goes on.
-/

namespace Coercion.Command

/-- A universe and the manifest that led to it. -/
structure Session where
  manifest : Manifest
  loaded : Universe

/-- Whether lossy conversions are admissible: what the flag says or, without one, the manifest. -/
def Session.allowLossy (s : Session) (flag : Option Bool) : Bool := flag.getD s.manifest.allowLossy

/-- The text of a file, if it is one. -/
def textOf? (bytes : ByteArray) : Option String := String.fromUTF8? bytes

/-- The format that the extension of a path stands for. -/
def tableFormat? (path : String) : Option Table.Format :=
  match Text.lower (Path.extension path) with
  | ".toml" => some .toml
  | ".yaml" | ".yml" => some .yaml
  | _ => none

/-- The table in the bytes of a file. -/
def readTable (path : String) (bytes : ByteArray) : Except Failure Table :=
  match tableFormat? path with
  | none => .error (.tableFormat path)
  | some f =>
    match textOf? bytes with
    | none => .error (.tableText path (.syntactic f))
    | some text => (Table.parse f text).mapError (.tableText path)

section

variable {m : Type → Type} [Monad m] [Host m]

/-- Loads the table of a file. -/
def loadTable (path : String) : Action m Table := do
  let bytes ← orFail (← Host.read path) (.tableFile path)
  orFail (readTable path bytes) id

/-- Loads a manifest. -/
def loadManifest (path : String) : Action m Manifest := do
  match ← Host.read path with
  | .error _ => throw (.manifest path .syntactic)
  | .ok bytes =>
    match textOf? bytes with
    | none => throw (.manifest path .syntactic)
    | some text => orFail (Manifest.parse text) (.manifest path)

/-- The path of the nearest manifest in a directory or above it.  `fuel` is at least the number of directories above. -/
def findManifest : (fuel : Nat) → String → Action m (Option String)
  | 0, _ => return none
  | fuel + 1, directory => do
    let candidate := Path.join directory Manifest.fileName
    match ← Host.kind candidate with
    | .ok _ => return some candidate
    | .error e =>
      if e.cause ≠ .missing then throw (.manifestPlace candidate e)
      let above := Path.parent directory
      if above = directory then return none else findManifest fuel above

/-- The manifest given, or the nearest one, with its path. -/
def discoverManifest (given : String) : Action m (Option (String × Manifest)) := do
  if given ≠ "" then
    return some (given, ← loadManifest given)
  else do
    let directory ← Host.directory
    match ← findManifest (directory.length + 1) (Path.clean directory) with
    | none => return none
    | some path => return some (path, ← loadManifest path)

/-- The path of the table of a manifest, if it names one. -/
def Manifest.tablePath? (path : String) (manifest : Manifest) : Option String :=
  if manifest.table = "" then none
  else if Path.isAbsolute manifest.table then some manifest.table
  else some (Path.join (Path.parent path) manifest.table)

/-- Writes the diagnostics of a bag to the error stream. -/
def showBag (b : Bag) : Action m Unit := do
  say .error (String.join (b.lines (← get).color))

/-- The table at a path, or the numeric one. -/
def chooseTable (path : Option String) : Action m Table :=
  match path with
  | none => return .numeric
  | some path => do
    let i ← beginPhase "load table"
    let result ← ExceptT.lift (loadTable path).run
    endPhase i 0 path
    orFail result id

/-- Builds a universe inside a span named for the command. -/
def buildUniverse (command : String) (t : Table) (o : Universe.Options) : Action m Universe.Outcome := do
  let i ← beginPhase "build universe"
  let r ← traced fun j current =>
    let (span, inner, j) := j.startSpan .driver command current
    let r := Universe.buildTraced t o j inner
    (r, inner, r.journal.endSpan span "")
  endPhase i 0 t.name
  return r

/-- Refuses a table that has diagnostics of a severity, unless only errors count, which have been refused before. -/
def refuseSevere (failOn : String) (t : Table) (b : Bag) : Action m Unit := do
  let floor ← orFail (Severity.parse failOn) .failOn
  let n := b.count floor
  if !floor.isError && 0 < n then throw (.severe t.name n floor)

/-- Loads the universe that a command works on. -/
def openSession (g : Globals) (command : String) (noFreeze : Bool) : Action m Session := do
  let found ← discoverManifest g.config
  let manifest := (found.map (·.2)).getD {}
  let path := if g.table ≠ "" then some g.table else found.bind fun (path, m) => m.tablePath? path
  let t ← chooseTable path
  let r ← buildUniverse command t ⟨manifest.noPropagate, noFreeze, g.maxDiagnostics⟩
  match r.result with
  | .error (.fault f) => throw (.fault f)
  | .error e => do
    showBag r.bag.sort
    throw (.invalid e)
  | .ok u => do
    unless g.quiet do showBag r.bag.sort
    refuseSevere g.failOn t r.bag
    return ⟨manifest, u⟩

end

end Coercion.Command
