import Coercion.Command.Session

/-!
# Commands that show the table

The conversions of a universe in some format, and figures about how they are stored.
-/

namespace Coercion.Command

variable {m : Type → Type} [Monad m] [Host m]

/-- The bytes of an export. -/
def exportBytes : Export → ByteArray
  | .text pieces => (String.join pieces).toUTF8
  | .binary bytes => ⟨bytes.toArray⟩

/-- Lists the conversions, on the output or in a file. -/
def runTable (g : Globals) (o : TableOptions) : Action m Unit := do
  let f ← orFail (Listing.Format.parse o.format) .listingFormat
  let kinds ← orFail (o.kinds.mapM Kind.parse) .kind
  let s ← openSession g "table" false
  let u := s.loaded
  let stats ← orFail u.manager.table.tally .tally
  let listing := Listing.ofRecords u.name u.manager.table.records stats u.registry.name
  let bytes := exportBytes ((listing.filter kinds).write (← get).color f)
  if o.output = "" then Host.emit .output bytes else orFail (← Host.write o.output bytes) .file

/-- Figures of a universe, one on a line. -/
def universeFigures (u : Universe) : String :=
  "types:        " ++ toString u.registry.size ++ "\ndeclared:     " ++ toString u.stats.declared ++
    "\nderived:      " ++ toString u.stats.derived ++ "\nimproved:     " ++ toString u.stats.improved ++ "\n"

/-- Shows figures about the stored conversions. -/
def runStats (g : Globals) (format : String) : Action m Unit := do
  let f ← orFail (Listing.Format.parse format) .listingFormat
  let s ← openSession g "stats" false
  let stats ← orFail s.loaded.manager.table.tally .tally
  if f = .text then say .output (universeFigures s.loaded)
  Host.emit .output (exportBytes (stats.write f))

/-- Shows the version of the program. -/
def runVersion (o : VersionOptions) : Action m Unit := do
  match Text.lower o.format with
  | "pretty" => say .output (Release.current.pretty (← get).color o.full)
  | "json" => say .output ((Release.current.toJson o.full).pretty ++ "\n")
  | _ => throw (.format o.format)

end Coercion.Command
