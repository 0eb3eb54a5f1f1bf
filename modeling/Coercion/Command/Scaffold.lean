import Coercion.Command.Session

/-!
# Starting a directory

Writes a manifest, and beside it the numeric table as one to edit.  A table that is there already is kept.
-/

namespace Coercion.Command

variable {m : Type → Type} [Monad m] [Host m]

/-- Makes a directory unless there is one. -/
def requireDirectory (path : String) : Action m Unit := do
  match ← Host.kind path with
  | .ok .directory => pure ()
  | .ok .file => throw (.notDirectory path)
  | .error e =>
    if e.cause ≠ .missing then throw (.file e)
    orFail (← Host.makeDirectory path) (.makeDirectory path)

/-- Whether nothing stands at a path. -/
def isMissing : Except FileError FileKind → Bool
  | .error e => e.cause = .missing
  | .ok _ => false

/-- Writes a manifest and a table. -/
def runInit (yaml : Bool) (path : String) : Action m Unit := do
  let target := Path.absolute (← Host.directory) path
  requireDirectory target
  let manifestPath := Path.join target Manifest.fileName
  match ← Host.kind manifestPath with
  | .ok _ => throw (.initialized manifestPath)
  | .error _ => pure ()
  let tableName := if yaml then "types.yaml" else "types.toml"
  let tablePath := Path.join target tableName
  let created := isMissing (← Host.kind tablePath)
  if created then
    let text := Table.render (if yaml then .yaml else .toml) .numeric
    orFail (← Host.write tablePath text.toUTF8) (.writeTable tableName)
  orFail (← Host.write manifestPath (Manifest.initial tableName).toUTF8) .writeManifest
  say .output ("Initialized typeconv in " ++ target ++ "\n  - " ++ Manifest.fileName ++ "\n  - " ++ tableName ++
    (if created then "\n" else " (existing)\n"))

end Coercion.Command
