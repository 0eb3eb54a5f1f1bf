import Coercion.Json
import Coercion.Text.Blank
import Coercion.Text.CodePoints
import Coercion.Text.Style

/-!
# Releases

What the program says about its own version: a coloured banner, a few lines, or a JSON document.
-/

namespace Coercion

/-- A build of the program. -/
structure Release where
  version : String
  /-- The commit it was built from, empty if not known. -/
  commit : String := ""
  /-- The day it was built, empty if not known. -/
  built : String := ""
  deriving DecidableEq

namespace Release

/-- The name of the program. -/
def tool : String := "typeconv"

/-- This build. -/
def current : Release where
  version := "0.1.0-dev"

/-- The version with each of its three numbers in a colour.  A version that has not three parts before its first
hyphen stands as it is. -/
def colored (r : Release) (color : Bool) : String :=
  let core := r.version.toList.takeWhile (· != '-')
  let suffix := (r.version.toList.dropWhile (· != '-')).drop 1
  match Text.splitChars '.' core with
  | major :: minor :: p :: ps =>
    let patch := ['.'].intercalate (p :: ps)
    Text.Style.boldYellow.paint color (String.ofList major) ++ "." ++
      Text.Style.boldGreen.paint color (String.ofList minor) ++ "." ++
      Text.Style.boldBlue.paint color (String.ofList patch) ++
      (if suffix.isEmpty then "" else "-" ++ String.ofList suffix)
  | _ => r.version

/-- The banner on one line. -/
def line (r : Release) (color : Bool) : String :=
  tool ++ " " ++ r.colored color ++ (if r.commit = "" then "" else " (" ++ r.commit ++ ")") ++
    (if r.built = "" then "" else " built " ++ r.built)

/-- A trimmed text, or that it is not known. -/
def orUnknown (s : String) : String :=
  let s := Text.trim s
  if s = "" then "unknown" else s

/-- The release in lines; in full, with the commit and the day of the build. -/
def pretty (r : Release) (color full : Bool) : String :=
  if full then
    r.line color ++ "\ncommit: " ++ orUnknown r.commit ++ "\nbuilt:  " ++ orUnknown r.built ++ "\n"
  else tool ++ " " ++ r.colored color ++ "\n"

/-- The release as a JSON document. -/
def toJson (r : Release) (full : Bool) : Json :=
  .object ([("tool", .string tool), ("version", .string (Text.trim r.version))] ++
    if full then [("git_commit", .string (orUnknown r.commit)), ("build_date", .string (orUnknown r.built))] else [])

end Release

end Coercion
