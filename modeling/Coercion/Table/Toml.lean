import Coercion.Table.Basic
import Coercion.Toml.Reading

/-!
# Type tables in TOML

Reading refuses keys that no field takes, and a document without the key `types`.  Writing leaves out a list that is
not given.  An empty list of conversions or functions has no section to stand for it, and is assigned like the types.
-/

namespace Coercion.Table

open Toml (Key Value Reading)

/-- Reads the declaration of a conversion. -/
def readRule (path : Key) : Value → Reading Rule :=
  Reading.record path ["from", "to", "kind", "reverse"] {} fun r field _ v => do
    let s ← Reading.string v
    match field with
    | "from" => return { r with source := s }
    | "to" => return { r with target := s }
    | "kind" => return { r with kind := s }
    | _ => return { r with reverse := s }

/-- Reads the declaration of a function. -/
def readFunction (path : Key) : Value → Reading Overloaded :=
  Reading.record path ["name", "overloads"] {} fun f field _ v => do
    match field with
    | "name" => return { f with name := ← Reading.string v }
    | _ => return { f with overloads? := some (← Reading.list Reading.string v) }

/-- Reads a table. -/
def readEntries : Value → Reading Table :=
  Reading.record [] ["name", "types", "aliases", "rules", "functions"] {} fun t field path v => do
    match field with
    | "name" => return { t with name := ← Reading.string v }
    | "types" => return { t with types? := some (← Reading.list Reading.string v) }
    | "aliases" => return { t with aliases? := ← Reading.map path Reading.string v }
    | "rules" => return { t with rules? := some (← Reading.list (readRule path) v) }
    | _ => return { t with functions? := some (← Reading.list (readFunction path) v) }

/-- Reads a table from a text. -/
def ofToml (text : String) : Except Malformed Table :=
  match Toml.Document.parse text with
  | none => .error (.syntactic .toml)
  | some d =>
    match d.read readEntries with
    | none => .error (.syntactic .toml)
    | some (_, k :: _) => .error (.unknownKey (Toml.writeKey k))
    | some (t, []) => if (Toml.Entries.get? "types" d.entries).isSome then .ok t else .error .missingTypes

/-- An assignment of a text. -/
def assignText (key value : String) : String :=
  Toml.writeKeyPart key ++ " = " ++ Toml.writeString value ++ "\n"

/-- An assignment of a list of texts. -/
def assignTexts (key : String) (values : List String) : String :=
  Toml.writeKeyPart key ++ " = [" ++ ", ".intercalate (values.map Toml.writeString) ++ "]\n"

/-- A table as a text.  Assignments come before the sections, which have assignments of their own. -/
def toToml (t : Table) : String :=
  let types := if t.types? = none then "" else assignTexts "types" t.types
  let noRules := if t.rules? = some [] then assignTexts "rules" [] else ""
  let noFunctions := if t.functions? = some [] then assignTexts "functions" [] else ""
  let aliases := if t.aliases? = none then "" else
    "\n[aliases]\n" ++ String.join (t.sortedAliases.map fun (k, v) => "  " ++ assignText k v)
  let rules := t.rules.map fun r =>
    "\n[[rules]]\n  " ++ assignText "from" r.source ++ "  " ++ assignText "to" r.target ++ "  " ++
      assignText "kind" r.kind ++ if r.reverse = "" then "" else "  " ++ assignText "reverse" r.reverse
  let functions := t.functions.map fun f =>
    "\n[[functions]]\n  " ++ assignText "name" f.name ++
      if f.overloads? = none then "" else "  " ++ assignTexts "overloads" f.overloads
  assignText "name" t.name ++ types ++ noRules ++ noFunctions ++ aliases ++ String.join rules ++ String.join functions

end Coercion.Table
