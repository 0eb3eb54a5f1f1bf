import Coercion.Text.Blank
import Coercion.Toml.Reading

/-!
# Manifests

A directory can hold a manifest, which names the type table to load and sets defaults for the commands below it.
-/

namespace Coercion.Command

/-- The settings of a manifest. -/
structure Manifest where
  /-- The path of the table from the directory of the manifest; empty for the numeric table. -/
  table : String := ""
  allowLossy : Bool := false
  asymmetric : Bool := false
  noPropagate : Bool := false
  deriving DecidableEq

namespace Manifest

/-- The name of a manifest. -/
def fileName : String := "typeconv.toml"

/-- Why a text is no manifest. -/
inductive Malformed where
  | syntactic
  | unknownKeys (keys : List String)
  | blankTable
  deriving DecidableEq

/-- The wording of a refusal, which starts with the path of the manifest. -/
def Malformed.message (path : String) : Malformed → String
  | syntactic => path ++ ": failed to parse TOML"
  | unknownKeys keys => path ++ ": unknown keys: " ++ ", ".intercalate keys
  | blankTable => path ++ ": [universe].table is empty"

open Toml (Key Value Reading)

/-- Reads the settings of the universe. -/
def readUniverse (path : Key) : Value → Reading Manifest :=
  Reading.record path ["table", "allow_unsafe", "asymmetric", "no_propagate"] {} fun m field _ v => do
    match field with
    | "table" => return { m with table := ← Reading.string v }
    | "allow_unsafe" => return { m with allowLossy := ← Reading.bool v }
    | "asymmetric" => return { m with asymmetric := ← Reading.bool v }
    | _ => return { m with noPropagate := ← Reading.bool v }

/-- Reads a manifest. -/
def readEntries : Value → Reading Manifest :=
  Reading.record [] ["universe"] {} fun _ _ path v => readUniverse path v

/-- Whether a document sets the path of the table. -/
def namesTable (d : Toml.Document) : Bool :=
  match Toml.Entries.get? "universe" d.entries with
  | some (.table es) => (Toml.Entries.get? "table" es).isSome
  | _ => false

/-- Reads a manifest from a text. -/
def parse (text : String) : Except Malformed Manifest :=
  match Toml.Document.parse text with
  | none => .error .syntactic
  | some d =>
    match d.read readEntries with
    | none => .error .syntactic
    | some (m, unused) =>
      if !unused.isEmpty then .error (.unknownKeys (unused.map Toml.writeKey))
      else if namesTable d && Text.trim m.table = "" then .error .blankTable
      else .ok m

/-- The manifest of a new directory. -/
def initial (table : String) : String :=
  "# typeconv manifest\n[universe]\ntable = " ++ Text.quote table ++ "\nallow_unsafe = false\nasymmetric = false\n"

end Manifest

end Coercion.Command
