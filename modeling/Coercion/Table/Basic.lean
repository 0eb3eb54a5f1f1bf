import Coercion.Text.Quoted

/-!
# Type tables

A type table declares a universe of types: their names, further names for some of them, the conversions between them
and the functions that are overloaded on them.  Nothing in a table has been checked yet.

A list of a table is given, perhaps empty, or it is not.  Both declare the same, but a table is written and read with
the difference.
-/

namespace Coercion

/-- The declaration of a conversion from `source` to `target`, and of the conversion back if `reverse` is not empty. -/
structure Rule where
  source : String := ""
  target : String := ""
  kind : String := ""
  reverse : String := ""
  deriving DecidableEq, Inhabited

/-- The declaration of an overloaded function; an overload is a list of type names between commas. -/
structure Overloaded where
  name : String := ""
  overloads? : Option (List String) := none
  deriving DecidableEq, Inhabited

/-- The overloads of a function. -/
def Overloaded.overloads (f : Overloaded) : List String := f.overloads?.getD []

/-- A type table. -/
structure Table where
  name : String := ""
  types? : Option (List String) := none
  /-- Further names, each with the name it stands for; no name occurs twice. -/
  aliases? : Option (List (String × String)) := none
  rules? : Option (List Rule) := none
  functions? : Option (List Overloaded) := none
  deriving DecidableEq, Inhabited

namespace Table

/-- The names of the types. -/
def types (t : Table) : List String := t.types?.getD []

/-- The further names, each with the name it stands for. -/
def aliases (t : Table) : List (String × String) := t.aliases?.getD []

/-- The conversions. -/
def rules (t : Table) : List Rule := t.rules?.getD []

/-- The overloaded functions. -/
def functions (t : Table) : List Overloaded := t.functions?.getD []

/-- The formats of a table. -/
inductive Format where
  | toml
  | yaml
  deriving DecidableEq

/-- The name of a format. -/
def Format.name : Format → String
  | toml => "TOML"
  | yaml => "YAML"

/-- Why a text is no table. -/
inductive Malformed where
  /-- The text is not of the format, or a value has the wrong shape. -/
  | syntactic (format : Format)
  | unknownKey (key : String)
  | missingTypes
  deriving DecidableEq

/-- The wording of a refusal, which starts with the path of the table. -/
def Malformed.message (path : String) : Malformed → String
  | .syntactic f => path ++ ": failed to parse " ++ f.name
  | .unknownKey k => path ++ ": unknown key " ++ Text.quote k
  | .missingTypes => path ++ ": missing types"

/-- The aliases by name, in the order of code points. -/
def sortedAliases (t : Table) : List (String × String) :=
  t.aliases.mergeSort fun a b => a.1 ≤ b.1

end Table

end Coercion
