import Coercion.Text.Keyword
import Coercion.Text.Quoted
import Coercion.Toml.Document

/-!
# Records in TOML documents

A record is read from the entries of a table.  Names of fields are compared without regard to case, keys without a
field are passed over, and a value of the wrong shape fails.  The reading keeps the paths of the keys it used, so that
the others can be reported in the order of the document.
-/

namespace Coercion.Toml

/-- A reading of values, with the paths of the keys it used. -/
abbrev Reading := StateT (List Key) Option

namespace Reading

/-- A text. -/
def string : Value → Reading String
  | .string s => pure s
  | _ => failure

/-- A truth value. -/
def bool : Value → Reading Bool
  | .bool b => pure b
  | _ => failure

/-- A list, also of the tables of headers. -/
def list {α : Type} (item : Value → Reading α) : Value → Reading (List α)
  | .array vs => vs.mapM item
  | .tables ts => ts.mapM fun t => item (.table t)
  | _ => failure

/-- A map from keys; what is no table is passed over. -/
def map {α : Type} (path : Key) (item : Value → Reading α) : Value → Reading (Option (List (String × α)))
  | .table es => return some (← es.mapM fun (k, v) => do
    modify ((path ++ [k]) :: ·)
    return (k, ← item v))
  | _ => pure none

/-- The field that a key means: the one of that name, or else the first one of that name in another case. -/
def field? (fields : List String) (k : String) : Option String :=
  (fields.find? (· == k)).or (fields.find? (Text.equalFold k))

/-- A record, field by field: `put` takes in the value of a field. -/
def record {α : Type} (path : Key) (fields : List String) (start : α) (put : α → String → Key → Value → Reading α) :
    Value → Reading α
  | .table es =>
    es.foldlM
      (fun acc (k, v) =>
        match field? fields k with
        | some f => do
          modify ((path ++ [k]) :: ·)
          put acc f (path ++ [k]) v
        | none => pure acc)
      start
  | _ => failure

end Reading

/-- The characters of a text inside double quotes. -/
def escapeBasic (cs : List Char) : List Char :=
  cs.flatMap fun c =>
    match c with
    | '"' => ['\\', '"']
    | '\\' => ['\\', '\\']
    | '\x08' => ['\\', 'b']
    | '\t' => ['\\', 't']
    | '\n' => ['\\', 'n']
    | '\x0c' => ['\\', 'f']
    | '\r' => ['\\', 'r']
    | c => if c.toNat < 0x20 ∨ c.toNat = 0x7f then '\\' :: 'u' :: Text.hexPadded 4 c.toNat else [c]

/-- A text as a basic string. -/
def writeString (s : String) : String :=
  String.ofList ('"' :: (escapeBasic s.toList ++ ['"']))

/-- A part of a key, in quotes only where it needs them. -/
def writeKeyPart (k : String) : String :=
  if k ≠ "" ∧ k.toList.all isBareKey then k else writeString k

/-- A dotted key. -/
def writeKey (key : Key) : String := ".".intercalate (key.map writeKeyPart)

/-- The result of a reading and the keys of the document that it did not use. -/
def Document.read {α : Type} (d : Document) (reading : Value → Reading α) : Option (α × List Key) := do
  let (a, used) ← (reading (.table d.entries)).run []
  return (a, d.keys.filter (!used.contains ·))

end Coercion.Toml
