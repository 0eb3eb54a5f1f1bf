import Coercion.Table.Basic
import Coercion.Text.Natural
import Coercion.Yaml.Node
import Coercion.Yaml.Printer

/-!
# Type tables in YAML

The first document of a text is read.  Scalars of every type are texts with their spelling, a null leaves a field
empty and is no entry of a list, and a key without a field is refused.  Writing leaves out aliases and functions if
there are none, and writes other lists also if they are not given.
-/

namespace Coercion.Table

open Yaml (Node ScalarType Layout)

/-! ### Values -/

/-- The node that an alias stands for. -/
def deref : Node → Option Node
  | .alias _ target => target
  | n => some n

/-- The text of a scalar, if it is not null. -/
def scalarText (text : String) (plain : Bool) (tag : String) : Option (Option String) :=
  if tag = "" ∨ tag = "!" then
    if !plain then some (some text)
    else if text = "<<" then none
    else if ScalarType.ofPlain text = .null then some none
    else some (some text)
  else if tag = "!!str" then some (some text)
  else if tag = "!!binary" then (Yaml.base64Text? text).map some
  else if ScalarType.admits tag text then
    if ScalarType.ofPlain text = .null then some none else some (some text)
  else none

/-- A text, if the node is not null. -/
def nodeText (n : Node) : Option (Option String) := do
  match ← deref n with
  | .scalar text plain tag => scalarText text plain tag
  | _ => none

/-- Whether a node is null. -/
def isNull (n : Node) : Bool :=
  match n with
  | .scalar text plain tag => scalarText text plain tag == some none
  | _ => false

/-- A list, if the node is not null; nulls in it are left out. -/
def nodeList {α : Type} (item : Node → Option (Option α)) (n : Node) : Option (Option (List α)) := do
  let n ← deref n
  match n with
  | .sequence items => return some ((← items.mapM item).filterMap id)
  | _ => if isNull n then return none else none

/-! ### Mappings -/

/-- What distinguishes the keys of a mapping: the kind of a node, and its spelling if it is one word. -/
def keyMark : Node → Nat × String
  | .scalar text _ _ => (0, text)
  | .sequence _ => (1, "")
  | .mapping _ => (2, "")
  | .alias name _ => (3, name)

/-- Whether a key asks for the entries of other mappings. -/
def isMergeKey : Node → Bool
  | .scalar "<<" true tag => tag == "" || tag == "!" || tag == "!!merge"
  | .scalar "<<" false tag => tag == "!!merge"
  | _ => false

/-- Whether a key is a text and not a number or another value. -/
def isTextKey (n : Node) : Bool :=
  match deref n with
  | some (.scalar text plain tag) => !plain || tag == "!!str" || ScalarType.ofPlain text == .text
  | _ => false

/-- The mappings that a merge key asks for. -/
def mergeTargets (n : Node) : Option (List (List (Node × Node))) :=
  let entries (n : Node) : Option (List (Node × Node)) := do
    match ← deref n with
    | .mapping es => some es
    | _ => none
  match n with
  | .sequence items => items.mapM entries
  | _ => (entries n).map ([·])

/-- The entries of a mapping by the text of their key, without those whose key is null.  Entries of other mappings
that it asks for come last, as far as their keys are not taken.  `taken` is given for such another mapping. -/
def fields : (fuel : Nat) → (taken : Option (List String)) → List (Node × Node) →
    Option (List (String × Node) × List String)
  | 0, _, _ => none
  | fuel + 1, taken, es => do
    if !decide (es.map fun e => keyMark e.1).Nodup then none
    else do
      let own ← (es.filter fun e => !isMergeKey e.1).mapM fun (k, v) => (nodeText k).map fun s => (k, s, v)
      let own := own.filterMap fun (k, s?, v) => s?.map fun s => (s, v, isTextKey k)
      let (own, taken) := match taken with
        | some taken =>
          own.foldl
            (fun (acc : List (String × Node) × List String) (s, v, _) =>
              if acc.2.contains s then acc else (acc.1 ++ [(s, v)], s :: acc.2))
            ([], taken)
        | none =>
          (own.map fun (s, v, _) => (s, v), (own.filter fun (_, _, isText) => isText).map fun (s, _, _) => s)
      match es.find? fun (e : Node × Node) => isMergeKey e.1 with
      | none => return (own, taken)
      | some (_, v) =>
        (← mergeTargets v).foldlM
          (fun (acc : List (String × Node) × List String) es => do
            let (more, taken) ← fields fuel (some acc.2) es
            return (acc.1 ++ more, taken))
          (own, taken)

/-- A record, field by field, if the node is not null.  No field is given twice. -/
def nodeRecord {α : Type} (fuel : Nat) (start : α) (put : α → String → Node → Option α) (n : Node) :
    Option (Option α) := do
  let n ← deref n
  match n with
  | .mapping es => do
    let (fs, _) ← fields fuel none es
    if !decide (fs.map (·.1)).Nodup then none
    else return some (← fs.foldlM (fun a (k, v) => put a k v) start)
  | _ => if isNull n then return none else none

/-- A map of texts, if the node is not null; the last entry of a key counts. -/
def nodeMap (fuel : Nat) (n : Node) : Option (Option (List (String × String))) := do
  let n ← deref n
  match n with
  | .mapping es => do
    let (fs, _) ← fields fuel none es
    return some (← fs.foldlM
      (fun acc (k, v) => do
        let s := (← nodeText v).getD ""
        return if acc.any (·.1 == k) then acc.map fun e => if e.1 = k then (k, s) else e else acc ++ [(k, s)])
      [])
  | _ => if isNull n then return none else none

/-! ### Tables -/

/-- Reads the declaration of a conversion. -/
def ruleOfNode (fuel : Nat) : Node → Option (Option Rule) :=
  nodeRecord fuel {} fun r field v => do
    let s := (← nodeText v).getD ""
    match field with
    | "from" => some { r with source := s }
    | "to" => some { r with target := s }
    | "kind" => some { r with kind := s }
    | "reverse" => some { r with reverse := s }
    | _ => none

/-- Reads the declaration of a function. -/
def functionOfNode (fuel : Nat) : Node → Option (Option Overloaded) :=
  nodeRecord fuel {} fun f field v => do
    match field with
    | "name" => return { f with name := (← nodeText v).getD "" }
    | "overloads" => return { f with overloads? := ← nodeList nodeText v }
    | _ => none

/-- Reads a table. -/
def ofNode (fuel : Nat) : Node → Option (Option Table) :=
  nodeRecord fuel {} fun t field v => do
    match field with
    | "name" => return { t with name := (← nodeText v).getD "" }
    | "types" => return { t with types? := ← nodeList nodeText v }
    | "aliases" => return { t with aliases? := ← nodeMap fuel v }
    | "rules" => return { t with rules? := ← nodeList (ruleOfNode fuel) v }
    | "functions" => return { t with functions? := ← nodeList (functionOfNode fuel) v }
    | _ => none

/-- Reads a table from a text. -/
def ofYaml (text : String) : Except Malformed Table :=
  match (Node.parse text).bind (ofNode (text.length + 1)) with
  | none => .error (.syntactic .yaml)
  | some t =>
    let t := t.getD {}
    if t.types.isEmpty then .error .missingTypes else .ok t

/-- A table as a layout. -/
def layout (t : Table) : List (String × Layout) :=
  let texts (l : List String) : Layout := .list (l.map .text)
  let aliases := t.aliases.mergeSort fun a b => !Text.naturalLt b.1 a.1
  let rule (r : Rule) : Layout := .record <|
    [("from", .text r.source), ("to", .text r.target), ("kind", .text r.kind)] ++
      if r.reverse = "" then [] else [("reverse", .text r.reverse)]
  let function (f : Overloaded) : Layout := .record [("name", .text f.name), ("overloads", texts f.overloads)]
  [("name", .text t.name), ("types", texts t.types)] ++
    (if aliases.isEmpty then [] else [("aliases", .record (aliases.map fun (k, v) => (k, .text v)))]) ++
    [("rules", .list (t.rules.map rule))] ++
    if t.functions.isEmpty then [] else [("functions", .list (t.functions.map function))]

/-- A table as a text. -/
def toYaml (t : Table) : String := Yaml.writeFields 0 t.layout

end Coercion.Table
