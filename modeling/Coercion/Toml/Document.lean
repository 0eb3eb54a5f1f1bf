import Coercion.Toml.Expr

/-!
# TOML documents

A document is built statement by statement.  The draft of it keeps the tables made so far, the table that assignments
go into, and two facts about keys that decide whether one may be given again: a key holding an array may be
replaced, and a table that was only mentioned on the way to another one may be opened once.  All keys are kept in the
order in which they were written.
-/

namespace Coercion.Toml

/-- The value of a key. -/
inductive Value where
  | string (s : String)
  | integer (text : String)
  | float (text : String)
  | bool (b : Bool)
  | datetime (text : String)
  | array (items : List Value)
  | table (entries : List (String × Value))
  /-- The tables of `[[key]]` headers. -/
  | tables (items : List (List (String × Value)))
  deriving Inhabited

/-- The entries of a table, by first appearance of their keys. -/
abbrev Entries := List (String × Value)

namespace Entries

/-- The value of a key. -/
def get? (k : String) (es : Entries) : Option Value := es.lookup k

/-- Sets the value of a key, in place when it has one. -/
def set (k : String) (v : Value) : Entries → Entries
  | [] => [(k, v)]
  | (k', v') :: es => if k' = k then (k, v) :: es else (k', v') :: set k v es

/-- Changes the table at a path; an array of tables stands for its last one. -/
def modifyAt : Key → (Entries → Option Entries) → Entries → Option Entries
  | [], f, es => f es
  | k :: path, f, es =>
    match get? k es with
    | some (.table sub) => (modifyAt path f sub).map fun sub => set k (.table sub) es
    | some (.tables items) =>
      match items.getLast? with
      | some last => (modifyAt path f last).map fun last => set k (.tables (items.dropLast ++ [last])) es
      | none => none
    | _ => none

end Entries

/-- A document under construction. -/
structure Draft where
  root : Entries := []
  /-- The table that assignments go into. -/
  context : Key := []
  /-- The keys whose value is an array. -/
  arrays : List Key := []
  /-- The tables that were only mentioned so far. -/
  implicit : List Key := []
  /-- The written keys, the last one first. -/
  written : List Key := []

namespace Draft

/-- Notes that a table was only mentioned. -/
def addImplicit (path : Key) (d : Draft) : Draft := { d with implicit := path :: d.implicit }

/-- Notes that a table is no longer only mentioned. -/
def removeImplicit (path : Key) (d : Draft) : Draft := { d with implicit := d.implicit.filter (· != path) }

/-- Notes a written key. -/
def addWritten (path : Key) (d : Draft) : Draft := { d with written := path :: d.written }

/-- The path of a key in the current table. -/
def pathOf (d : Draft) (k : String) : Key := d.context ++ [k]

/-- Notes whether the value of a key of the current table is an array.  The empty key stands for the current table
itself, unless that is the whole document. -/
def markArray (k : String) (isArray : Bool) (d : Draft) : Draft :=
  let path := if k = "" && !d.context.isEmpty then d.context else d.pathOf k
  let others := d.arrays.filter (· != path)
  { d with arrays := if isArray then path :: others else others }

/-- The table at a path. -/
def entriesAt : Key → Entries → Option Entries
  | [], es => some es
  | k :: path, es =>
    match Entries.get? k es with
    | some (.table sub) => entriesAt path sub
    | some (.tables items) => items.getLast?.bind (entriesAt path)
    | _ => none

/-- Gives a key of the current table a value.  A key that has one must hold an array, which is replaced, or a table
that was only mentioned, which is kept and from then on counts as opened. -/
def setValue (k : String) (v : Value) (d : Draft) : Option Draft := do
  let path := d.pathOf k
  let es ← entriesAt d.context d.root
  if (Entries.get? k es).isSome then
    if d.arrays.contains path then
      let root ← Entries.modifyAt d.context (fun es => some (Entries.set k v es)) d.root
      return { d with root }.removeImplicit path
    else if d.implicit.contains path then return d.removeImplicit path
    else none
  else
    let root ← Entries.modifyAt d.context (fun es => some (Entries.set k v es)) d.root
    return { d with root }

/-- Makes the tables on the way to a key that are missing; `before` is the path of the table `path` starts in. -/
def mention (before : Key) : Key → Draft → Option Draft
  | [], d => some d
  | k :: path, d => do
    let es ← entriesAt before d.root
    let here := before ++ [k]
    match Entries.get? k es with
    | none =>
      let root ← Entries.modifyAt before (fun es => some (Entries.set k (.table []) es)) d.root
      mention here path ({ d with root }.addImplicit here)
    | some (.table _) | some (.tables _) => mention here path d
    | some _ => none

/-- Adds a table to the array of tables at a key. -/
def appendTable (k : String) (es : Entries) : Option Entries :=
  match Entries.get? k es with
  | none => some (Entries.set k (.tables [[]]) es)
  | some (.tables items) => some (Entries.set k (.tables (items ++ [[]])) es)
  | some _ => none

/-- Opens the table at a path, as a further table of an array if `asItem`. -/
def openTable (path : Key) (asItem : Bool) (d : Draft) : Option Draft := do
  let outer := path.dropLast
  let k := path.getLastD ""
  let d ← mention [] outer d
  let d := { d with context := outer }
  let d ←
    if asItem then do
      let root ← Entries.modifyAt outer (appendTable k) d.root
      pure { d with root }
    else d.setValue k (.table [])
  return { d with context := path }

/-- Opens the tables of a dotted key, all but its last part. -/
def openParts : Key → Draft → Option Draft
  | [], d => some d
  | k :: parts, d => do
    let path := d.pathOf k
    openParts parts (← (d.addImplicit path).openTable path false)

/-- Whether a value counts as an array. -/
def isArray : Value → Bool
  | .array _ => true
  | _ => false

mutual

/-- The value of an expression given to the key `k`; `inArray` holds for the items of an array. -/
def evaluate (inArray : Bool) (k : String) : Expr → Draft → Option (Value × Draft)
  | .string s, d => some (.string s, d)
  | .integer t, d => some (.integer t, d)
  | .float t, d => some (.float t, d)
  | .bool b, d => some (.bool b, d)
  | .datetime t, d => some (.datetime t, d)
  | .array items, d => do
    let (values, d) ← evaluateItems k items (d.markArray k true)
    return (.array values, d)
  | .inlineTable entries, d => do
    let path := d.pathOf k
    let (es, d') ← evaluateEntries [] entries (← (d.addImplicit path).openTable path inArray)
    return (.table es, { d' with context := d.context })

/-- The values of the items of an array. -/
def evaluateItems (k : String) : List Expr → Draft → Option (List Value × Draft)
  | [], d => some ([], d)
  | e :: rest, d => do
    let (v, d) ← evaluate true k e d
    let (vs, d) ← evaluateItems k rest d
    return (v :: vs, d)

/-- Makes the assignments of an inline table.  The table as a value has the last parts of its keys only. -/
def evaluateEntries (es : Entries) : List (Key × Expr) → Draft → Option (Entries × Draft)
  | [], d => some (es, d)
  | entry :: rest, d => do
    let (k, v, d') ← evaluateEntry entry d
    evaluateEntries (Entries.set k v es) rest { d' with context := d.context }

/-- Makes an assignment, and gives the last part of its key and the value. -/
def evaluateEntry : Key × Expr → Draft → Option (String × Value × Draft)
  | (key, e), d => do
    let k := key.getLastD ""
    let d ← openParts key.dropLast d
    let (v, d) ← evaluate false k e (d.addWritten (d.pathOf k))
    let d ← d.setValue k v
    return (k, v, d.markArray k (isArray v))

end

/-- Adds a statement to a document. -/
def add (d : Draft) : Statement → Option Draft
  | .table key => do
    let d ← d.openTable key false
    return (d.markArray "" false).addWritten key
  | .arrayTable key => do
    let d ← d.openTable key true
    return (d.markArray "" false).addWritten key
  | .assign key e => do
    let (_, _, d') ← evaluateEntry (key, e) d
    return { d' with context := d.context }

end Draft

/-- A document: its entries, and its keys in the order in which they were written. -/
structure Document where
  entries : Entries
  keys : List Key

/-- Reads a document. -/
def Document.parse (text : String) : Option Document := do
  let d ← (← statements text).foldlM Draft.add {}
  return ⟨d.root, d.written.reverse⟩

end Coercion.Toml
