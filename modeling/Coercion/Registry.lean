import Coercion.Text.Blank
import Coercion.Text.Normal
import Coercion.Text.Quoted
import Coercion.TypeId
import Std.Data.HashMap

/-!
# The registry of type names

Types are numbered in the order of their declaration, from zero.  An alias is a further name of a declared type.
Names are compared after blanks around them are removed and their characters composed.
-/

namespace Coercion

/-- Declared names by number, and the types of all names. -/
structure Registry where
  names : Array String := #[]
  index : Std.HashMap String TypeId := ∅
  deriving Inhabited

namespace Registry

/-- The registry without names. -/
def empty : Registry := {}

/-- Why a name is refused. -/
inductive Refusal where
  | emptyName
  | emptyAlias
  /-- All identifiers are taken. -/
  | outOfRange (e : TypeId.OutOfRange)
  | duplicate (name : String)
  | duplicateAlias (name : String)
  | unknown (name : String)
  /-- The target of an alias is unknown. -/
  | unknownTarget (name target : String)
  deriving DecidableEq

namespace Refusal

/-- The wording of a refusal. -/
def message : Refusal → String
  | emptyName => "empty type name"
  | emptyAlias => "empty alias name"
  | outOfRange e => e.message
  | duplicate n => "duplicate type: " ++ Text.quote n
  | duplicateAlias n => "duplicate type: alias " ++ Text.quote n
  | unknown n => "unknown type: " ++ Text.quote n
  | unknownTarget a t => "alias " ++ Text.quote a ++ ": unknown type: " ++ Text.quote t

/-- Whether a name was taken. -/
def isDuplicate : Refusal → Bool
  | duplicate _ | duplicateAlias _ => true
  | _ => false

/-- Whether a name had no type. -/
def isUnknown : Refusal → Bool
  | unknown _ | unknownTarget _ _ => true
  | _ => false

end Refusal

/-- The form in which names are compared. -/
def normalize (name : String) : String := Text.normal (Text.trim name)

/-- The number of declared types. -/
def size (r : Registry) : Nat := r.names.size

/-- The type with a number. -/
def typeOf (n : Nat) : TypeId := ⟨Int32.ofNat n⟩

/-- The type of a name or an alias. -/
def lookup (r : Registry) (name : String) : Except Refusal TypeId :=
  let key := normalize name
  match r.index[key]? with
  | some t => .ok t
  | none => .error (.unknown key)

/-- Declares a new type, as long as there are identifiers. -/
def declare (r : Registry) (name : String) : Except Refusal (TypeId × Registry) :=
  let key := normalize name
  if key = "" then .error .emptyName
  else if r.index.contains key then .error (.duplicate key)
  else
    match TypeId.ofInt r.size with
    | .error e => .error (.outOfRange e)
    | .ok t => .ok (t, ⟨r.names.push key, r.index.insert key t⟩)

/-- Makes a further name for the type of `target`. -/
def addAlias (r : Registry) (name target : String) : Except Refusal Registry :=
  let key := normalize name
  if key = "" then .error .emptyAlias
  else if r.index.contains key then .error (.duplicateAlias key)
  else
    match r.index[normalize target]? with
    | some t => .ok { r with index := r.index.insert key t }
    | none => .error (.unknownTarget key (normalize target))

/-- The declared name of a type; a type without one shows its number. -/
def name (r : Registry) (t : TypeId) : String :=
  if t.valid then r.names.getD t.id.toInt.toNat t.render else t.render

/-- A signature by names, as `(a, b)`. -/
def nameAll (r : Registry) (sig : Signature) : String :=
  "(" ++ ", ".intercalate (sig.map r.name) ++ ")"

/-- Removes an opening parenthesis at the start and a closing one at the end. -/
def stripParens (cs : List Char) : List Char :=
  let opened := match cs with
    | '(' :: rest => rest
    | _ => cs
  match opened.getLast? with
  | some ')' => opened.dropLast
  | _ => opened

/-- Reads a list of names between commas, with or without parentheses around it; an empty list has no types. -/
def parseSignature (r : Registry) (s : String) : Except Refusal Signature :=
  let inner := stripParens (Text.trimChars s.toList)
  if (Text.trimChars inner).isEmpty then .ok []
  else (Text.splitChars ',' inner).mapM fun part => r.lookup (String.ofList part)

/-- The declared types, in the order of their declaration. -/
def types (r : Registry) : List TypeId := r.names.toList.map fun n => r.index.getD n default

end Registry

end Coercion
