import Coercion.Number.Decimal

/-!
# JSON documents

Values and two writers: compact, and indented by two spaces a level.  Fields keep the order in which they are given.
Texts are written so that they can stand inside markup: `<`, `>`, `&` and the two Unicode line separators are escaped.
-/

namespace Coercion

/-- A JSON value. -/
inductive Json where
  | null
  | bool (b : Bool)
  | int (n : Int)
  | float (x : Binary64)
  | string (s : String)
  | array (items : List Json)
  | object (fields : List (String × Json))
  deriving Inhabited

namespace Json

/-- One character of a JSON text. -/
def escapeChar (c : Char) : List Char :=
  match c with
  | '"' => ['\\', '"']
  | '\\' => ['\\', '\\']
  | '\n' => ['\\', 'n']
  | '\r' => ['\\', 'r']
  | '\t' => ['\\', 't']
  | _ =>
    let n := c.toNat
    if n = 0x08 then ['\\', 'b']
    else if n = 0x0c then ['\\', 'f']
    else if n < 0x20 || c == '<' || c == '>' || c == '&' || n == 0x2028 || n == 0x2029 then
      '\\' :: 'u' :: Text.hexPadded 4 n
    else [c]

/-- A JSON text. -/
def quoteText (s : String) : String :=
  String.ofList ('"' :: (s.toList.flatMap escapeChar ++ ['"']))

/-- The text of a value without parts. -/
def scalarText : Json → String
  | null => "null"
  | bool b => if b then "true" else "false"
  | int n => toString n
  | float x => x.shortestText
  | string s => quoteText s
  | array _ => "[]"
  | object _ => "\x7b\x7d"

mutual

/-- A value on one line without blanks. -/
def compact : Json → String
  | array items => "[" ++ compactItems items ++ "]"
  | object fields => "\x7b" ++ compactFields fields ++ "\x7d"
  | v => v.scalarText

/-- The items of an array, separated by commas. -/
def compactItems : List Json → String
  | [] => ""
  | [v] => v.compact
  | v :: rest => v.compact ++ "," ++ compactItems rest

/-- The fields of an object, separated by commas. -/
def compactFields : List (String × Json) → String
  | [] => ""
  | [(k, v)] => quoteText k ++ ":" ++ v.compact
  | (k, v) :: rest => quoteText k ++ ":" ++ v.compact ++ "," ++ compactFields rest

end

/-- The start of a line at a level of nesting. -/
def newLine (depth : Nat) : String :=
  "\n" ++ String.ofList (List.replicate (2 * depth) ' ')

mutual

/-- A value whose parts stand on lines of their own, one level deeper than `depth`. -/
def prettyAt (depth : Nat) : Json → String
  | array items =>
    if items.isEmpty then "[]" else "[" ++ prettyItems (depth + 1) items ++ newLine depth ++ "]"
  | object fields =>
    if fields.isEmpty then "\x7b\x7d"
    else "\x7b" ++ prettyFields (depth + 1) fields ++ newLine depth ++ "\x7d"
  | v => v.scalarText

/-- The items of an array, each on a line of its own. -/
def prettyItems (depth : Nat) : List Json → String
  | [] => ""
  | [v] => newLine depth ++ v.prettyAt depth
  | v :: rest => newLine depth ++ v.prettyAt depth ++ "," ++ prettyItems depth rest

/-- The fields of an object, each on a line of its own. -/
def prettyFields (depth : Nat) : List (String × Json) → String
  | [] => ""
  | [(k, v)] => newLine depth ++ quoteText k ++ ": " ++ v.prettyAt depth
  | (k, v) :: rest => newLine depth ++ quoteText k ++ ": " ++ v.prettyAt depth ++ "," ++ prettyFields depth rest

end

/-- A value indented by two spaces a level. -/
def pretty (v : Json) : String := v.prettyAt 0

end Json

end Coercion
