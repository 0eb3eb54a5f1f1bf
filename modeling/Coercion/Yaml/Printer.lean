import Coercion.Text.Quoted
import Coercion.Yaml.Cursor
import Coercion.Yaml.Scalar

/-!
# Writing YAML

Collections are written in block style, indented by four.  A text is written plain where it reads back as itself,
over several lines where it has line feeds, between single quotes where only indicators or outer blanks forbid
the plain form, and between double quotes with escapes otherwise.
-/

namespace Coercion.Yaml

/-! ### What a text needs -/

/-- A character that may be written as it is. -/
def isPlainChar (c : Char) : Bool :=
  let n := c.toNat
  n == 10 || (0x20 ≤ n && n ≤ 0x7e) || (0xa0 ≤ n && n ≤ 0xd7ff) || (0xe000 ≤ n && n ≤ 0xfffd && n != 0xfeff)

/-- Whether some character satisfies `p` and the one behind it `q`. -/
def hasNeighbours (p q : Char → Bool) (cs : List Char) : Bool :=
  (cs.zip cs.tail).any fun (a, b) => p a && q b

/-- A blank of the first kind. -/
def isSpaceChar (c : Char) : Bool := c == ' '

/-- Whether a text has characters that need escapes, tabs apart. -/
def needsEscapes (cs : List Char) : Bool := cs.any fun c => c != '\t' && !isPlainChar c

/-- Whether a text starts with an indicator of block style. -/
def startsAsIndicator (cs : List Char) : Bool :=
  match cs with
  | [] => false
  | c :: r =>
    let gap := match r with
      | [] => true
      | d :: _ => isBlank d
    ",[]\x7b\x7d#&*!|>'\"%@".toList.contains c || c.toNat == 0x60 || ((c == '?' || c == ':' || c == '-') && gap) ||
      cs.take 3 == ['-', '-', '-'] || cs.take 3 == ['.', '.', '.']

/-- Whether a text has a `:` before a blank or its end, or a `#` behind a blank. -/
def hasIndicator (cs : List Char) : Bool :=
  hasNeighbours (· == ':') isBlank cs || cs.getLast? == some ':' ||
    hasNeighbours (fun c => isBlank c || isBreak c) (· == '#') cs

/-- Whether a text starts or ends with a character of a kind. -/
def hasOuter (p : Char → Bool) (cs : List Char) : Bool :=
  (cs.head?.map p).getD false || (cs.getLast?.map p).getD false

/-- Whether a text may be written plain in block style. -/
def plainAllowed (cs : List Char) : Bool :=
  !(hasOuter isSpaceChar cs || cs.any isBreak || cs.contains '\t' || needsEscapes cs || startsAsIndicator cs ||
    hasIndicator cs)

/-- Whether a text may be written between single quotes. -/
def singleAllowed (cs : List Char) : Bool :=
  !(hasNeighbours isBreak isSpaceChar cs || hasNeighbours isSpaceChar isBreak cs || cs.contains '\t' ||
    needsEscapes cs)

/-- Whether a text may be written over several lines. -/
def blockAllowed (cs : List Char) : Bool :=
  !(cs.isEmpty || cs.getLast? == some ' ' || hasNeighbours isSpaceChar isBreak cs || needsEscapes cs)

/-- Whether this is a number in base sixty, which some readers know. -/
def isBaseSixty (cs : List Char) : Bool :=
  let (_, body) := Number.splitSign cs
  let (whole, fraction) := (body.takeWhile (· != '.'), body.dropWhile (· != '.'))
  match Text.splitChars ':' whole with
  | first :: p :: parts =>
    (first.head?.map Number.isDigit).getD false && first.all (fun c => Number.isDigit c || c == '_') &&
      (p :: parts).all (fun d =>
        match d with
        | [a] => Number.isDigit a
        | [a, b] => '0' ≤ a && a ≤ '5' && Number.isDigit b
        | _ => false) &&
      (fraction.drop 1).all fun c => Number.isDigit c || c == '_'
  | _ => false

/-- Whether this is a truth value for some readers. -/
def isOldBool (s : String) : Bool :=
  ["y", "Y", "yes", "Yes", "YES", "on", "On", "ON", "n", "N", "no", "No", "NO", "off", "Off", "OFF"].contains s

/-! ### Styles -/

/-- The styles of written texts. -/
inductive Style where
  | plain
  | single
  | double
  | block
  deriving DecidableEq

/-- The style of a text; an implicit key stays on its line. -/
def styleOf (implicitKey : Bool) (s : String) : Style :=
  let cs := s.toList
  if cs.contains '\n' then if implicitKey || !blockAllowed cs then .double else .block
  else if implicitKey && cs.any isBreak then .double
  else if ScalarType.ofPlain s != .text || isBaseSixty cs || isOldBool s then .double
  else if plainAllowed cs then .plain
  else if singleAllowed cs then .single
  else .double

/-- A number in hexadecimal with capital letters. -/
def hexUpper (width n : Nat) : List Char := (Text.hexPadded width n).map Char.toUpper

/-- A character between double quotes. -/
def escapeChar (c : Char) : List Char :=
  match c.toNat with
  | 0x00 => ['\\', '0']
  | 0x07 => ['\\', 'a']
  | 0x08 => ['\\', 'b']
  | 0x09 => ['\\', 't']
  | 0x0a => ['\\', 'n']
  | 0x0b => ['\\', 'v']
  | 0x0c => ['\\', 'f']
  | 0x0d => ['\\', 'r']
  | 0x1b => ['\\', 'e']
  | 0x22 => ['\\', '"']
  | 0x5c => ['\\', '\\']
  | 0x85 => ['\\', 'N']
  | 0x2028 => ['\\', 'L']
  | 0x2029 => ['\\', 'P']
  | n =>
    if isPlainChar c then [c]
    else if n ≤ 0xff then '\\' :: 'x' :: hexUpper 2 n
    else if n ≤ 0xffff then '\\' :: 'u' :: hexUpper 4 n
    else '\\' :: 'U' :: hexUpper 8 n

/-- A text between double quotes. -/
def writeDouble (cs : List Char) : List Char := '"' :: (cs.flatMap escapeChar ++ ['"'])

/-- The characters of a text between single quotes; a line that follows a separator is indented. -/
def singleChars (indent : Nat) (broken : Bool) : List Char → List Char
  | [] => []
  | c :: cs =>
    if isBreak c then c :: singleChars indent true cs
    else
      (if broken then List.replicate indent ' ' else []) ++ (if c == '\'' then ['\'', '\''] else [c]) ++
        singleChars indent false cs

/-- The characters of a text over several lines; every line that is not empty is indented. -/
def blockChars (indent : Nat) (broken : Bool) : List Char → List Char
  | [] => []
  | c :: cs =>
    if isBreak c then c :: blockChars indent true cs
    else (if broken then List.replicate indent ' ' else []) ++ c :: blockChars indent false cs

/-- The mark of how a text over several lines ends: without a line end, or with more than one. -/
def chompingMark (cs : List Char) : List Char :=
  match cs.reverse with
  | [] => ['-']
  | [c] => if isBreak c then ['+'] else ['-']
  | c :: d :: _ => if !isBreak c then ['-'] else if isBreak d then ['+'] else []

/-- A text over several lines.  A line end at its start stands in place of the one behind the header. -/
def writeBlock (indent : Nat) (cs : List Char) : List Char :=
  let startsBroken := (cs.head?.map isBreak).getD false
  let hint := if startsBroken || cs.head? == some ' ' then ['4'] else []
  '|' :: (hint ++ chompingMark cs ++ (if startsBroken then [] else ['\n']) ++ blockChars indent true cs)

/-- A text in a style. -/
def writeText (style : Style) (indent : Nat) (s : String) : String :=
  let cs := s.toList
  String.ofList
    (match style with
    | .plain => cs
    | .single => '\'' :: (singleChars indent false cs ++ ['\''])
    | .double => writeDouble cs
    | .block => writeBlock indent cs)

/-! ### Collections -/

/-- What is written. -/
inductive Layout where
  | text (s : String)
  | list (items : List Layout)
  | record (fields : List (String × Layout))

/-- The next level of indentation. -/
def deeper (indent : Nat) : Nat := 4 * ((indent + 4) / 4)

/-- Spaces up to a column. -/
def margin (indent : Nat) : String := String.ofList (List.replicate indent ' ')

/-- Ends a line that has not ended. -/
def endLine (s : String) : String :=
  match s.toList.getLast? with
  | some c => if isBreak c then s else s ++ "\n"
  | none => "\n"

/-- A key at an indentation with the mark of its value.  A key that is long or goes over several lines has a mark of
its own. -/
def writeKey (indent : Nat) (k : String) : String :=
  if k.toList.any isBreak || 128 < k.utf8ByteSize then
    endLine ("? " ++ writeText (styleOf false k) (deeper indent) k) ++ margin indent ++ ":"
  else writeText (styleOf true k) (deeper indent) k ++ ":"

mutual

/-- A value behind the key of a mapping at an indentation. -/
def writeValue (indent : Nat) : Layout → String
  | .text s => endLine (" " ++ writeText (styleOf false s) (deeper indent) s)
  | .list [] => " []\n"
  | .list (i :: is) => "\n" ++ margin (deeper indent) ++ writeItems (deeper indent) (i :: is)
  | .record [] => " \x7b\x7d\n"
  | .record (f :: fs) => "\n" ++ margin (deeper indent) ++ writeFields (deeper indent) (f :: fs)

/-- An entry of a sequence at an indentation, behind its mark. -/
def writeItem (indent : Nat) : Layout → String
  | .text s => endLine (writeText (styleOf false s) (indent + 2) s)
  | .list [] => "[]\n"
  | .list (i :: is) => writeItems (indent + 2) (i :: is)
  | .record [] => "\x7b\x7d\n"
  | .record (f :: fs) => writeFields (indent + 2) (f :: fs)

/-- The entries of a sequence whose first line is already indented. -/
def writeItems (indent : Nat) : List Layout → String
  | [] => ""
  | [i] => "- " ++ writeItem indent i
  | i :: is => "- " ++ writeItem indent i ++ margin indent ++ writeItems indent is

/-- The entries of a mapping whose first line is already indented. -/
def writeFields (indent : Nat) : List (String × Layout) → String
  | [] => ""
  | [f] => writeField indent f
  | f :: fs => writeField indent f ++ margin indent ++ writeFields indent fs

/-- An entry of a mapping. -/
def writeField (indent : Nat) : String × Layout → String
  | (k, v) => writeKey indent k ++ writeValue indent v

end

end Coercion.Yaml
