import Coercion.Number.Calendar
import Coercion.Number.Word

/-!
# TOML source

A document is a list of statements: table headers and assignments.  This module reads them from text.  What the
statements mean together, in particular which of them contradict each other, is left to the document.
-/

namespace Coercion.Toml

open Number (isDigit)

/-- A dotted key. -/
abbrev Key := List String

/-- A written value.  Numbers and dates keep their text, which has been checked. -/
inductive Expr where
  | string (s : String)
  | integer (text : String)
  | float (text : String)
  | bool (b : Bool)
  | datetime (text : String)
  | array (items : List Expr)
  | inlineTable (entries : List (Key × Expr))
  deriving Inhabited

/-- A line of a document. -/
inductive Statement where
  /-- `[key]` -/
  | table (key : Key)
  /-- `[[key]]` -/
  | arrayTable (key : Key)
  /-- `key = value` -/
  | assign (key : Key) (value : Expr)
  deriving Inhabited

/-! ### Characters -/

/-- A space or a tab. -/
def isSpace (c : Char) : Bool := c == ' ' || c == '\t'

/-- A character of a line end. -/
def isLineEnd (c : Char) : Bool := c == '\n' || c == '\r'

/-- A character of a key that needs no quotes. -/
def isBareKey (c : Char) : Bool :=
  isDigit c || ('a' ≤ c && c ≤ 'z') || ('A' ≤ c && c ≤ 'Z') || c == '_' || c == '-'

/-- Whether a text has only admissible characters: no controls but tabs and line ends, and a carriage return only in
front of a line feed. -/
def admissible : List Char → Bool
  | [] => true
  | '\r' :: '\n' :: cs => admissible cs
  | c :: cs => (c == '\t' || c == '\n' || (0x20 ≤ c.toNat && c.toNat != 0x7f)) && admissible cs

/-- Skips spaces and tabs. -/
def skipSpace (cs : List Char) : List Char := cs.dropWhile isSpace

/-- Skips a comment up to the end of its line. -/
def skipComment (cs : List Char) : List Char := cs.dropWhile (!isLineEnd ·)

/-! ### Strings -/

/-- The character of a hexadecimal escape, if it is a character. -/
def escapedChar? (digits : List Char) : Option Char :=
  if digits.all fun c => (Text.hexDigit? c).isSome then
    let n := Text.hexValue digits
    if n < 0xd800 ∨ (0xe000 ≤ n ∧ n < 0x110000) then some (.ofNat n) else none
  else none

/-- The character of a one-letter escape. -/
def simpleEscape? : Char → Option Char
  | 'b' => some '\x08'
  | 't' => some '\t'
  | 'n' => some '\n'
  | 'f' => some '\x0c'
  | 'r' => some '\r'
  | '"' => some '"'
  | '\\' => some '\\'
  | _ => none

/-- Replaces the escapes of a basic string. -/
def unescape : List Char → Option (List Char)
  | [] => some []
  | '\\' :: 'u' :: a :: b :: c :: d :: cs => do
    let e ← escapedChar? [a, b, c, d]
    return e :: (← unescape cs)
  | '\\' :: 'U' :: a :: b :: c :: d :: e :: f :: g :: h :: cs => do
    let e ← escapedChar? [a, b, c, d, e, f, g, h]
    return e :: (← unescape cs)
  | '\\' :: c :: cs => do
    let e ← simpleEscape? c
    return e :: (← unescape cs)
  | ['\\'] => none
  | c :: cs => do return c :: (← unescape cs)

/-- The raw characters of a one-line string up to its closing mark, and what follows it. -/
def lineString (mark : Char) (escapes : Bool) : List Char → Option (List Char × List Char)
  | [] => none
  | '\\' :: c :: cs =>
    if escapes then
      if isLineEnd c then none else (lineString mark escapes cs).map fun (s, r) => ('\\' :: c :: s, r)
    else if c = mark then some (['\\'], cs)
    else if isLineEnd c then none
    else (lineString mark escapes cs).map fun (s, r) => ('\\' :: c :: s, r)
  | c :: cs =>
    if c = mark then some ([], cs)
    else if isLineEnd c then none
    else (lineString mark escapes cs).map fun (s, r) => (c :: s, r)

/-- The raw characters of a string over several lines up to its three closing marks, and what follows them.  Up to two
more marks right before the closing ones belong to the string. -/
def blockString (mark : Char) (escapes : Bool) : List Char → Option (List Char × List Char)
  | [] => none
  | c :: cs =>
    if c = mark then
      let run := (c :: cs).takeWhile (· == mark)
      if 6 ≤ run.length then none
      else if 3 ≤ run.length then some (run.drop 3, (c :: cs).drop run.length)
      else (blockString mark escapes cs).map fun (s, r) => (c :: s, r)
    else if escapes && c == '\\' then
      match cs with
      | [] => none
      | d :: ds => (blockString mark escapes ds).map fun (s, r) => (c :: d :: s, r)
    else (blockString mark escapes cs).map fun (s, r) => (c :: s, r)

/-- Removes a line end at the start. -/
def dropFirstLineEnd : List Char → List Char
  | '\n' :: cs => cs
  | '\r' :: '\n' :: cs => cs
  | cs => cs

/-- A blank of a string over several lines. -/
def isBlockBlank (c : Char) : Bool := isSpace c || isLineEnd c

/-- Joins lines that end in a backslash: the backslash and all blanks behind it go.  `skipping` holds inside such
blanks. -/
def joinLines (skipping : Bool) : List Char → List Char
  | [] => []
  | '\\' :: '\\' :: cs => '\\' :: '\\' :: joinLines false cs
  | c :: cs =>
    if skipping && isBlockBlank c then joinLines true cs
    else if c == '\\' && (cs.takeWhile isBlockBlank).contains '\n' then joinLines true cs
    else c :: joinLines false cs

/-- Reads a string behind its opening mark, which was the first character of a value. -/
def readString (cs : List Char) : Option (Expr × List Char) :=
  match cs with
  | '"' :: '"' :: '"' :: r => do
    let (raw, r) ← blockString '"' true r
    let s ← unescape (joinLines false (dropFirstLineEnd raw))
    return (.string (String.ofList s), r)
  | '"' :: r => do
    let (raw, r) ← lineString '"' true r
    return (.string (String.ofList (← unescape raw)), r)
  | '\'' :: '\'' :: '\'' :: r => do
    let (raw, r) ← blockString '\'' false r
    return (.string (String.ofList (dropFirstLineEnd raw)), r)
  | '\'' :: r => do
    let (raw, r) ← lineString '\'' false r
    return (.string (String.ofList raw), r)
  | _ => none

/-! ### Keys -/

/-- Reads one part of a key. -/
def readKeyPart (cs : List Char) : Option (String × List Char) :=
  match cs with
  | '"' :: r => do
    let (raw, r) ← lineString '"' true r
    return (String.ofList (← unescape raw), r)
  | '\'' :: r => do
    let (raw, r) ← lineString '\'' false r
    return (String.ofList raw, r)
  | _ =>
    let part := cs.takeWhile isBareKey
    if part.isEmpty then none else some (String.ofList part, cs.dropWhile isBareKey)

/-- Reads the parts of a key, separated by points with blanks around them. -/
def readKey : (fuel : Nat) → List Char → Option (Key × List Char)
  | 0, _ => none
  | fuel + 1, cs => do
    let (part, r) ← readKeyPart (skipSpace cs)
    match skipSpace r with
    | '.' :: r => do
      let (rest, r) ← readKey fuel r
      return (part :: rest, r)
    | r => return ([part], r)

/-! ### Numbers and dates -/

/-- Whether underscores stand between digits only. -/
def underscoresOk (cs : List Char) : Bool :=
  let (last, ok) := cs.foldl
    (fun (acc : Bool × Bool) c => ((Text.hexDigit? c).isSome, acc.2 && (c != '_' || acc.1))) (false, true)
  ok && last

/-- Whether a number starts with a zero that another digit follows. -/
def hasLeadingZero (cs : List Char) : Bool :=
  match cs with
  | '0' :: c :: _ => !(c == 'b' || c == 'o' || c == 'x')
  | s :: '0' :: _ :: _ => s == '-' || s == '+'
  | _ => false

/-- The value of an integer after its sign, by its base. -/
def magnitude (cs : List Char) : Nat :=
  let digits := cs.filter (· != '_')
  match digits with
  | '0' :: 'x' :: ds => Text.hexValue ds
  | '0' :: 'o' :: ds => ds.foldl (fun n c => 8 * n + (c.toNat - 48)) 0
  | '0' :: 'b' :: ds => ds.foldl (fun n c => 2 * n + (c.toNat - 48)) 0
  | ds => Number.decimalValue ds

/-- Checks an integer: underscores, leading zeros, and the range of 64 bits. -/
def checkInteger (cs : List Char) : Option Expr :=
  let (negative, digits) := Number.splitSign cs
  let limit := if negative then Number.signedLimit else Number.signedLimit - 1
  if underscoresOk cs && !hasLeadingZero cs && magnitude digits ≤ limit then some (.integer (String.ofList cs))
  else none

/-- Whether every point is followed by a digit. -/
def pointsOk : List Char → Bool
  | [] => true
  | '.' :: c :: cs => isDigit c && pointsOk (c :: cs)
  | ['.'] => false
  | _ :: cs => pointsOk cs

/-- Checks a floating-point number. -/
def checkFloat (cs : List Char) : Option Expr :=
  let (_, body) := Number.splitSign cs
  if body = "inf".toList ∨ body = "nan".toList then some (.float (String.ofList cs))
  else
    let parts := (Text.splitAtChars (fun c => c == '.' || c == 'e' || c == 'E') cs).filter (!·.isEmpty)
    if parts.all underscoresOk && !hasLeadingZero (parts.headD []) && pointsOk cs then
      match Number.readDecimal (cs.filter (· != '_')) with
      | some d => if d.isFinite then some (.float (String.ofList cs)) else none
      | none => none
    else none

/-- Whether this is a date of the calendar, written `yyyy-mm-dd`. -/
def isDate (cs : List Char) : Bool :=
  match cs with
  | [a, b, c, d, '-', e, f, '-', g, h] =>
    let year := Number.decimalValue [a, b, c, d]
    let month := Number.decimalValue [e, f]
    let day := Number.decimalValue [g, h]
    [a, b, c, d, e, f, g, h].all isDigit && Number.isCalendarDate year month day
  | _ => false

/-- The rest behind a time of day, written `hh:mm:ss` with an optional fraction; the hour may have one digit. -/
def afterTime (cs : List Char) : Option (List Char) :=
  let hour := cs.takeWhile isDigit
  match cs.dropWhile isDigit with
  | ':' :: a :: b :: ':' :: c :: d :: r =>
    if 1 ≤ hour.length && hour.length ≤ 2 && Number.decimalValue hour < 24 && [a, b, c, d].all isDigit &&
        Number.decimalValue [a, b] < 60 && Number.decimalValue [c, d] < 60 then
      match r with
      | '.' :: e :: r' => if isDigit e then some (r'.dropWhile isDigit) else some r
      | _ => some r
    else none
  | _ => none

/-- Checks a date, a time of day, or both, the latter with or without a zone. -/
def checkDatetime (cs : List Char) : Option Expr :=
  let norm := cs.map fun c => if c = 'z' then 'Z' else if c = 't' ∨ c = ' ' then 'T' else c
  let ok :=
    isDate norm || afterTime norm == some [] ||
      match norm.drop 10 with
      | 'T' :: time =>
        isDate (norm.take 10) &&
          match afterTime time with
          | some rest => rest.isEmpty || Number.isZone rest
          | none => false
      | _ => false
  if ok then some (.datetime (String.ofList cs)) else none

/-- A character of a floating-point number. -/
def isFloatChar (c : Char) : Bool :=
  isDigit c || c == '_' || c == '.' || c == '-' || c == '+' || c == 'e' || c == 'E'

/-- A character of a date. -/
def isDateChar (c : Char) : Bool :=
  isDigit c || c == '-' || c == ':' || c == 'T' || c == 't' || c == ' ' || c == '.' || c == 'Z' || c == 'z' || c == '+'

/-- A number in decimal, given how many characters of it are known to belong to it. -/
def readDecimalNumber (cs : List Char) (known : Nat) : Option (Expr × List Char) :=
  let rest := cs.drop known
  let digits := rest.takeWhile fun c => isDigit c || c == '_'
  let n := known + digits.length
  match cs.drop n with
  | c :: _ =>
    if c = '.' ∨ c = 'e' ∨ c = 'E' then
      let m := n + ((cs.drop n).takeWhile isFloatChar).length
      (checkFloat (cs.take m)).map (·, cs.drop m)
    else (checkInteger (cs.take n)).map (·, cs.drop n)
  | [] => (checkInteger (cs.take n)).map (·, [])

/-- A number in another base behind its two-character mark. -/
def readBased (valid : Char → Bool) (cs : List Char) : Option (Expr × List Char) :=
  match cs.drop 2 with
  | c :: _ =>
    if valid c then
      let n := 2 + ((cs.drop 2).takeWhile fun c => valid c || c == '_').length
      (checkInteger (cs.take n)).map (·, cs.drop n)
    else none
  | [] => none

/-- Removes the spaces and tabs at the end. -/
def trimSpaceRight (cs : List Char) : List Char := (cs.reverse.dropWhile isSpace).reverse

/-- A number or a date that starts with a digit. -/
def readNumber (cs : List Char) : Option (Expr × List Char) :=
  match cs with
  | '0' :: 'x' :: _ => readBased (fun c => (Text.hexDigit? c).isSome) cs
  | '0' :: 'o' :: _ => readBased (fun c => '0' ≤ c && c ≤ '7') cs
  | '0' :: 'b' :: _ => readBased (fun c => c == '0' || c == '1') cs
  | _ =>
    let digits := cs.takeWhile isDigit
    match cs.dropWhile isDigit with
    | c :: _ =>
      if (c = '-' ∨ c = ':') ∧ digits ≠ ['0'] then
        let n := (cs.takeWhile isDateChar).length
        (checkDatetime (trimSpaceRight (cs.take n))).map (·, cs.drop n)
      else readDecimalNumber cs digits.length
    | [] => readDecimalNumber cs digits.length

/-- A number behind a sign. -/
def readSigned (cs : List Char) : Option (Expr × List Char) :=
  match cs with
  | _ :: 'i' :: 'n' :: 'f' :: r => some (.float (String.ofList (cs.take 4)), r)
  | _ :: 'n' :: 'a' :: 'n' :: r => some (.float (String.ofList (cs.take 4)), r)
  | _ :: '0' :: 'x' :: _ | _ :: '0' :: 'o' :: _ | _ :: '0' :: 'b' :: _ => none
  | _ :: c :: _ => if isDigit c then readDecimalNumber cs 2 else none
  | _ => none

/-! ### Values -/

/-- Skips blanks, line ends and comments inside an array. -/
def skipInArray : (fuel : Nat) → List Char → List Char
  | 0, cs => cs
  | fuel + 1, cs =>
    match cs.dropWhile isBlockBlank with
    | '#' :: r => skipInArray fuel (skipComment r)
    | r => r

mutual

/-- Reads a value. -/
def readValue : (fuel : Nat) → List Char → Option (Expr × List Char)
  | 0, _ => none
  | fuel + 1, cs =>
    match skipSpace cs with
    | '[' :: r => (readItems fuel r).map fun (items, r) => (.array items, r)
    | '{' :: r =>
      match skipSpace r with
      | '}' :: r => some (.inlineTable [], r)
      | r => (readEntries fuel r).map fun (entries, r) => (.inlineTable entries, r)
    | 't' :: 'r' :: 'u' :: 'e' :: r => some (.bool true, r)
    | 'f' :: 'a' :: 'l' :: 's' :: 'e' :: r => some (.bool false, r)
    | 'i' :: 'n' :: 'f' :: r => some (.float "inf", r)
    | 'n' :: 'a' :: 'n' :: r => some (.float "nan", r)
    | c :: r =>
      if c = '"' ∨ c = '\'' then readString (c :: r)
      else if c = '-' ∨ c = '+' then readSigned (c :: r)
      else if isDigit c then readNumber (c :: r)
      else none
    | [] => none

/-- Reads the items of an array up to its closing bracket. -/
def readItems : (fuel : Nat) → List Char → Option (List Expr × List Char)
  | 0, _ => none
  | fuel + 1, cs =>
    match skipInArray (cs.length + 1) cs with
    | ']' :: r => some ([], r)
    | r => do
      let (item, r) ← readValue fuel r
      match skipInArray (r.length + 1) r with
      | ']' :: r => return ([item], r)
      | ',' :: r => do
        let (items, r) ← readItems fuel r
        return (item :: items, r)
      | _ => none

/-- Reads the entries of an inline table up to its closing brace. -/
def readEntries : (fuel : Nat) → List Char → Option (List (Key × Expr) × List Char)
  | 0, _ => none
  | fuel + 1, cs => do
    let (key, r) ← readKey (cs.length + 1) cs
    match r with
    | '=' :: r => do
      let (value, r) ← readValue fuel r
      match skipSpace r with
      | '}' :: r => return ([(key, value)], r)
      | ',' :: r => do
        let (entries, r) ← readEntries fuel r
        return ((key, value) :: entries, r)
      | _ => none
    | _ => none

end

/-! ### Statements -/

/-- Requires the end of a line, before which blanks and a comment may stand. -/
def endOfLine (cs : List Char) : Option (List Char) :=
  match skipSpace cs with
  | [] => some []
  | '#' :: r => some (skipComment r)
  | c :: r => if isLineEnd c then some r else none

/-- Reads a statement. -/
def readStatement (cs : List Char) : Option (Statement × List Char) :=
  let fuel := cs.length + 1
  match cs with
  | '[' :: '[' :: r => do
    let (key, r) ← readKey fuel r
    match r with
    | ']' :: ']' :: r => return (.arrayTable key, r)
    | _ => none
  | '[' :: r => do
    let (key, r) ← readKey fuel r
    match r with
    | ']' :: r => return (.table key, r)
    | _ => none
  | _ => do
    let (key, r) ← readKey fuel cs
    match r with
    | '=' :: r => do
      let (value, r) ← readValue fuel r
      return (.assign key value, r)
    | _ => none

/-- Reads the statements of a text. -/
def readStatements : (fuel : Nat) → List Char → Option (List Statement)
  | 0, _ => none
  | fuel + 1, cs =>
    match cs.dropWhile isBlockBlank with
    | [] => some []
    | '#' :: r => readStatements fuel (skipComment r)
    | r => do
      let (s, r) ← readStatement r
      let r ← endOfLine r
      return s :: (← readStatements fuel r)

/-- The statements of a document; a byte order mark at its start is skipped. -/
def statements (text : String) : Option (List Statement) :=
  let cs := match text.toList with
    | c :: cs => if c.toNat = 0xfeff then cs else c :: cs
    | [] => []
  if admissible cs then readStatements (cs.length + 1) cs else none

end Coercion.Toml
