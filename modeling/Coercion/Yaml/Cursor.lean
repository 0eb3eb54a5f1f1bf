import Coercion.Number.Range

/-!
# Positions in YAML source

A cursor is the rest of the source together with the line and column where it starts.  Columns decide the nesting of
block collections, lines the extent of implicit keys.
-/

namespace Coercion.Yaml

/-- A space or a tab. -/
def isBlank (c : Char) : Bool := c == ' ' || c == '\t'

/-- A line end: a carriage return, a line feed, a next-line sign, or a line or paragraph separator. -/
def isBreak (c : Char) : Bool :=
  c == '\r' || c == '\n' || c.toNat == 0x85 || c.toNat == 0x2028 || c.toNat == 0x2029

/-- Whether a text ends here or goes on with a blank or a line end. -/
def atGap : List Char → Bool
  | [] => true
  | c :: _ => isBlank c || isBreak c

/-- Whether a text ends here or goes on with a line end. -/
def atLineEnd : List Char → Bool
  | [] => true
  | c :: _ => isBreak c

/-- A character of an anchor or a directive. -/
def isWordChar (c : Char) : Bool :=
  Number.isDigit c || ('a' ≤ c && c ≤ 'z') || ('A' ≤ c && c ≤ 'Z') || c == '_' || c == '-'

/-- A character that source may have: no controls but tabs and line ends, and no noncharacter of the basic plane. -/
def isSource (c : Char) : Bool :=
  let n := c.toNat
  n == 9 || n == 10 || n == 13 || (0x20 ≤ n && n ≤ 0x7e) || n == 0x85 || (0xa0 ≤ n && n ≤ 0xd7ff) ||
    (0xe000 ≤ n && n ≤ 0xfffd) || 0x10000 ≤ n

/-- A position in source. -/
structure Cursor where
  rest : List Char
  line : Nat := 0
  column : Nat := 0
  /-- The number of characters before the position. -/
  index : Nat := 0

namespace Cursor

/-- Moves over `n` characters of a line. -/
def advance (c : Cursor) (n : Nat) : Cursor :=
  { c with rest := c.rest.drop n, column := c.column + n, index := c.index + n }

/-- Moves over the characters of a line that satisfy `p`. -/
def skipWhile (p : Char → Bool) (c : Cursor) : Cursor :=
  c.advance (c.rest.takeWhile p).length

/-- Moves over the rest of the line. -/
def skipToBreak (c : Cursor) : Cursor := c.skipWhile (!isBreak ·)

/-- Moves over a line end, if there is one here, and gives the character it counts as in a text: line and paragraph
separators are kept, all others are line feeds. -/
def readBreak (c : Cursor) : List Char × Cursor :=
  match c.rest with
  | '\r' :: '\n' :: r => (['\n'], ⟨r, c.line + 1, 0, c.index + 2⟩)
  | x :: r =>
    if isBreak x then
      ([if x.toNat == 0x2028 || x.toNat == 0x2029 then x else '\n'], ⟨r, c.line + 1, 0, c.index + 1⟩)
    else ([], c)
  | [] => ([], c)

/-- Moves over a line end. -/
def skipBreak (c : Cursor) : Cursor := c.readBreak.2

/-- Whether a line starts here with three characters `mark` and a gap. -/
def atIndicator (mark : Char) (c : Cursor) : Bool :=
  c.column == 0 &&
    match c.rest with
    | x :: y :: z :: r => x == mark && y == mark && z == mark && atGap r
    | _ => false

/-- Whether a document starts or ends here. -/
def atDocument (c : Cursor) : Bool := c.atIndicator '-' || c.atIndicator '.'

/-- Whether the character here is `x`. -/
def startsWith (x : Char) (c : Cursor) : Bool := c.rest.head? == some x

end Cursor

end Coercion.Yaml
