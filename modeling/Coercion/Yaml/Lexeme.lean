import Coercion.Yaml.Cursor

/-!
# YAML lexemes

The texts of scalars in their five styles, anchors, tags and directives.  Each reader starts at the first character of
its lexeme and gives its content with the position behind it; it fails where the source is malformed.
-/

namespace Coercion.Yaml

/-! ### Scalars over several lines -/

/-- What stands between two words of a scalar. -/
structure Gap where
  /-- Blanks on the line of the first word. -/
  blanks : List Char := []
  /-- The first line end. -/
  first : List Char := []
  /-- Further line ends. -/
  more : List Char := []
  /-- Whether the line has ended. -/
  broken : Bool := false

/-- What a gap counts as: a single line end is a space, of several the first is dropped. -/
def Gap.fold (g : Gap) : List Char :=
  if !g.broken then g.blanks
  else if g.first == ['\n'] then if g.more.isEmpty then [' '] else g.more
  else g.first ++ g.more

/-- Reads a gap.  A tab left of the column `indent` on a later line is refused. -/
def readGap (indent : Nat) : (fuel : Nat) → Gap → Cursor → Option (Gap × Cursor)
  | 0, g, c => some (g, c)
  | fuel + 1, g, c =>
    match c.rest with
    | [] => some (g, c)
    | x :: _ =>
      if isBlank x then
        if g.broken then
          if x == '\t' && c.column < indent then none else readGap indent fuel g (c.advance 1)
        else readGap indent fuel { g with blanks := g.blanks ++ [x] } (c.advance 1)
      else if isBreak x then
        let (b, c) := c.readBreak
        if g.broken then readGap indent fuel { g with more := g.more ++ b } c
        else readGap indent fuel { g with blanks := [], first := b, broken := true } c
      else some (g, c)

/-- A word of a plain scalar; in a flow collection its indicators end it. -/
def plainWord (inFlow : Bool) : List Char → List Char
  | [] => []
  | c :: cs =>
    if isBlank c || isBreak c || (c == ':' && atGap cs) || (inFlow && ",?[]\x7b\x7d".toList.contains c) then []
    else c :: plainWord inFlow cs

/-- Reads the words of a plain scalar; `indent` is the least column of its lines.  Also says whether the scalar was
followed by a line end. -/
def readPlain (inFlow : Bool) (indent : Nat) : (fuel : Nat) → List Char → Gap → Cursor →
    Option (List Char × Bool × Cursor)
  | 0, text, g, c => some (text, g.broken, c)
  | fuel + 1, text, g, c =>
    if c.atDocument || c.startsWith '#' then some (text, g.broken, c)
    else
      let word := plainWord inFlow c.rest
      let c := c.advance word.length
      let (text, g) := if word.isEmpty then (text, g) else (text ++ g.fold ++ word, {})
      if c.rest.isEmpty || !atGap c.rest then some (text, g.broken, c)
      else do
        let (g, c) ← readGap indent (c.rest.length + 1) g c
        if !inFlow && c.column < indent then some (text, g.broken, c)
        else readPlain inFlow indent fuel text g c

/-- The character of a one-letter escape. -/
def escape? (c : Char) : Option Char :=
  match c with
  | '0' => some '\x00'
  | 'a' => some '\x07'
  | 'b' => some '\x08'
  | 't' | '\t' => some '\t'
  | 'n' => some '\n'
  | 'v' => some '\x0b'
  | 'f' => some '\x0c'
  | 'r' => some '\r'
  | 'e' => some '\x1b'
  | ' ' | '"' | '\'' | '\\' => some c
  | 'N' => some (.ofNat 0x85)
  | '_' => some (.ofNat 0xa0)
  | 'L' => some (.ofNat 0x2028)
  | 'P' => some (.ofNat 0x2029)
  | _ => none

/-- The number of digits of a numeric escape. -/
def escapeDigits? : Char → Option Nat
  | 'x' => some 2
  | 'u' => some 4
  | 'U' => some 8
  | _ => none

/-- The character with a hexadecimal number, if there is one. -/
def numbered? (digits : List Char) : Option Char :=
  if digits.all fun c => (Text.hexDigit? c).isSome then
    let n := Text.hexValue digits
    if n < 0xd800 ∨ (0xe000 ≤ n ∧ n < 0x110000) then some (.ofNat n) else none
  else none

/-- Reads a word of a quoted scalar, up to a gap or the closing quote; also says whether an escaped line end
follows it. -/
def quotedWord (double : Bool) : (fuel : Nat) → List Char → Cursor → Option (List Char × Bool × Cursor)
  | 0, text, c => some (text, false, c)
  | fuel + 1, text, c =>
    if atGap c.rest then some (text, false, c)
    else
      match double, c.rest with
      | false, '\'' :: '\'' :: _ => quotedWord double fuel (text ++ ['\'']) (c.advance 2)
      | false, '\'' :: _ => some (text, false, c)
      | true, '"' :: _ => some (text, false, c)
      | true, '\\' :: x :: rest =>
        if isBreak x then some (text, true, (c.advance 1).skipBreak)
        else
          match escapeDigits? x with
          | some n =>
            if rest.length < n then none
            else do
              let e ← numbered? (rest.take n)
              quotedWord double fuel (text ++ [e]) (c.advance (2 + n))
          | none => do
            let e ← escape? x
            quotedWord double fuel (text ++ [e]) (c.advance 2)
      | true, ['\\'] => none
      | _, x :: _ => quotedWord double fuel (text ++ [x]) (c.advance 1)
      | _, [] => some (text, false, c)

/-- Reads a quoted scalar behind its opening quote. -/
def readQuoted (double : Bool) : (fuel : Nat) → List Char → Cursor → Option (List Char × Cursor)
  | 0, _, _ => none
  | fuel + 1, text, c =>
    if c.atDocument || c.rest.isEmpty then none
    else do
      let (text, broken, c) ← quotedWord double (c.rest.length + 1) text c
      if c.startsWith (if double then '"' else '\'') then some (text, c.advance 1)
      else do
        let (g, c) ← readGap 0 (c.rest.length + 1) { broken } c
        readQuoted double fuel (text ++ g.fold) c

/-! ### Block scalars -/

/-- What happens to the line ends at the end of a block scalar. -/
inductive Chomping where
  | strip
  | clip
  | keep
  deriving DecidableEq

/-- The chomping of an indicator. -/
def Chomping.ofChar? : Char → Option Chomping
  | '-' => some .strip
  | '+' => some .keep
  | _ => none

/-- Reads the indicators behind `|` or `>`: chomping and an indentation, in either order.  The indentation is zero if
it is not given. -/
def readBlockHeader (c : Cursor) : Option (Chomping × Nat × Cursor) :=
  let digit (x : Char) : Bool := Number.isDigit x
  match c.rest with
  | x :: r =>
    match Chomping.ofChar? x with
    | some chomping =>
      match r with
      | d :: _ =>
        if digit d then if d == '0' then none else some (chomping, d.toNat - 48, c.advance 2)
        else some (chomping, 0, c.advance 1)
      | [] => some (chomping, 0, c.advance 1)
    | none =>
      if digit x then
        if x == '0' then none
        else
          match r.head?.bind Chomping.ofChar? with
          | some chomping => some (chomping, x.toNat - 48, c.advance 2)
          | none => some (.clip, x.toNat - 48, c.advance 1)
      else some (.clip, 0, c)
  | [] => some (.clip, 0, c)

/-- Reads the indentation of a line and all empty lines before it.  An indentation of zero is not known yet, and then
becomes the largest one met, but at least `least`. -/
def readIndentation (least indent : Nat) : (fuel deepest : Nat) → List Char → Cursor →
    Option (List Char × Nat × Cursor)
  | 0, _, breaks, c => some (breaks, indent, c)
  | fuel + 1, deepest, breaks, c =>
    let spaces := (c.rest.takeWhile (· == ' ')).length
    let c := c.advance (if indent = 0 then spaces else min spaces (indent - c.column))
    let deepest := max deepest c.column
    if (indent = 0 || c.column < indent) && c.startsWith '\t' then none
    else if !c.rest.isEmpty && atLineEnd c.rest then
      let (b, c) := c.readBreak
      readIndentation least indent fuel deepest (breaks ++ b) c
    else some (breaks, if indent = 0 then max deepest least else indent, c)

/-- The lines of a block scalar: the text so far, the end of its last line, and the line ends behind that. -/
structure BlockLines where
  text : List Char := []
  first : List Char := []
  more : List Char := []
  /-- Whether the last line started with a blank. -/
  blank : Bool := false

/-- Reads the lines of a block scalar at an indentation. -/
def readBlockLines (literal : Bool) (indent : Nat) : (fuel : Nat) → BlockLines → Cursor → Option (BlockLines × Cursor)
  | 0, b, c => some (b, c)
  | fuel + 1, b, c =>
    if c.column != indent || c.rest.isEmpty then some (b, c)
    else
      let blank := match c.rest with
        | x :: _ => isBlank x
        | [] => false
      let joint :=
        if !literal && !b.blank && !blank && b.first == ['\n'] then if b.more.isEmpty then [' '] else []
        else b.first
      let line := c.rest.takeWhile (!isBreak ·)
      let (first, c) := (c.advance line.length).readBreak
      do
        let (more, _, c) ← readIndentation 1 indent (c.rest.length + 1) 0 [] c
        readBlockLines literal indent fuel ⟨b.text ++ joint ++ b.more ++ line, first, more, blank⟩ c

/-- Reads a block scalar behind its `|` or `>`; `parent` is the indentation around it. -/
def readBlock (literal : Bool) (parent : Int) (c : Cursor) : Option (List Char × Cursor) := do
  let (chomping, increment, c) ← readBlockHeader c
  let c := c.skipWhile isBlank
  let c := if c.startsWith '#' then c.skipToBreak else c
  if !atLineEnd c.rest then none
  else do
    let c := c.skipBreak
    let indent := if increment = 0 then 0 else (max parent 0).toNat + increment
    let (more, indent, c) ← readIndentation (max (parent + 1).toNat 1) indent (c.rest.length + 1) 0 [] c
    let (b, c) ← readBlockLines literal indent (c.rest.length + 1) { more } c
    let tail := match chomping with
      | .strip => []
      | .clip => b.first
      | .keep => b.first ++ b.more
    return (b.text ++ tail, c)

/-! ### Anchors, tags and directives -/

/-- Reads the name of an anchor or an alias behind its mark. -/
def readAnchor (c : Cursor) : Option (String × Cursor) :=
  let name := c.rest.takeWhile isWordChar
  let c := c.advance name.length
  let ended := atGap c.rest || match c.rest with
    | x :: _ => "?:,]\x7d%@".toList.contains x || x.toNat == 0x60
    | [] => true
  if name.isEmpty || !ended then none else some (String.ofList name, c)

/-- A character of the name of a tag. -/
def isTagChar (c : Char) : Bool := isWordChar c || ";/?:@&=+$.%!~*'()[]".toList.contains c

/-- Replaces the escapes `%xx` of a tag, which spell the bytes of its characters. -/
def readTagText (c : Cursor) : Option (List Char × Cursor) :=
  let raw := c.rest.takeWhile isTagChar
  let rec bytes : List Char → Option ByteArray
    | [] => some .empty
    | '%' :: a :: b :: cs =>
      if (Text.hexDigit? a).isSome && (Text.hexDigit? b).isSome then
        (bytes cs).map fun rest => ⟨#[UInt8.ofNat (Text.hexValue [a, b])]⟩ ++ rest
      else none
    | ['%'] | ['%', _] => none
    | x :: cs => (bytes cs).map fun rest => (String.singleton x).toUTF8 ++ rest
  do
    let s ← String.fromUTF8? (← bytes raw)
    return (s.toList, c.advance raw.length)

/-- Reads a tag at its `!`: a handle and the text behind it.  A tag between angle brackets and the lone `!` have an
empty handle. -/
def readTag (c : Cursor) : Option (String × String × Cursor) := do
  let (handle, suffix, c) ←
    match c.rest with
    | '!' :: '<' :: _ => do
      let (text, c) ← readTagText (c.advance 2)
      if text.isEmpty || !c.startsWith '>' then none else some ([], text, c.advance 1)
    | _ =>
      let word := (c.rest.drop 1).takeWhile isWordChar
      let head := c.advance (1 + word.length)
      if head.startsWith '!' then do
        let (text, c) ← readTagText (head.advance 1)
        if text.isEmpty then none else some ('!' :: (word ++ ['!']), text, c)
      else do
        let (text, c) ← readTagText head
        let suffix := word ++ text
        if suffix.isEmpty then some ([], ['!'], c) else some (['!'], suffix, c)
  if atGap c.rest then some (String.ofList handle, String.ofList suffix, c) else none

/-- A directive. -/
inductive Directive where
  | version (major minor : Nat)
  | tag (handle expansion : String)

/-- Reads a number of a version, of at most nine digits. -/
def readVersionNumber (c : Cursor) : Option (Nat × Cursor) :=
  let digits := c.rest.takeWhile Number.isDigit
  if digits.isEmpty || 9 < digits.length then none
  else some (Number.decimalValue digits, c.advance digits.length)

/-- Reads the value of a directive with a name. -/
def readDirectiveValue (name : List Char) (c : Cursor) : Option (Directive × Cursor) :=
  if name = "YAML".toList then do
    let (major, c) ← readVersionNumber (c.skipWhile isBlank)
    if !c.startsWith '.' then none
    else do
      let (minor, c) ← readVersionNumber (c.advance 1)
      return (.version major minor, c)
  else if name = "TAG".toList then do
    let c := c.skipWhile isBlank
    if !c.startsWith '!' then none
    else
      let word := (c.rest.drop 1).takeWhile isWordChar
      let c := c.advance (1 + word.length)
      let (handle, c) := if c.startsWith '!' then ('!' :: (word ++ ['!']), c.advance 1) else ('!' :: word, c)
      if handle.length ≠ 1 && handle.getLast? != some '!' then none
      else if c.rest.isEmpty || !(c.rest.head?.map isBlank).getD false then none
      else do
        let (text, c) ← readTagText (c.skipWhile isBlank)
        if text.isEmpty || !atGap c.rest then none
        else return (.tag (String.ofList handle) (String.ofList text), c)
  else none

/-- Reads a directive behind its `%`, with the rest of its line. -/
def readDirective (c : Cursor) : Option (Directive × Cursor) := do
  let name := c.rest.takeWhile isWordChar
  let c := c.advance name.length
  if name.isEmpty || !atGap c.rest then none
  else do
    let (d, c) ← readDirectiveValue name c
    let c := c.skipWhile isBlank
    let c := if c.startsWith '#' then c.skipToBreak else c
    if atLineEnd c.rest then some (d, c.skipBreak) else none

end Coercion.Yaml
