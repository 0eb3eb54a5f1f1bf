import Coercion.Yaml.Lexeme

/-!
# YAML tokens

Source is cut into tokens from left to right.  Indentation is made explicit by tokens that open and close block
collections.  A mapping key needs no mark of its own: where one may start, the scanner keeps the place as a pending
key, and if a `:` follows on the same line, the mark is put there afterwards.

Tokens are only taken from the source as far as a reader needs them, so an error further on does no harm.  A reader
that looks at a token has scanned two more, and more than that while the token may turn out to be a key.
-/

namespace Coercion.Yaml

/-- A token. -/
inductive Token where
  | streamEnd
  | directive (d : Directive)
  | documentStart
  | documentEnd
  | blockSequence
  | blockMapping
  | blockEnd
  | flowSequence
  | flowSequenceEnd
  | flowMapping
  | flowMappingEnd
  | blockEntry
  | flowEntry
  | key
  | value
  | alias (name : String)
  | anchor (name : String)
  | tag (handle suffix : String)
  | scalar (text : String) (plain : Bool)
  deriving Inhabited

/-- A place where a key without a mark may start. -/
structure PendingKey where
  /-- The number of its first token. -/
  number : Nat
  /-- Whether there must be a key. -/
  required : Bool
  line : Nat
  column : Nat
  index : Nat

/-- Whether a key that starts at `k` may end at `c`: it is at most 1024 characters long and stays on a line. -/
def PendingKey.reaches (k : PendingKey) (c : Cursor) : Bool :=
  c.line ≤ k.line && c.index ≤ k.index + 1024

/-- A position in source with what has been seen before it. -/
structure Scanner where
  cursor : Cursor
  /-- The indentation of the innermost block collection. -/
  indent : Int := -1
  /-- The indentations around it. -/
  indents : List Int := []
  /-- Whether a key without a mark may start here. -/
  keyAllowed : Bool := true
  /-- The pending key of the block level and of every flow collection, the innermost first. -/
  keys : List (Option PendingKey) := [none]
  tokens : Array Token := #[]

namespace Scanner

/-- Whether the position is inside a flow collection. -/
def inFlow (s : Scanner) : Bool := 1 < s.keys.length

/-- Adds a token. -/
def push (t : Token) (s : Scanner) : Scanner := { s with tokens := s.tokens.push t }

/-- Moves to a position. -/
def goTo (c : Cursor) (s : Scanner) : Scanner := { s with cursor := c }

/-- Moves over `n` characters. -/
def advance (n : Nat) (s : Scanner) : Scanner := s.goTo (s.cursor.advance n)

/-- Says whether a key may start at the position. -/
def allowKey (b : Bool) (s : Scanner) : Scanner := { s with keyAllowed := b }

/-- Closes the block collections deeper than `column`. -/
def unroll (column : Int) (s : Scanner) : Scanner :=
  if s.inFlow then s
  else
    let closed := ((s.indent :: s.indents).takeWhile (column < ·)).length
    let left := (s.indent :: s.indents).drop closed
    { s with
      indent := left.headD (-1)
      indents := left.tail
      tokens := s.tokens ++ Array.replicate closed .blockEnd }

/-- Opens a block collection at `column`, if that is deeper, with its token at place `number`. -/
def roll (column : Nat) (number : Nat) (t : Token) (s : Scanner) : Scanner :=
  if !s.inFlow && s.indent < column then
    { s with indent := column, indents := s.indent :: s.indents, tokens := s.tokens.insertIdxIfInBounds number t }
  else s

/-- Gives up the pending key of the current level, which must not be required. -/
def dropKey (s : Scanner) : Option Scanner :=
  match s.keys with
  | some k :: outer => if k.required then none else some { s with keys := none :: outer }
  | _ => some s

/-- Makes the position a pending key, if a key may start there. -/
def saveKey (s : Scanner) : Option Scanner :=
  if s.keyAllowed then do
    let s ← s.dropKey
    let c := s.cursor
    let k : PendingKey := ⟨s.tokens.size, !s.inFlow && s.indent == c.column, c.line, c.column, c.index⟩
    return { s with keys := some k :: s.keys.tail }
  else some s

/-! ### Blanks and comments -/

/-- The rest behind the blanks and empty lines in front of a comment, if only those stand before one. -/
def toComment? : (fuel : Nat) → Cursor → Option Cursor
  | 0, _ => none
  | fuel + 1, c =>
    let c := c.skipWhile isBlank
    match c.rest with
    | '#' :: _ => some c
    | x :: _ => if isBreak x then toComment? fuel c.skipBreak else none
    | [] => none

/-- Moves over comments: the one here, and those on the next lines, however they are indented. -/
def skipComments : (fuel : Nat) → Cursor → Cursor
  | 0, c => c
  | fuel + 1, c =>
    let c := c.skipToBreak
    match toComment? (c.rest.length + 1) c with
    | some c => skipComments fuel c
    | none => c

/-- Moves to the next token.  Tabs may stand before it only where no key may start. -/
def skipToToken : (fuel : Nat) → Scanner → Scanner
  | 0, s => s
  | fuel + 1, s =>
    let c := s.cursor
    let c := if c.column == 0 && (c.rest.head?.map fun x => x.toNat == 0xfeff).getD false then c.advance 1 else c
    let c := c.skipWhile fun x => x == ' ' || ((s.inFlow || !s.keyAllowed) && x == '\t')
    let c := if c.startsWith '#' then skipComments (c.rest.length + 1) c else c
    if !c.rest.isEmpty && atLineEnd c.rest then
      skipToToken fuel { s with cursor := c.skipBreak, keyAllowed := !s.inFlow || s.keyAllowed }
    else s.goTo c

/-- Moves over a comment behind a token on its line. -/
def skipLineComment (s : Scanner) : Scanner :=
  let c := s.cursor.skipWhile isBlank
  if c.startsWith '#' then s.goTo c.skipToBreak else s

/-! ### Tokens -/

/-- The end of the source. -/
def fetchEnd (s : Scanner) : Option Scanner := do
  let c := s.cursor
  let s := if c.column = 0 then s else s.goTo { c with column := 0, line := c.line + 1 }
  let s ← (s.unroll (-1)).dropKey
  return (s.allowKey false).push .streamEnd

/-- A directive. -/
def fetchDirective (s : Scanner) : Option Scanner := do
  let s ← (s.unroll (-1)).dropKey
  let (d, c) ← readDirective (s.cursor.advance 1)
  return ((s.allowKey false).goTo c).push (.directive d)

/-- The start or the end of a document. -/
def fetchDocument (t : Token) (s : Scanner) : Option Scanner := do
  let s ← (s.unroll (-1)).dropKey
  return ((s.allowKey false).advance 3).push t

/-- The start of a flow collection. -/
def fetchFlowStart (t : Token) (s : Scanner) : Option Scanner := do
  let s ← s.saveKey
  return (({ s with keys := none :: s.keys }.allowKey true).advance 1).push t

/-- The end of a flow collection. -/
def fetchFlowEnd (t : Token) (s : Scanner) : Option Scanner := do
  let s ← s.dropKey
  let s := if s.inFlow then { s with keys := s.keys.tail } else s
  return ((s.allowKey false).advance 1).push t

/-- A comma between the entries of a flow collection. -/
def fetchFlowEntry (s : Scanner) : Option Scanner := do
  let s ← s.dropKey
  return ((s.allowKey true).advance 1).push .flowEntry

/-- The mark of a sequence entry. -/
def fetchBlockEntry (s : Scanner) : Option Scanner :=
  if !s.inFlow && !s.keyAllowed then none
  else do
    let s ← (s.roll s.cursor.column s.tokens.size .blockSequence).dropKey
    return ((s.allowKey true).advance 1).push .blockEntry

/-- The mark of a key. -/
def fetchKey (s : Scanner) : Option Scanner :=
  if !s.inFlow && !s.keyAllowed then none
  else do
    let s ← (s.roll s.cursor.column s.tokens.size .blockMapping).dropKey
    return ((s.allowKey (!s.inFlow)).advance 1).push .key

/-- The mark of a value: it makes the pending key a key. -/
def fetchValue (s : Scanner) : Option Scanner :=
  match s.keys with
  | some k :: outer =>
    if k.reaches s.cursor then
      let s := { s with keys := none :: outer, tokens := s.tokens.insertIdxIfInBounds k.number .key }
      some (((s.roll k.column k.number .blockMapping).allowKey false).advance 1 |>.push .value)
    else if k.required then none
    else withoutKey { s with keys := none :: outer }
  | _ => withoutKey s
where
  /-- The mark of a value whose key was marked or is missing. -/
  withoutKey (s : Scanner) : Option Scanner :=
    if !s.inFlow && !s.keyAllowed then none
    else
      let s := s.roll s.cursor.column s.tokens.size .blockMapping
      some (((s.allowKey (!s.inFlow)).advance 1).push .value)

/-- An alias or an anchor. -/
def fetchAnchor (make : String → Token) (s : Scanner) : Option Scanner := do
  let s ← s.saveKey
  let (name, c) ← readAnchor (s.cursor.advance 1)
  return ((s.allowKey false).goTo c).push (make name)

/-- A tag. -/
def fetchTag (s : Scanner) : Option Scanner := do
  let s ← s.saveKey
  let (handle, suffix, c) ← readTag s.cursor
  return ((s.allowKey false).goTo c).push (.tag handle suffix)

/-- A block scalar. -/
def fetchBlock (literal : Bool) (s : Scanner) : Option Scanner := do
  let s ← s.dropKey
  let (text, c) ← readBlock literal s.indent (s.cursor.advance 1)
  return ((s.allowKey true).goTo c).push (.scalar (String.ofList text) false)

/-- A quoted scalar. -/
def fetchQuoted (double : Bool) (s : Scanner) : Option Scanner := do
  let s ← s.saveKey
  let c := s.cursor.advance 1
  let (text, c) ← readQuoted double (c.rest.length + 1) [] c
  return ((s.allowKey false).goTo c).push (.scalar (String.ofList text) false)

/-- A plain scalar. -/
def fetchPlain (s : Scanner) : Option Scanner := do
  let s ← s.saveKey
  let (text, broken, c) ← readPlain s.inFlow (s.indent + 1).toNat (s.cursor.rest.length + 1) [] {} s.cursor
  return ((s.allowKey broken).goTo c).push (.scalar (String.ofList text) true)

/-- The characters that start no plain scalar. -/
def isIndicator (c : Char) : Bool :=
  "-?:,[]\x7b\x7d#&*!|>'\"%@".toList.contains c || c.toNat == 0x60

/-- The token that starts with `x`, behind which `rest` stands. -/
def fetchAt (x : Char) (rest : List Char) (s : Scanner) : Option Scanner :=
  match x with
  | '[' => s.fetchFlowStart .flowSequence
  | '{' => s.fetchFlowStart .flowMapping
  | ']' => s.fetchFlowEnd .flowSequenceEnd
  | '}' => s.fetchFlowEnd .flowMappingEnd
  | ',' => s.fetchFlowEntry
  | '*' => s.fetchAnchor .alias
  | '&' => s.fetchAnchor .anchor
  | '!' => s.fetchTag
  | '\'' => s.fetchQuoted false
  | '"' => s.fetchQuoted true
  | '|' => if s.inFlow then none else s.fetchBlock true
  | '>' => if s.inFlow then none else s.fetchBlock false
  | '-' => if atGap rest then s.fetchBlockEntry else s.fetchPlain
  | '?' => if s.inFlow || atGap rest then s.fetchKey else s.fetchPlain
  | ':' => if s.inFlow || atGap rest then s.fetchValue else s.fetchPlain
  | _ => if isIndicator x || isBlank x || isBreak x then none else s.fetchPlain

/-- Whether the line of the last token may go on with a comment that belongs to it.  A scalar after which a key may
start has already ended its line. -/
def mayComment (s : Scanner) : Bool :=
  match s.tokens.back? with
  | some .blockEntry => false
  | some (.scalar _ _) => !s.keyAllowed
  | _ => true

/-- Adds the next token, and with it those that come with it. -/
def fetch (s : Scanner) : Option Scanner :=
  let s := s.skipToToken (s.cursor.rest.length + 1)
  let s := s.unroll s.cursor.column
  match s.cursor.rest with
  | [] => s.fetchEnd
  | x :: rest =>
    if s.cursor.column == 0 && x == '%' then s.fetchDirective
    else if s.cursor.atIndicator '-' then s.fetchDocument .documentStart
    else if s.cursor.atIndicator '.' then s.fetchDocument .documentEnd
    else do
      let s ← s.fetchAt x rest
      return if s.mayComment then s.skipLineComment else s

/-- The number of tokens that can be read when no further one can be added. -/
def readable (s : Scanner) : Nat :=
  s.keys.foldl
    (fun n k =>
      match k with
      | some k => if k.reaches s.cursor then min n k.number else n
      | none => n)
    (s.tokens.size - 2)

/-- Adds tokens to the end of the source, or to the first error, and gives those that can be read.  The end of the
source can be read more than once. -/
def run : (fuel : Nat) → Scanner → List Token
  | 0, _ => []
  | fuel + 1, s =>
    match s.fetch with
    | none => (s.tokens.toList).take s.readable
    | some s =>
      match s.tokens.back? with
      | some .streamEnd => s.tokens.toList ++ [.streamEnd, .streamEnd]
      | _ => run fuel s

end Scanner

/-- The tokens of a source, as far as they can be read; a byte order mark at its start is skipped. -/
def tokens (source : String) : List Token :=
  let cs := match source.toList with
    | c :: cs => if c.toNat == 0xfeff then cs else c :: cs
    | [] => []
  if cs.all isSource then Scanner.run (2 * cs.length + 4) { cursor := { rest := cs } } else []

end Coercion.Yaml
