import Coercion.Yaml.Token

/-!
# YAML nodes

A document is a tree of scalars, sequences and mappings.  An alias stands for the node that an earlier anchor named;
inside that node itself it stands for nothing.
-/

namespace Coercion.Yaml

/-- A node. -/
inductive Node where
  /-- A scalar; its tag is empty if none was given. -/
  | scalar (text : String) (plain : Bool) (tag : String)
  | sequence (items : List Node)
  | mapping (entries : List (Node × Node))
  | alias (name : String) (target : Option Node)
  deriving Inhabited

namespace Node

/-- The scalar that stands for nothing. -/
def empty : Node := .scalar "" true ""

/-- Tokens that are still to be read, the expansions of tag handles, and the named nodes: one that is not complete yet
has no node. -/
structure Reader where
  tokens : List Token
  handles : List (String × String) := []
  anchors : List (String × Option Node) := []

/-- Reading nodes, which may fail. -/
abbrev Read := StateT Reader Option

/-- The next token. -/
def peek : Read Token := fun r => r.tokens.head?.map (·, r)

/-- Moves over a token. -/
def skip : Read Unit := modify fun r => { r with tokens := r.tokens.tail }

/-- The prefix that ordinary tags have. -/
def standardTag : String := "tag:yaml.org,2002:"

/-- A tag in its short form. -/
def shortTag (tag : String) : String :=
  if standardTag.toList.isPrefixOf tag.toList then "!!" ++ String.ofList (tag.toList.drop standardTag.length) else tag

/-- The tag with a handle and a suffix, in its short form. -/
def resolveTag (handle suffix : String) : Read String := fun r =>
  let full? := if handle = "" then some suffix else (r.handles.lookup handle).map (· ++ suffix)
  match full? with
  | some full => if full = "" then none else some (shortTag full, r)
  | none => none

/-- Reads a tag and an anchor, in either order; both may be missing. -/
def readProperties : Read (Option String × Option String) := do
  match ← peek with
  | .anchor a => do
    skip
    match ← peek with
    | .tag h t => do skip; return (some a, some (← resolveTag h t))
    | _ => return (some a, none)
  | .tag h t => do
    skip
    match ← peek with
    | .anchor a => do skip; return (some a, some (← resolveTag h t))
    | _ => return (none, some (← resolveTag h t))
  | _ => return (none, none)

/-- Gives a name to a node that is about to be read. -/
def openAnchor (name : Option String) : Read Unit :=
  match name with
  | some a => modify fun r => { r with anchors := (a, none) :: r.anchors }
  | none => pure ()

/-- Completes the last incomplete node with a name. -/
def complete (a : String) (node : Node) : List (String × Option Node) → List (String × Option Node)
  | [] => []
  | (b, some n) :: rest => (b, some n) :: complete a node rest
  | (b, none) :: rest => if b = a then (a, some node) :: rest else (b, none) :: complete a node rest

/-- Completes the node with a name. -/
def closeAnchor (name : Option String) (node : Node) : Read Unit :=
  match name with
  | some a => modify fun r => { r with anchors := complete a node r.anchors }
  | none => pure ()

/-- Whether a token ends a block entry without a node. -/
def endsEntry : Token → Bool
  | .blockEntry | .blockEnd => true
  | _ => false

/-- Whether a token ends a block key or value without a node. -/
def endsPair : Token → Bool
  | .key | .value | .blockEnd => true
  | _ => false

/-- Moves over the comma between two entries of a flow collection; `first` holds before the first entry, which needs
none.  Gives the token behind it. -/
def readComma (first : Bool) : Read Token := do
  let t ← peek
  if first then return t
  else
    match t with
    | .flowEntry => do skip; peek
    | _ => failure

mutual

/-- Reads a node.  `block` admits block collections, `indentless` sequences that are not indented. -/
def readNode (block indentless : Bool) : (fuel : Nat) → Read Node
  | 0 => failure
  | fuel + 1 => do
    match ← peek with
    | .alias name => do
      match (← get).anchors.lookup name with
      | some target => do skip; return .alias name target
      | none => failure
    | _ => do
      let (anchor, tag) ← readProperties
      openAnchor anchor
      let node ← readContent block indentless anchor tag fuel
      closeAnchor anchor node
      return node

/-- Reads the content of a node behind its properties. -/
def readContent (block indentless : Bool) (anchor tag : Option String) : (fuel : Nat) → Read Node
  | 0 => failure
  | fuel + 1 => do
    let t ← peek
    match t, block, indentless with
    | .blockEntry, _, true => return .sequence (← readIndentless fuel)
    | .scalar text plain, _, _ => do skip; return .scalar text plain (tag.getD "")
    | .flowSequence, _, _ => do skip; return .sequence (← readFlowItems true fuel)
    | .flowMapping, _, _ => do skip; return .mapping (← readFlowPairs true fuel)
    | .blockSequence, true, _ => do skip; return .sequence (← readItems fuel)
    | .blockMapping, true, _ => do skip; return .mapping (← readPairs fuel)
    | _, _, _ =>
      if anchor.isSome || tag.isSome then return .scalar "" true (tag.getD "") else failure

/-- Reads the entries of a block sequence. -/
def readItems : (fuel : Nat) → Read (List Node)
  | 0 => failure
  | fuel + 1 => do
    match ← peek with
    | .blockEntry => do
      skip
      let item ← if endsEntry (← peek) then pure empty else readNode true false fuel
      return item :: (← readItems fuel)
    | .blockEnd => do skip; return []
    | _ => failure

/-- Reads the entries of a sequence that is not indented. -/
def readIndentless : (fuel : Nat) → Read (List Node)
  | 0 => failure
  | fuel + 1 => do
    match ← peek with
    | .blockEntry => do
      skip
      let t ← peek
      let item ← if endsEntry t || endsPair t then pure empty else readNode true false fuel
      return item :: (← readIndentless fuel)
    | _ => return []

/-- Reads the pairs of a block mapping. -/
def readPairs : (fuel : Nat) → Read (List (Node × Node))
  | 0 => failure
  | fuel + 1 => do
    match ← peek with
    | .key => do
      skip
      let k ← if endsPair (← peek) then pure empty else readNode true true fuel
      let v ←
        match ← peek with
        | .value => do
          skip
          if endsPair (← peek) then pure empty else readNode true true fuel
        | _ => pure empty
      return (k, v) :: (← readPairs fuel)
    | .blockEnd => do skip; return []
    | _ => failure

/-- Reads the entries of a flow sequence; an entry with a key is a mapping of its own. -/
def readFlowItems (first : Bool) : (fuel : Nat) → Read (List Node)
  | 0 => failure
  | fuel + 1 => do
    match ← peek with
    | .flowSequenceEnd => do skip; return []
    | _ => do
      match ← readComma first with
      | .flowSequenceEnd => do skip; return []
      | .key => do
        skip
        let k ←
          match ← peek with
          -- a missing key takes the place of the token behind it
          | .value | .flowEntry | .flowSequenceEnd => do skip; pure empty
          | _ => readNode false false fuel
        let v ←
          match ← peek with
          | .value => do
            skip
            match ← peek with
            | .flowEntry | .flowSequenceEnd => pure empty
            | _ => readNode false false fuel
          | _ => pure empty
        return .mapping [(k, v)] :: (← readFlowItems false fuel)
      | _ => do
        let item ← readNode false false fuel
        return item :: (← readFlowItems false fuel)

/-- Reads the pairs of a flow mapping. -/
def readFlowPairs (first : Bool) : (fuel : Nat) → Read (List (Node × Node))
  | 0 => failure
  | fuel + 1 => do
    match ← peek with
    | .flowMappingEnd => do skip; return []
    | _ => do
      match ← readComma first with
      | .flowMappingEnd => do skip; return []
      | .key => do
        skip
        let k ←
          match ← peek with
          | .value | .flowEntry | .flowMappingEnd => pure empty
          | _ => readNode false false fuel
        let v ←
          match ← peek with
          | .value => do
            skip
            match ← peek with
            | .flowEntry | .flowMappingEnd => pure empty
            | _ => readNode false false fuel
          | _ => pure empty
        return (k, v) :: (← readFlowPairs false fuel)
      | _ => do
        let k ← readNode false false fuel
        let _ ← peek
        return (k, empty) :: (← readFlowPairs false fuel)

end

/-- Reads the directives of a document: at most one version, which must be 1.1, and no handle twice. -/
def readDirectives : (fuel : Nat) → (version : Bool) → Read Unit
  | 0, _ => failure
  | fuel + 1, version => do
    match ← peek with
    | .directive (.version major minor) =>
      if version || major != 1 || minor != 1 then failure
      else do skip; readDirectives fuel true
    | .directive (.tag handle expansion) => do
      if ((← get).handles.lookup handle).isSome then failure
      else do
        modify fun r => { r with handles := (handle, expansion) :: r.handles }
        skip
        readDirectives fuel version
    | _ => pure ()

/-- Gives the two standard handles their meaning, unless directives gave them one. -/
def addStandardHandles : Read Unit :=
  modify fun r =>
    let add (h e : String) (hs : List (String × String)) := if (hs.lookup h).isSome then hs else hs ++ [(h, e)]
    { r with handles := add "!!" standardTag (add "!" "!" r.handles) }

/-- Reads the first document; a stream without documents has none. -/
def readDocument (fuel : Nat) : Read Node := do
  match ← peek with
  | .streamEnd => failure
  | .directive _ | .documentStart => do
    readDirectives fuel false
    addStandardHandles
    match ← peek with
    | .documentStart => do
      skip
      let node ←
        match ← peek with
        | .directive _ | .documentStart | .documentEnd | .streamEnd => pure empty
        | _ => readNode true false fuel
      let _ ← peek
      return node
    | _ => failure
  | _ => do
    addStandardHandles
    let node ← readNode true false fuel
    let _ ← peek
    return node

/-- The first document of a source. -/
def parse (source : String) : Option Node :=
  let ts := tokens source
  ((readDocument (2 * ts.length + 8)).run { tokens := ts }).map (·.1)

end Node

end Coercion.Yaml
