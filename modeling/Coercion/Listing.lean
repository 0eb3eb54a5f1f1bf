import Coercion.CompatTable
import Coercion.Json
import Coercion.MessagePack
import Coercion.Text.Style
import Coercion.Text.Width

/-!
# Listings of a compatibility table

An export carries the name of a universe, one row per live pair with the names of its types, and the statistics of
the bins.  It is written as aligned text, as JSON or as MessagePack.  A text is written line by line, the other forms
in one piece.
-/

namespace Coercion

namespace Listing

/-- The form of an export. -/
inductive Format where
  | text
  | json
  | messagePack
  deriving DecidableEq, Inhabited

namespace Format

/-- The name of a form. -/
def name : Format → String
  | text => "text"
  | json => "json"
  | messagePack => "msgpack"

/-- The form of exactly this name; the empty name is text. -/
def ofName? : String → Option Format
  | "" | "text" => some text
  | "json" => some json
  | "msgpack" => some messagePack
  | _ => none

/-- The wording for a name that was not read by `parse` and is no form. -/
def unsupportedMessage (s : String) : String := "unknown format " ++ Text.quote s

/-- A spelling that names no form. -/
structure Unknown where
  text : String

/-- The wording of the spelling error. -/
def Unknown.message (e : Unknown) : String :=
  "unknown format " ++ Text.quote e.text ++ " (want text, json or msgpack)"

/-- Reads the name of a form in any case, blanks around it allowed. -/
def parse (s : String) : Except Unknown Format :=
  match ofName? (Text.lower (Text.trim s)) with
  | some f => .ok f
  | none => .error ⟨s⟩

end Format

/-- One live pair by the names of its types. -/
structure Row where
  source : String
  target : String
  kind : Kind
  deriving DecidableEq, Inhabited

end Listing

open Listing (Row Format)

/-- Everything an export carries. -/
structure Listing where
  name : String
  /-- The rows; a filter that keeps none leaves no list at all. -/
  rows : Option (List Row)
  stats : CompatTable.Stats
  deriving Inhabited

/-- The style of a kind, if it has one. -/
def Kind.style? : Kind → Option Text.Style
  | .promote => some .green
  | .safe => some .cyan
  | .lossy => some .yellow
  | _ => none

/-- The name of a kind in its style. -/
def Kind.paint (color : Bool) (k : Kind) : String :=
  match k.style? with
  | some style => style.paint color k.name
  | none => k.name

namespace CompatTable.Stats

/-- Statistics as fields of JSON. -/
def toJson (s : CompatTable.Stats) : Json :=
  .object [("buckets", .int s.bins.toNat), ("used", .int s.used.toNat), ("records", .int s.records.toNat),
    ("live", .int s.live.toNat), ("shadowed", .int s.shadowed.toNat), ("longest_bin", .int s.longest.toNat),
    ("average_fill", .float s.averageFill)]

/-- Statistics as fields of a binary document. -/
def toMessagePack (s : CompatTable.Stats) : MessagePack :=
  .map [("buckets", .word s.bins), ("used", .word s.used), ("records", .word s.records), ("live", .word s.live),
    ("shadowed", .word s.shadowed), ("longest_bin", .word s.longest), ("average_fill", .double s.averageFill)]

/-- Statistics for people. -/
def toText (s : CompatTable.Stats) : String :=
  "buckets:      " ++ toString s.bins ++ "\nused:         " ++ toString s.used ++ "\nrecords:      " ++
    toString s.records ++ "\nlive:         " ++ toString s.live ++ "\nshadowed:     " ++ toString s.shadowed ++
    "\nlongest bin:  " ++ toString s.longest ++ "\naverage fill: " ++ s.averageFill.fixed 2 ++ "\n"

end CompatTable.Stats

/-- What an exporter hands over: pieces of text, each written on its own, or bytes. -/
inductive Export where
  | text (pieces : List String)
  | binary (bytes : List UInt8)

namespace Listing

/-- Lists records in their order under given names. -/
def ofRecords (name : String) (records : List Record) (stats : CompatTable.Stats) (naming : TypeId → String) :
    Listing :=
  { name
    rows := some (records.map fun r => ⟨naming r.pair.source, naming r.pair.target, r.kind⟩)
    stats }

/-- The rows, none when there is no list. -/
def rowList (d : Listing) : List Row := d.rows.getD []

/-- Keeps the rows of some kinds; without kinds it keeps everything. -/
def filter (d : Listing) (kinds : List Kind) : Listing :=
  if kinds.isEmpty then d
  else
    let kept := d.rowList.filter fun r => kinds.contains r.kind
    { d with rows := if kept.isEmpty then none else some kept }

/-- A row as JSON. -/
def Row.toJson (r : Row) : Json :=
  .object [("from", .string r.source), ("to", .string r.target), ("kind", .string r.kind.name)]

/-- A row as a binary document. -/
def Row.toMessagePack (r : Row) : MessagePack :=
  .map [("from", .text r.source), ("to", .text r.target), ("kind", .text r.kind.name)]

/-- An export as JSON. -/
def toJson (d : Listing) : Json :=
  .object [("universe", .string d.name),
    ("rows", match d.rows with
      | some rows => .array (rows.map Row.toJson)
      | none => .null),
    ("stats", d.stats.toJson)]

/-- An export as a binary document. -/
def toMessagePack (d : Listing) : MessagePack :=
  .map [("universe", .text d.name),
    ("rows", match d.rows with
      | some rows => .array (rows.map Row.toMessagePack)
      | none => .nil),
    ("stats", d.stats.toMessagePack)]

/-- An export as aligned lines: a header, the rows and their number. -/
def toLines (d : Listing) (color : Bool) : List String :=
  let rows := d.rowList
  let sourceWidth := (rows.map fun r => Text.width r.source).foldl max 4
  let targetWidth := (rows.map fun r => Text.width r.target).foldl max 2
  let line (source target kind : String) : String :=
    Text.fillRight source sourceWidth ++ "  " ++ Text.fillRight target targetWidth ++ "  " ++ kind
  (Text.Style.bold.paint color (line "FROM" "TO" "KIND") ++ "\n") ::
    (rows.map fun r => line r.source r.target (r.kind.paint color) ++ "\n") ++
    [toString rows.length ++ " pairs in " ++ Text.quote d.name ++ "\n"]

/-- Writes an export in a form. -/
def write (d : Listing) (color : Bool) : Format → Export
  | .text => .text (d.toLines color)
  | .json => .text [d.toJson.pretty ++ "\n"]
  | .messagePack => .binary d.toMessagePack.bytes

end Listing

/-- Writes statistics in a form. -/
def CompatTable.Stats.write (s : CompatTable.Stats) : Format → Export
  | .text => .text [s.toText]
  | .json => .text [s.toJson.pretty ++ "\n"]
  | .messagePack => .binary s.toMessagePack.bytes

end Coercion
