import Coercion.Json
import Coercion.Text.Keyword
import Coercion.Trace.Moment

/-!
# Trace events

A trace records when spans of work begin and end, and single points in between.  The scope of an event tells how fine
it is; a level lets scopes up to some fineness through.
-/

namespace Coercion.Trace

/-- What an event records. -/
inductive EventKind where
  | spanBegin
  | spanEnd
  | point
  | heartbeat
  | other
  deriving DecidableEq, Inhabited

namespace EventKind

/-- The kind with a number. -/
def ofCode : Nat → EventKind
  | 1 => spanBegin
  | 2 => spanEnd
  | 3 => point
  | 4 => heartbeat
  | _ => other

/-- The name of a kind. -/
def name : EventKind → String
  | spanBegin => "begin"
  | spanEnd => "end"
  | point => "point"
  | heartbeat => "heartbeat"
  | other => "unknown"

/-- The mark in front of an event in a text. -/
def mark : EventKind → String
  | spanBegin => "→ "
  | spanEnd => "← "
  | point => "• "
  | heartbeat => "♡ "
  | other => ""

end EventKind

/-- How fine an event is. -/
inductive Scope where
  /-- A whole command. -/
  | driver
  /-- Loading, building, closing, a stress run. -/
  | pass
  /-- One table or one worker. -/
  | table
  /-- Single rules and derived pairs. -/
  | rule
  | other
  deriving DecidableEq, Inhabited

namespace Scope

/-- The scope with a number. -/
def ofCode : Nat → Scope
  | 1 => driver
  | 2 => pass
  | 3 => table
  | 4 => rule
  | _ => other

/-- The name of a scope. -/
def name : Scope → String
  | driver => "driver"
  | pass => "pass"
  | table => "table"
  | rule => "rule"
  | other => "unknown"

/-- The fineness of a scope, if it is one. -/
def fineness? : Scope → Option Nat
  | driver => some 1
  | pass => some 2
  | table => some 3
  | rule => some 4
  | other => none

end Scope

/-- How much is traced. -/
inductive Level where
  | off
  | error
  | phase
  | detail
  | debug
  | other
  deriving DecidableEq, Inhabited

namespace Level

/-- The level with a number. -/
def ofCode : Nat → Level
  | 0 => off
  | 1 => error
  | 2 => phase
  | 3 => detail
  | 4 => debug
  | _ => other

/-- The name of a level. -/
def name : Level → String
  | off => "off"
  | error => "error"
  | phase => "phase"
  | detail => "detail"
  | debug => "debug"
  | other => "unknown"

/-- The levels that can be asked for. -/
def all : List Level := [off, error, phase, detail, debug]

/-- The finest scope that a level lets through; zero is none. -/
def finest : Level → Nat
  | phase => 2
  | detail => 3
  | debug => 4
  | _ => 0

/-- Whether tracing is active. -/
def enabled (l : Level) : Bool := l != off

/-- Whether a level lets a scope through. -/
def emits (l : Level) (s : Scope) : Bool :=
  match s.fineness? with
  | some n => n ≤ l.finest
  | none => false

/-- A spelling that names no level. -/
structure Unknown where
  text : String

/-- The wording of the spelling error. -/
def Unknown.message (e : Unknown) : String :=
  "invalid trace level: " ++ Text.quote e.text ++ " (expected: off|error|phase|detail|debug)"

/-- Reads the name of a level in any case. -/
def parse (s : String) : Except Unknown Level :=
  match all.find? fun l => Text.equalFold s l.name with
  | some l => .ok l
  | none => .error ⟨s⟩

end Level

/-- The form of written events. -/
inductive Format where
  /-- Chosen by the name of the output. -/
  | auto
  | text
  | jsonLines
  deriving DecidableEq, Inhabited

namespace Format

/-- The number of a form. -/
def code : Format → Nat
  | auto => 0
  | text => 1
  | jsonLines => 2

/-- A spelling that names no form. -/
structure Unknown where
  text : String

/-- The wording of the spelling error. -/
def Unknown.message (e : Unknown) : String :=
  "invalid trace format: " ++ Text.quote e.text ++ " (expected: auto|text|ndjson)"

/-- Reads the name of a form in any case. -/
def parse (s : String) : Except Unknown Format :=
  match Text.lower s with
  | "" | "auto" => .ok auto
  | "text" => .ok text
  | "ndjson" | "json" => .ok jsonLines
  | _ => .error ⟨s⟩

/-- The form for an output: unless it is given, the ending of the output's name decides. -/
def resolve (f : Format) (path : String) : Format :=
  match f with
  | auto => if path.endsWith ".ndjson" || path.endsWith ".jsonl" then jsonLines else text
  | f => f

end Format

/-- Notes by name, in the order of the names. -/
abbrev Notes := List (String × String)

/-- Sets a note, keeping the order. -/
def Notes.set : Notes → String → String → Notes
  | [], k, v => [(k, v)]
  | (k', v') :: rest, k, v =>
    if k = k' then (k, v) :: rest
    else if k < k' then (k, v) :: (k', v') :: rest
    else (k', v') :: Notes.set rest k v

/-- One trace record.  A span or parent of number zero is none. -/
structure Event where
  time : Moment
  seq : UInt64 := 0
  kind : EventKind
  scope : Scope
  span : UInt64
  parent : UInt64 := 0
  /-- The thread that emitted the event. -/
  thread : UInt64 := 0
  name : String
  detail : String := ""
  notes : Notes := []
  deriving DecidableEq, Inhabited

namespace Event

/-- Whether an event passes at a level; heartbeats always do. -/
def admitted (e : Event) (l : Level) : Bool :=
  e.kind = .heartbeat || l.emits e.scope

/-- A number that is left out when it is zero. -/
def optionalNumber (name : String) (n : UInt64) : List (String × Json) :=
  if n = 0 then [] else [(name, .int n.toNat)]

/-- A text that is left out when it is empty. -/
def optionalText (name s : String) : List (String × Json) :=
  if s = "" then [] else [(name, .string s)]

/-- An event as a JSON object. -/
def toJson (e : Event) : Json :=
  .object ([("time", .string e.time.render), ("seq", .int e.seq.toNat), ("kind", .string e.kind.name),
    ("scope", .string e.scope.name), ("span_id", .int e.span.toNat)] ++
    optionalNumber "parent_id" e.parent ++ optionalNumber "gid" e.thread ++ [("name", .string e.name)] ++
    optionalText "detail" e.detail ++
    if e.notes.isEmpty then [] else [("extra", .object (e.notes.map fun (k, v) => (k, .string v)))])

/-- An event as a line of text; events below a span are indented. -/
def toLine (e : Event) : String :=
  "[" ++ e.time.clock ++ "] #" ++ String.ofList (Text.padRight 5 ' ' (toString e.seq).toList) ++ " " ++
    (if e.parent = 0 then "" else "  ") ++ e.kind.mark ++ e.name ++
    (if e.detail = "" then "" else " (" ++ e.detail ++ ")") ++
    if e.notes.isEmpty then ""
    else " \x7b" ++ ", ".intercalate (e.notes.map fun (k, v) => k ++ "=" ++ v) ++ "\x7d"

/-- An event in a form, with its line end. -/
def render (e : Event) : Format → String
  | .jsonLines => e.toJson.compact ++ "\n"
  | _ => e.toLine ++ "\n"

end Event

end Coercion.Trace
