import Coercion.Trace.Ring

/-!
# The trace journal

Where events go.  A journal has a level and sinks: streams, which write each admitted event as it comes, and rings,
which keep the newest.  Every sink stamps its own copy of an event with the next sequence number.  Spans take their
numbers from the journal as well.
-/

namespace Coercion.Trace

/-- How events are stored. -/
inductive Mode where
  | stream
  | ring
  | both
  | other
  deriving DecidableEq, Inhabited

namespace Mode

/-- The mode with a number. -/
def ofCode : Nat → Mode
  | 1 => stream
  | 2 => ring
  | 3 => both
  | _ => other

/-- The name of a mode. -/
def name : Mode → String
  | stream => "stream"
  | ring => "ring"
  | both => "both"
  | other => "unknown"

/-- A spelling that names no mode. -/
structure Unknown where
  text : String

/-- The wording of the spelling error. -/
def Unknown.message (e : Unknown) : String :=
  "invalid storage mode: " ++ Text.quote e.text ++ " (expected: stream|ring|both)"

/-- Reads the name of a mode in any case. -/
def parse (s : String) : Except Unknown Mode :=
  match [stream, ring, both].find? fun m => Text.equalFold s m.name with
  | some m => .ok m
  | none => .error ⟨s⟩

end Mode

/-- One place where events go. -/
inductive Sink where
  /-- Writes events in a form; flushing it may fail with a message. -/
  | stream (format : Format) (flushError : Option String)
  | ring (r : Ring)
  deriving Inhabited

/-- The sinks and counters of a trace. -/
structure Journal where
  level : Level
  sinks : List Sink
  /-- The sequence number stamped last. -/
  seq : UInt64 := 0
  /-- The span number given last. -/
  spans : UInt64 := 0
  /-- The time of the events to come. -/
  clock : Moment := ⟨0, 0, 0⟩
  /-- What the streams wrote, in order. -/
  written : Array String := #[]
  deriving Inhabited

/-- A mode in which nothing can be stored. -/
structure Journal.BadMode where
  mode : Mode

/-- The wording of the mode error. -/
def Journal.BadMode.message (e : BadMode) : String := "unknown storage mode: " ++ e.mode.name

namespace Journal

/-- A journal that discards everything. -/
def silent : Journal := { level := .off, sinks := [] }

/-- A journal that keeps its events in a ring. -/
def ofRing (level : Level) (capacity : Int) : Journal :=
  { level, sinks := [.ring (.ofCapacity capacity)] }

/-- A journal for a mode; with tracing off the mode does not matter. -/
def ofMode (level : Level) (mode : Mode) (format : Format) (capacity : Int) : Except BadMode Journal :=
  if level = .off then .ok silent
  else
    match mode with
    | .stream => .ok { level, sinks := [.stream format none] }
    | .ring => .ok (ofRing level capacity)
    | .both => .ok { level, sinks := [.stream format none, .ring (.ofCapacity capacity)] }
    | .other => .error ⟨mode⟩

/-- Whether anything is traced. -/
def enabled (j : Journal) : Bool := j.level.enabled

/-- The first ring among the sinks. -/
def ring? (j : Journal) : Option Ring :=
  j.sinks.findSome? fun
    | .ring r => some r
    | .stream _ _ => none

/-- Hands an event to each of the sinks in turn, with sequence numbers from `seq + 1` on. -/
def store (e : Event) : UInt64 → Array String → List Sink → UInt64 × Array String × List Sink
  | seq, written, [] => (seq, written, [])
  | seq, written, .stream f err :: rest =>
    let (last, written, rest) := store e (seq + 1) (written.push ({ e with seq := seq + 1 }.render f)) rest
    (last, written, .stream f err :: rest)
  | seq, written, .ring r :: rest =>
    let (last, written, rest) := store e (seq + 1) written rest
    (last, written, .ring (r.push { e with seq := seq + 1 }) :: rest)

/-- Records an event if the level admits it. -/
def emit (j : Journal) (e : Event) : Journal :=
  if e.admitted j.level then
    let (seq, written, sinks) := store e j.seq j.written j.sinks
    { j with seq, written, sinks }
  else j

/-- The errors of flushing the sinks, joined. -/
def flushError? (j : Journal) : Option String :=
  let errors := j.sinks.filterMap fun
    | .stream _ err => err
    | .ring _ => none
  if errors.isEmpty then none else some ("\n".intercalate errors)

end Journal

/-- A span of work under way; a span that is not traced has number zero and leaves no events. -/
structure Span where
  id : UInt64 := 0
  parent : UInt64 := 0
  scope : Scope := .other
  name : String := ""
  notes : Notes := []
  traced : Bool := false
  deriving DecidableEq, Inhabited

namespace Journal

/-- Whether spans and points of a scope are recorded. -/
def records (j : Journal) (scope : Scope) : Bool := j.enabled && j.level.emits scope

/-- The thread of the events made here. -/
def thread : UInt64 := 1

/-- Begins a span under a parent. -/
def beginSpan (j : Journal) (scope : Scope) (name : String) (parent : UInt64) : Span × Journal :=
  if j.records scope then
    let id := j.spans + 1
    let j := { j with spans := id }
    (⟨id, parent, scope, name, [], true⟩,
      j.emit { time := j.clock, kind := .spanBegin, scope, span := id, parent, thread, name })
  else ({}, j)

/-- Begins a span under the current one and makes it the current one if it is traced. -/
def startSpan (j : Journal) (scope : Scope) (name : String) (current : UInt64) : Span × UInt64 × Journal :=
  let (span, j) := j.beginSpan scope name current
  (span, if span.id = 0 then current else span.id, j)

/-- Adds a note to a span.  The end events of a span share its notes, so those that carry any follow. -/
def annotate (j : Journal) (span : Span) (key value : String) : Span × Journal :=
  if !span.traced then (span, j)
  else
    let notes := span.notes.set key value
    let follow (e : Event) : Event :=
      if e.kind = .spanEnd ∧ e.span = span.id ∧ !e.notes.isEmpty ∧ e.notes = span.notes then { e with notes } else e
    let sinks := j.sinks.map fun
      | .ring r => .ring (r.map follow)
      | s => s
    ({ span with notes }, { j with sinks })

/-- Adds a note to a span that has not ended. -/
def note (span : Span) (key value : String) : Span :=
  if span.traced then { span with notes := span.notes.set key value } else span

/-- Ends a span. -/
def endSpan (j : Journal) (span : Span) (detail : String) : Journal :=
  if span.traced then
    j.emit
      { time := j.clock, kind := .spanEnd, scope := span.scope, span := span.id, parent := span.parent, thread
        name := span.name, detail, notes := span.notes }
  else j

/-- Records a point under a parent. -/
def point (j : Journal) (scope : Scope) (name detail : String) (parent : UInt64) : Journal :=
  if j.records scope then
    let id := j.spans + 1
    let j := { j with spans := id }
    j.emit { time := j.clock, kind := .point, scope, span := id, parent, thread, name, detail }
  else j

/-- Whether heartbeats at an interval would be sent. -/
def startsHeartbeat (j : Journal) (interval : Int) : Bool := j.enabled && 0 < interval

end Journal

/-- A dump of events in a form. -/
def dump (events : List Event) (f : Format) : String :=
  String.join (events.map (·.render f))

end Coercion.Trace
