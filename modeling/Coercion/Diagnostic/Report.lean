import Coercion.Diagnostic.Bag
import Coercion.Json
import Coercion.Text.Style

/-!
# Reports of diagnostics

A bag is shown to people line by line, and to programs as a JSON document.  A report for people is a list of lines,
each of which is written on its own.
-/

namespace Coercion

/-- The style of a severity. -/
def Severity.style (s : Severity) : Text.Style :=
  if s = .error then .boldRed else if s = .warning then .boldYellow else .cyan

/-- The first line of a diagnostic. -/
def Diagnostic.headLine (color : Bool) (d : Diagnostic) : String :=
  let head := d.severity.style.paint color d.severity.name ++ " " ++ d.code.id ++ ": " ++ d.message
  if d.subject = "" then head else d.subject ++ ": " ++ head

/-- The line of a note. -/
def Note.line (color : Bool) (n : Note) : String :=
  let about := if n.subject = "" then "" else n.subject ++ ": "
  "  " ++ Text.Style.faint.paint color "note:" ++ " " ++ about ++ n.message

/-- The lines of a diagnostic: its head, then its notes. -/
def Diagnostic.lines (color : Bool) (d : Diagnostic) : List String :=
  d.headLine color :: d.notes.map (Note.line color)

/-- The lines of a bag, each with its line end. -/
def Bag.lines (color : Bool) (b : Bag) : List String :=
  (b.items.toList.flatMap (Diagnostic.lines color)).map (· ++ "\n")

/-- A field that is left out when it is empty. -/
def optionalField (name value : String) : List (String × Json) :=
  if value = "" then [] else [(name, .string value)]

/-- A note as JSON. -/
def Note.toJson (n : Note) : Json :=
  .object (optionalField "subject" n.subject ++ [("message", .string n.message)])

/-- A diagnostic as JSON. -/
def Diagnostic.toJson (d : Diagnostic) : Json :=
  .object ([("severity", .string d.severity.name), ("code", .string d.code.id), ("title", .string d.code.title)] ++
    optionalField "subject" d.subject ++ [("message", .string d.message)] ++
    if d.notes.isEmpty then [] else [("notes", .array (d.notes.map Note.toJson))])

/-- A bag as JSON, with the number of its diagnostics. -/
def Bag.toJson (b : Bag) : Json :=
  .object [("diagnostics", .array (b.items.toList.map Diagnostic.toJson)), ("count", .int b.size)]

end Coercion
