import Coercion.Text.Keyword
import Coercion.Text.Quoted

/-!
# Diagnostics

What goes wrong while a table is loaded or a call is resolved: a severity, a numbered code, the subject it is about
and a message, with notes.
-/

namespace Coercion

/-- The rank of a diagnostic; a larger rank is more serious. -/
structure Severity where
  rank : UInt8
  deriving DecidableEq, Inhabited

namespace Severity

def info : Severity := ⟨0⟩
def warning : Severity := ⟨1⟩
def error : Severity := ⟨2⟩

/-- The name of a severity. -/
def name (s : Severity) : String :=
  match s.rank.toNat with
  | 0 => "INFO"
  | 1 => "WARNING"
  | 2 => "ERROR"
  | _ => "UNKNOWN"

/-- Whether it makes a table or a resolution unusable. -/
def isError (s : Severity) : Bool := error.rank ≤ s.rank

/-- A spelling that names no severity. -/
structure Unknown where
  text : String

/-- The wording of the spelling error. -/
def Unknown.message (e : Unknown) : String :=
  "unknown severity " ++ Text.quote e.text

/-- Reads the name of a severity in any case, blanks around it allowed. -/
def parse (s : String) : Except Unknown Severity :=
  match Text.upper (Text.trim s) with
  | "INFO" => .ok info
  | "WARN" | "WARNING" => .ok warning
  | "ERROR" => .ok error
  | _ => .error ⟨s⟩

end Severity

/-- The number of a kind of diagnostic. -/
structure DiagCode where
  number : UInt16
  deriving DecidableEq, Inhabited

namespace DiagCode

def unknown : DiagCode := ⟨0⟩
def tableInfo : DiagCode := ⟨1000⟩
def unknownType : DiagCode := ⟨1001⟩
def duplicateType : DiagCode := ⟨1002⟩
def badRule : DiagCode := ⟨1003⟩
def badAlias : DiagCode := ⟨1004⟩
def shadowedRule : DiagCode := ⟨1005⟩
def badFunction : DiagCode := ⟨1006⟩
def resolutionInfo : DiagCode := ⟨2000⟩
def noOverload : DiagCode := ⟨2001⟩
def ambiguousOverload : DiagCode := ⟨2002⟩
def unknownFunction : DiagCode := ⟨2003⟩
def arityMismatch : DiagCode := ⟨2004⟩
def lossyRejected : DiagCode := ⟨2005⟩
def loadFile : DiagCode := ⟨4001⟩

/-- The stable identifier of a code: the thousands tell the area. -/
def id (c : DiagCode) : String :=
  let n := c.number.toNat
  let digits := String.ofList (Text.decimalPadded 4 n)
  match n / 1000 with
  | 1 => "TBL" ++ digits
  | 2 => "RES" ++ digits
  | 4 => "IO" ++ digits
  | _ => "E0000"

/-- A one-line description; codes without one are unknown errors. -/
def title (c : DiagCode) : String :=
  match c.number.toNat with
  | 1000 => "Type table information"
  | 1001 => "Unknown type name"
  | 1002 => "Duplicate type name"
  | 1003 => "Malformed compatibility rule"
  | 1004 => "Malformed type alias"
  | 1005 => "Rule overrides an earlier rule for the same pair"
  | 1006 => "Malformed function declaration"
  | 2000 => "Resolution information"
  | 2001 => "No matching overload found"
  | 2002 => "Ambiguous overload resolution"
  | 2003 => "Unknown function"
  | 2004 => "Wrong number of arguments"
  | 2005 => "Only unsafe conversions match"
  | 4001 => "Failed to load file"
  | _ => "Unknown error"

/-- Identifier and description. -/
def render (c : DiagCode) : String := "[" ++ c.id ++ "]: " ++ c.title

end DiagCode

/-- A remark that goes with a diagnostic. -/
structure Note where
  subject : String
  message : String
  deriving DecidableEq, Inhabited

/-- One reported problem. -/
structure Diagnostic where
  severity : Severity
  code : DiagCode
  subject : String
  message : String
  notes : List Note := []
  deriving DecidableEq, Inhabited

namespace Diagnostic

/-- An error about a subject. -/
def error (code : DiagCode) (subject message : String) : Diagnostic :=
  { severity := .error, code, subject, message }

/-- A warning about a subject. -/
def warning (code : DiagCode) (subject message : String) : Diagnostic :=
  { severity := .warning, code, subject, message }

/-- Adds a note after those that are there. -/
def withNote (d : Diagnostic) (subject message : String) : Diagnostic :=
  { d with notes := d.notes ++ [⟨subject, message⟩] }

/-- A diagnostic on one line. -/
def render (d : Diagnostic) : String :=
  let head := d.severity.name ++ " " ++ d.code.id
  if d.subject = "" then head ++ ": " ++ d.message else head ++ " " ++ d.subject ++ ": " ++ d.message

/-- The order of a sorted listing: by subject, then the more serious, then the smaller code. -/
def le (d e : Diagnostic) : Bool :=
  if d.subject ≠ e.subject then d.subject < e.subject
  else if d.severity ≠ e.severity then e.severity.rank < d.severity.rank
  else d.code.number ≤ e.code.number

end Diagnostic

end Coercion
