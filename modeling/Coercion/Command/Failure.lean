import Coercion.Command.Host
import Coercion.Command.Invocation
import Coercion.Command.Manifest
import Coercion.Listing
import Coercion.Registry
import Coercion.Stress.Run
import Coercion.Table.Basic
import Coercion.Trace.Journal
import Coercion.Universe.Build

/-!
# Failures of commands

Everything that can end a command early, and the words for it.
-/

namespace Coercion.Command

/-- Why a command fails. -/
inductive Failure where
  /-- A contract was broken; this is a defect and not an answer. -/
  | fault (f : Fault)
  | usage (e : UsageError)
  | file (e : FileError)
  -- Preparation
  | color (value : String)
  | traceLevel (e : Trace.Level.Unknown)
  | traceMode (e : Trace.Mode.Unknown)
  | traceStorage (e : Trace.Journal.BadMode)
  | traceOutput (e : FileError)
  | profile (what : String) (e : FileError)
  -- Loading
  | manifestPlace (path : String) (e : FileError)
  | manifest (path : String) (e : Manifest.Malformed)
  | tableFile (path : String) (e : FileError)
  | tableFormat (path : String)
  | tableText (path : String) (e : Table.Malformed)
  | invalid (e : Universe.Failure)
  | failOn (e : Severity.Unknown)
  | severe (table : String) (count : Nat) (floor : Severity)
  -- Questions
  | unknownName (e : Registry.Refusal)
  | argument (e : Registry.Refusal)
  | overload (number : Nat) (e : Registry.Refusal)
  | overloadArity (number parameters arguments : Nat)
  | noOverload
  | format (value : String)
  | functions (errors : String)
  | noFunction
  | unresolved (call : String)
  -- Listings
  | listingFormat (e : Listing.Format.Unknown)
  | kind (e : Kind.Unknown)
  | tally (e : CompatTable.Overflow)
  -- Trials
  | ui (value : String)
  | noTypes (table : String)
  | stress (e : Stress.Failure)
  | mismatches (verdict : String)
  | rounds (n : Int)
  -- New directories
  | notDirectory (path : String)
  | initialized (path : String)
  | makeDirectory (path : String) (e : FileError)
  | writeTable (name : String) (e : FileError)
  | writeManifest (e : FileError)

/-- The wording of a failure. -/
def Failure.message : Failure → String
  | fault f => f.message?.getD ""
  | usage e => e.message
  | file e => e.message
  | color v => "invalid --color value " ++ Text.quote v ++ " (expected auto|on|off)"
  | traceLevel e => "invalid trace level: " ++ e.message
  | traceMode e => "invalid trace mode: " ++ e.message
  | traceStorage e => "failed to create tracer: " ++ e.message
  | traceOutput e => "failed to create tracer: failed to open trace output: " ++ e.message
  | profile what e => what ++ ": " ++ e.message
  | manifestPlace p e => "failed to stat " ++ Text.quote p ++ ": " ++ e.message
  | manifest p e => e.message p
  | tableFile p e => "reading type table " ++ p ++ ": " ++ e.message
  | tableFormat p => p ++ ": unsupported type table format (want .toml, .yaml or .yml)"
  | tableText p e => e.message p
  | invalid e => e.message
  | failOn e => "--fail-on: " ++ e.message
  | severe t n s =>
    "table " ++ Text.quote t ++ ": " ++ toString n ++ " diagnostic(s) at or above " ++ s.name
  | unknownName e => e.message
  | argument e => "--arg: " ++ e.message
  | overload i e => "--overload " ++ toString i ++ ": " ++ e.message
  | overloadArity i n a =>
    "--overload " ++ toString i ++ " has " ++ toString n ++ " parameters, --arg has " ++ toString a
  | noOverload => "at least one --overload is required"
  | format v => "unsupported format " ++ Text.quote v ++ " (must be pretty or json)"
  | functions e => e
  | noFunction => "missing function name (or use --list)"
  | unresolved call => "cannot resolve " ++ call
  | listingFormat e => e.message
  | kind e => "--kind: " ++ e.message
  | tally e => e.message
  | ui v => "invalid --ui value " ++ Text.quote v ++ " (expected auto|on|off)"
  | noTypes t => "type table " ++ Text.quote t ++ " declares no types"
  | stress e => e.message
  | mismatches v => v
  | rounds n => "--rounds must be positive, got " ++ toString n
  | notDirectory p => Text.quote p ++ " is not a directory"
  | initialized p => "already initialized: " ++ p ++ " exists"
  | makeDirectory p e => "failed to create directory " ++ Text.quote p ++ ": " ++ e.message
  | writeTable n e => "failed to write " ++ n ++ ": " ++ e.message
  | writeManifest e => "failed to write manifest: " ++ e.message

end Coercion.Command
