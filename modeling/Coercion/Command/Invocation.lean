import Coercion.Command.Flag
import Coercion.Release
import Coercion.Text.Distance
import Coercion.Text.Keyword

/-!
# Invocations

What the arguments of the program ask for.  The first argument that is neither a flag nor the value of one names a
command; the flags of the program may stand before and after it, those of the command after it or before it.  Then all
flags are read, and the number of the other arguments is checked.
-/

namespace Coercion.Command

/-! ### Options -/

/-- The options that every command has. -/
structure Globals where
  color : String := "auto"
  quiet : Bool := false
  timings : Bool := false
  maxDiagnostics : Int := 64
  failOn : String := "error"
  config : String := ""
  table : String := ""
  trace : String := ""
  traceLevel : String := "off"
  traceMode : String := "stream"
  traceRingSize : Int := 4096
  traceHeartbeat : Int := 0
  cpuProfile : String := ""
  memProfile : String := ""
  runtimeTrace : String := ""
  deriving DecidableEq

/-- The flags that every command has. -/
def Globals.flags : List (Flag Globals) :=
  [.text "color" fun v o => { o with color := v }, .bool "quiet" fun v o => { o with quiet := v },
    .bool "timings" fun v o => { o with timings := v }, .int "max-diagnostics" fun v o => { o with maxDiagnostics := v },
    .text "fail-on" fun v o => { o with failOn := v }, .text "config" fun v o => { o with config := v },
    .text "table" fun v o => { o with table := v }, .text "trace" fun v o => { o with trace := v },
    .text "trace-level" fun v o => { o with traceLevel := v }, .text "trace-mode" fun v o => { o with traceMode := v },
    .int "trace-ring-size" fun v o => { o with traceRingSize := v },
    .duration "trace-heartbeat" fun v o => { o with traceHeartbeat := v },
    .text "cpu-profile" fun v o => { o with cpuProfile := v }, .text "mem-profile" fun v o => { o with memProfile := v },
    .text "runtime-trace" fun v o => { o with runtimeTrace := v }]

/-- The options of a selection; `lossy` is empty if the manifest decides. -/
structure SelectOptions where
  arg : String := ""
  overloads : List String := []
  lossy : Option Bool := none
  deriving DecidableEq

/-- The options of a resolution. -/
structure ResolveOptions where
  list : Bool := false
  asymmetric : Bool := false
  format : String := "pretty"
  lossy : Option Bool := none
  deriving DecidableEq

/-- The options of a listing. -/
structure TableOptions where
  format : String := "text"
  kinds : List String := []
  output : String := ""
  deriving DecidableEq

/-- The options of a stress run. -/
structure StressOptions where
  workers : Int := 0
  queries : Int := 10000
  arity : Int := 2
  overloads : Int := 4
  seed : Nat := 1
  writers : Int := 0
  ui : String := "auto"
  lossy : Option Bool := none
  deriving DecidableEq

/-- The options of a benchmark. -/
structure BenchOptions where
  rounds : Int := 1000
  lossy : Option Bool := none
  deriving DecidableEq

/-- The options of the version command. -/
structure VersionOptions where
  format : String := "pretty"
  full : Bool := false
  deriving DecidableEq

/-- A command with all it needs to know. -/
inductive Invocation where
  | check (both : Bool) (source target : String)
  | select (o : SelectOptions)
  | resolve (o : ResolveOptions) (args : List String)
  | table (o : TableOptions)
  | stats (format : String)
  | stress (o : StressOptions)
  | bench (o : BenchOptions)
  | init (yaml : Bool) (path : String)
  | version (o : VersionOptions)
  deriving DecidableEq

/-! ### The menu -/

/-- How many arguments a command takes. -/
inductive Arity where
  | none
  | exactly (n : Nat)
  | atMost (n : Nat)
  | between (least most : Nat)
  deriving DecidableEq

/-- What is wrong with the arguments of the program. -/
inductive UsageError where
  | flag (e : FlagError)
  /-- A name that is no command below `parent`, with the commands that may have been meant. -/
  | unknownCommand (name parent : String) (meant : List String)
  | count (arity : Arity) (received : Nat)
  deriving DecidableEq

/-- The wording of an arity. -/
def Arity.message : Arity → String
  | none => "no"
  | exactly n => toString n
  | atMost n => "at most " ++ toString n
  | between a b => "between " ++ toString a ++ " and " ++ toString b

/-- The wording of the error. -/
def UsageError.message : UsageError → String
  | flag e => e.message
  | unknownCommand name parent meant =>
    "unknown command " ++ Text.quote name ++ " for " ++ Text.quote parent ++
      if meant.isEmpty then "" else "\n\nDid you mean this?\n" ++ String.join (meant.map fun n => "\t" ++ n ++ "\n")
  | count a n => "accepts " ++ a.message ++ " arg(s), received " ++ toString n

/-- Refuses a wrong number of arguments of a command. -/
def Arity.check (command : String) (args : List String) : Arity → Except UsageError Unit
  | none =>
    match args with
    | [] => .ok ()
    | a :: _ => .error (.unknownCommand a (Release.tool ++ " " ++ command) [])
  | exactly n => if args.length = n then .ok () else .error (.count (.exactly n) args.length)
  | atMost n => if args.length ≤ n then .ok () else .error (.count (.atMost n) args.length)
  | between a b =>
    if a ≤ args.length ∧ args.length ≤ b then .ok () else .error (.count (.between a b) args.length)

/-- A command: its flags on options of its own, and the invocation they make. -/
structure Entry where
  name : String
  Options : Type
  start : Options
  flags : List (Flag Options)
  arity : Arity
  invocation : Options → List String → Invocation

/-- The commands, in the order of the help. -/
def menu : List Entry :=
  [{ name := "check", Options := Bool, start := false, arity := .exactly 2
     flags := [.bool "both" fun v _ => v]
     invocation := fun both args => .check both (args.getD 0 "") (args.getD 1 "") },
    { name := "select", Options := SelectOptions, start := {}, arity := .none
      flags := [.text "arg" fun v o => { o with arg := v },
        .text "overload" fun v o => { o with overloads := o.overloads ++ [v] },
        .bool "unsafe" fun v o => { o with lossy := some v }]
      invocation := fun o _ => .select o },
    { name := "resolve", Options := ResolveOptions, start := {}, arity := .between 0 2
      flags := [.bool "list" fun v o => { o with list := v }, .bool "asymmetric" fun v o => { o with asymmetric := v },
        .text "format" fun v o => { o with format := v }, .bool "unsafe" fun v o => { o with lossy := some v }]
      invocation := .resolve },
    { name := "table", Options := TableOptions, start := {}, arity := .none
      flags := [.text "format" fun v o => { o with format := v },
        .text "kind" fun v o => { o with kinds := o.kinds ++ [v] },
        .text "output" (fun v o => { o with output := v }) (some 'o')]
      invocation := fun o _ => .table o },
    { name := "stats", Options := String, start := "text", arity := .none
      flags := [.text "format" fun v _ => v]
      invocation := fun format _ => .stats format },
    { name := "stress", Options := StressOptions, start := {}, arity := .none
      flags := [.int "workers" fun v o => { o with workers := v }, .int "queries" fun v o => { o with queries := v },
        .int "arity" fun v o => { o with arity := v }, .int "overloads" fun v o => { o with overloads := v },
        .natural "seed" fun v o => { o with seed := v }, .int "writers" fun v o => { o with writers := v },
        .text "ui" fun v o => { o with ui := v }, .bool "unsafe" fun v o => { o with lossy := some v }]
      invocation := fun o _ => .stress o },
    { name := "bench", Options := BenchOptions, start := {}, arity := .none
      flags := [.int "rounds" fun v o => { o with rounds := v }, .bool "unsafe" fun v o => { o with lossy := some v }]
      invocation := fun o _ => .bench o },
    { name := "init", Options := Bool, start := false, arity := .atMost 1
      flags := [.bool "yaml" fun v _ => v]
      invocation := fun yaml args => .init yaml (args.getD 0 ".") },
    { name := "version", Options := VersionOptions, start := {}, arity := .none
      flags := [.text "format" fun v o => { o with format := v }, .bool "full" fun v o => { o with full := v }]
      invocation := fun o _ => .version o }]

/-- The name of the command of an invocation. -/
def Invocation.name : Invocation → String
  | check .. => "check"
  | select .. => "select"
  | resolve .. => "resolve"
  | table .. => "table"
  | stats .. => "stats"
  | stress .. => "stress"
  | bench .. => "bench"
  | init .. => "init"
  | version .. => "version"

/-- Names that lead to the help, and whether they are suggested for others. -/
def topics : List (String × Bool) := [("help", false), ("completion", true)]

/-- The commands suggested for a name that is none: those that begin with it, and those that are at most two bytes away
from it, without regard to case. -/
def suggestions (typed : String) : List String :=
  let t := Text.lower typed
  let names := menu.map (·.name) ++ topics.filterMap fun (n, suggested) => if suggested then some n else none
  names.filter fun n =>
    Text.editDistance t.toUTF8.toList n.toUTF8.toList ≤ 2 || t.toList.isPrefixOf n.toList

/-! ### Finding the command -/

/-- Whether an argument is a flag whose value is the next argument; a flag that is not known is taken for one. -/
def takesNext {α : Type} (flags : List (Flag α)) (arg : String) : Bool :=
  let needsValue (f : Option (Flag α)) : Bool := (f.bind (·.alone)).isNone
  match arg.toList with
  | '-' :: '-' :: name => !name.contains '=' && needsValue (Flag.find? flags (String.ofList name))
  | ['-', c] => c != '=' && c.toNat < 0x80 && needsValue (Flag.findLetter? flags c)
  | _ => false

/-- Whether an argument is not empty and no flag. -/
def isWord (arg : String) : Bool := arg ≠ "" && arg.toList.head? ≠ some '-'

/-- The first argument that is neither a flag nor the value of one. -/
def firstWord? {α : Type} (flags : List (Flag α)) : (skip : Nat) → List String → Option String
  | _, [] => none
  | skip + 1, _ :: rest => firstWord? flags skip rest
  | 0, arg :: rest =>
    if arg = "--" then none
    else if takesNext flags arg then firstWord? flags 1 rest
    else if isWord arg then some arg
    else firstWord? flags 0 rest

/-- The arguments without the first word. -/
def withoutWord {α : Type} (flags : List (Flag α)) : (skip : Nat) → List String → List String
  | _, [] => []
  | skip + 1, arg :: rest => arg :: withoutWord flags skip rest
  | 0, arg :: rest =>
    if arg = "--" then arg :: rest
    else if takesNext flags arg then arg :: withoutWord flags 1 rest
    else if isWord arg then rest
    else arg :: withoutWord flags 0 rest

/-! ### Reading an invocation -/

/-- What the flags of a command line set. -/
structure Line (α : Type) where
  globals : Globals := {}
  help : Bool := false
  /-- Whether the version is asked for by a flag. -/
  banner : Bool := false
  options : α

/-- The flags of the program and of a command, and that for help. -/
def Line.flags {α : Type} (own : List (Flag α)) : List (Flag (Line α)) :=
  Globals.flags.map (·.onPart (·.globals) fun g l => { l with globals := g }) ++
    own.map (·.onPart (·.options) fun o l => { l with options := o }) ++
    [.bool "help" (fun v l => { l with help := v }) (some 'h')]

/-- What the program is asked for. -/
inductive Request where
  | help
  | banner
  | run (globals : Globals) (invocation : Invocation)
  deriving DecidableEq

/-- Reads the arguments of a command. -/
def Entry.read (e : Entry) (args : List String) : Except UsageError Request := do
  let (line, rest) ← (Flag.read (Line.flags e.flags) 0 args { options := e.start }).mapError .flag
  if line.help then return .help
  e.arity.check e.name rest
  return .run line.globals (e.invocation line.options rest)

/-- Reads arguments that name no command. -/
def readBare (args : List String) : Except UsageError Request := do
  let banner : Flag (Line Unit) := .bool "version" (fun v l => { l with banner := v }) (some 'v')
  let (line, _) ← (Flag.read (Line.flags [] ++ [banner]) 0 args { options := () }).mapError .flag
  return if line.banner && !line.help then .banner else .help

/-- Reads the arguments of the program. -/
def Request.read (args : List String) : Except UsageError Request :=
  match firstWord? Globals.flags 0 args with
  | none => readBare args
  | some word =>
    match menu.find? (·.name == word) with
    | some e => e.read (withoutWord Globals.flags 0 args)
    | none =>
      if topics.any (·.1 == word) then .ok .help
      else .error (.unknownCommand word Release.tool (suggestions word))

end Coercion.Command
