import Coercion.Command.Scaffold
import Coercion.Command.Exhibit
import Coercion.Command.Question
import Coercion.Command.Trial

/-!
# Running the program

Reads the arguments, runs the command they name and reports its failure.  The result is the exit code; a broken
contract is passed on as it is.
-/

namespace Coercion.Command

variable {m : Type → Type} [Monad m] [Host m]

/-- What the program is for, and its commands. -/
def helpText : String :=
  "typeconv registers conversion rules between types and ranks overload candidates by the conversions a call needs.\n\n" ++
    "Commands:\n" ++ String.join (menu.map fun e => "  " ++ e.name ++ "\n")

/-- Runs a command. -/
def perform (g : Globals) : Invocation → Action m Unit
  | .check both source target => runCheck g both source target
  | .select o => runSelect g o
  | .resolve o args => runResolve g o args
  | .table o => runTable g o
  | .stats format => runStats g format
  | .stress o => runStress g o
  | .bench o => runBench g o
  | .init yaml path => runInit yaml path
  | .version o => runVersion o

/-- Reports a failure. -/
def reportFailure (color : Bool) (e : Failure) : m Unit :=
  say .error (Text.Style.boldRed.paint color "error:" ++ " " ++ e.message ++ "\n")

/-- Runs a command between its preparation and its conclusion. -/
def performAll (g : Globals) (i : Invocation) : ContextT m (Except Fault UInt32) := do
  match ← ExceptT.run (prepare g *> perform g i) with
  | .ok () => do
    conclude
    return .ok 0
  | .error (.fault f) => return .error f
  | .error e => do
    showTail
    conclude
    reportFailure (← get).color e
    return .ok 1

/-- Runs the program with arguments. -/
def run (args : List String) : m (Except Fault UInt32) := do
  let color ← Host.terminal
  match Request.read args with
  | .error e => do
    reportFailure color (.usage e)
    return .ok 1
  | .ok .help => do
    say .output helpText
    return .ok 0
  | .ok .banner => do
    say .output (Release.tool ++ " version " ++ Release.current.version ++ "\n")
    return .ok 0
  | .ok (.run g i) => return (← (performAll g i).run { color }).1

end Coercion.Command
