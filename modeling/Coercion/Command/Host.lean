import Coercion.Trace.Moment

/-!
# Hosts

A host is the system a command runs on: files, output streams, clocks.  Commands are written for any host, so that they
can run on the real system as well as on files held in memory.
-/

namespace Coercion.Command

/-- Why a file system refuses a request. -/
inductive FileError.Cause where
  | missing
  | notDirectory
  | isDirectory
  | badName
  | longName
  | denied
  | other (text : String)
  deriving DecidableEq

/-- The wording of a cause. -/
def FileError.Cause.message : FileError.Cause → String
  | missing => "no such file or directory"
  | notDirectory => "not a directory"
  | isDirectory => "is a directory"
  | badName => "invalid argument"
  | longName => "file name too long"
  | denied => "permission denied"
  | other text => text

/-- A refused request: what was to be done, to which path, and why not. -/
structure FileError where
  request : String
  path : String
  cause : FileError.Cause
  deriving DecidableEq

/-- The wording of a refused request. -/
def FileError.message (e : FileError) : String := e.request ++ " " ++ e.path ++ ": " ++ e.cause.message

/-- What stands at a path. -/
inductive FileKind where
  | file
  | directory
  deriving DecidableEq

/-- The streams a command writes to. -/
inductive Stream where
  | output
  | error
  /-- Events of a trace that has no file. -/
  | trace
  deriving DecidableEq

/-- The operations of a host. -/
class Host (m : Type → Type) where
  /-- The path of the working directory from the root. -/
  directory : m String
  /-- What stands at a path. -/
  kind : String → m (Except FileError FileKind)
  /-- The bytes of a file. -/
  read : String → m (Except FileError ByteArray)
  /-- Gives a file new bytes; the file is made if there is none. -/
  write : String → ByteArray → m (Except FileError Unit)
  /-- Adds bytes to the end of a file. -/
  append : String → ByteArray → m Unit
  /-- Makes a directory and those above it. -/
  makeDirectory : String → m (Except FileError Unit)
  /-- Writes to a stream. -/
  emit : Stream → ByteArray → m Unit
  /-- A clock in nanoseconds. -/
  clock : m Nat
  /-- The time of day. -/
  moment : m Trace.Moment
  /-- Does some work and gives the nanoseconds that it took. -/
  measure : (Unit → Nat) → m Nat
  /-- How many threads run at the same time. -/
  processors : m Nat
  /-- Whether the output goes to a terminal that shows colours. -/
  terminal : m Bool

end Coercion.Command
