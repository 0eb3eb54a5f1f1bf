import Coercion.Command.Run
import Std.Time.DateTime.Timestamp

/-!
# The program

Runs commands on the real system.
-/

namespace Coercion.Command

/-- The cause of an error of the system, by its number where it has a name of its own.  Some calls give the number with
the opposite sign. -/
def causeOf (e : IO.Error) : FileError.Cause :=
  let numbered (n : UInt32) (text : String) : FileError.Cause :=
    match n.toInt32.toInt.natAbs with
    | 2 => .missing
    | 13 => .denied
    | 20 => .notDirectory
    | 21 => .isDirectory
    | 22 => .badName
    | 36 => .longName
    | _ => .other (Text.lower text)
  match e with
  | .noFileOrDirectory _ n text | .interrupted _ n text => numbered n text
  | .alreadyExists _ n text | .invalidArgument _ n text | .permissionDenied _ n text | .resourceExhausted _ n text
  | .inappropriateType _ n text | .noSuchThing _ n text => numbered n text
  | .otherError n text | .resourceBusy n text | .resourceVanished n text | .unsupportedOperation n text
  | .hardwareFault n text | .unsatisfiedConstraints n text | .illegalOperation n text | .protocolError n text
  | .timeExpired n text => numbered n text
  | .unexpectedEof => .other "unexpected end of file"
  | .userError text => .other text

/-- Carries out a request to the file system. -/
def request {α : Type} (name path : String) (x : IO α) : IO (Except FileError α) := do
  try
    return .ok (← x)
  catch e =>
    return .error ⟨name, path, causeOf e⟩

/-- What stands at a path. -/
def kindOf (path : String) : IO (Except FileError FileKind) :=
  request "stat" path do
    let place := (← IO.currentDir) / path
    match (← place.metadata).type with
    | .dir => return .directory
    | _ => return .file

/-- The bytes of a file; a directory can be opened but not read. -/
def readBytes (path : String) : IO (Except FileError ByteArray) := do
  match ← kindOf path with
  | .ok .directory => return .error ⟨"read", path, .isDirectory⟩
  | _ => request "open" path (IO.FS.readBinFile path)

/-- Writes to a stream of the process and hands it over at once. -/
def emitTo (s : Stream) (bytes : ByteArray) : IO Unit := do
  let out ← match s with
    | .output => IO.getStdout
    | .error | .trace => IO.getStderr
  out.write bytes
  out.flush

/-- Does some work and gives the nanoseconds that it took. -/
def timeWork (work : Unit → Nat) : IO Nat := do
  let start ← IO.monoNanosNow
  discard (IO.lazyPure work)
  return (← IO.monoNanosNow) - start

/-- The real system.  Commands run in one thread. -/
instance : Host IO where
  directory := return (← IO.currentDir).toString
  kind := kindOf
  read := readBytes
  write path bytes := request "open" path (IO.FS.writeBinFile path bytes)
  append path bytes := do
    discard (request "write" path do
      let h ← IO.FS.Handle.mk path .append
      h.write bytes)
  makeDirectory path := request "mkdir" path (IO.FS.createDirAll path)
  emit := emitTo
  clock := IO.monoNanosNow
  moment := do
    let ns := (← Std.Time.Timestamp.now).toNanosecondsSinceUnixEpoch.toInt
    return ⟨ns / 1000000000, ns % 1000000000, 0⟩
  measure := timeWork
  processors := return 1
  terminal := do
    if (← IO.getEnv "NO_COLOR").getD "" ≠ "" then return false
    (← IO.getStdout).isTty

end Coercion.Command

/-- Runs the program; a broken contract ends it with the exit code 2. -/
def main (args : List String) : IO UInt32 := do
  match ← (Coercion.Command.run args : IO (Except Coercion.Fault UInt32)) with
  | .ok code => return code
  | .error f => do
    IO.eprintln (f.message?.getD "fault")
    return 2
