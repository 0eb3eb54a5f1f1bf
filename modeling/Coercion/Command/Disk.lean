import Coercion.Command.Host
import Coercion.Command.Path

/-!
# Disks in memory

A disk maps the places of a file tree to files and directories.  A place is the list of the names that lead to it from
the root, and every place above one that is taken is a directory.  A transcript is a host on such a disk: it holds the
disk and all that was written to the streams.
-/

namespace Coercion.Command

/-- What a place holds. -/
inductive Disk.Entry where
  | file (bytes : ByteArray)
  | directory

/-- A place, as the names that lead to it from the root. -/
abbrev Disk.Place := List String

/-- A file tree. -/
structure Disk where
  entries : List (Disk.Place × Disk.Entry) := []

namespace Disk

/-- What stands at a place; the root is always a directory. -/
def at? (d : Disk) (p : Place) : Option Entry :=
  if p.isEmpty then some .directory else d.entries.lookup p

/-- Puts something at a place. -/
def put (d : Disk) (p : Place) (e : Entry) : Disk :=
  ⟨(p, e) :: d.entries.filter (·.1 != p)⟩

/-- Makes a place and those above it directories, where nothing stands yet. -/
def makeDirectories (d : Disk) (p : Place) : Disk :=
  (List.range p.length).foldl
    (fun d n =>
      let q := p.take (n + 1)
      if (d.at? q).isNone then d.put q .directory else d)
    d

/-- The longest name of a file, in bytes. -/
def nameLimit : Nat := 255

/-- Walks along the parts of a path, from a place.  Each part is looked up in a directory. -/
def walk (d : Disk) : Place → List String → Except FileError.Cause Place
  | here, [] => .ok here
  | here, part :: rest =>
    match d.at? here with
    | none => .error .missing
    | some (.file _) => .error .notDirectory
    | some .directory =>
      if part = "" ∨ part = "." then walk d here rest
      else if part = ".." then walk d here.dropLast rest
      else if nameLimit < part.utf8ByteSize then .error .longName
      else walk d (here ++ [part]) rest

/-- The place of a path, seen from a working directory. -/
def locate (d : Disk) (working path : String) : Except FileError.Cause Place :=
  if path = "" then .error .missing
  else if path.toList.contains '\x00' then .error .badName
  else d.walk [] ((if Path.isAbsolute path then [] else Path.parts working) ++ Path.parts path)

/-- What a path leads to. -/
def find (d : Disk) (working path : String) : Except FileError.Cause Entry := do
  let p ← d.locate working path
  match d.at? p with
  | some e => return e
  | none => throw .missing

/-- The place of a file that is to be written. -/
def locateFile (d : Disk) (working path : String) : Except FileError.Cause Place := do
  if path ≠ "" ∧ path.toList.getLast? = some '/' then throw .isDirectory
  let p ← d.locate working path
  match d.at? p with
  | some .directory => throw .isDirectory
  | _ => return p

/-- The order of places: name by name, a directory before what it holds. -/
def Place.le : Place → Place → Bool
  | [], _ => true
  | _ :: _, [] => false
  | a :: as, b :: bs => a < b || (a == b && le as bs)

/-- The files below a place, directory by directory, each with the names that lead to it from there. -/
def filesBelow (d : Disk) (p : Place) : List (Place × ByteArray) :=
  let files := d.entries.filterMap fun (q, e) =>
    match e with
    | .file bytes => if p.isPrefixOf q then some (q.drop p.length, bytes) else none
    | .directory => none
  files.mergeSort fun a b => a.1.le b.1

end Disk

/-- A disk in use by a command. -/
structure Transcript where
  disk : Disk
  /-- The working directory, which exists. -/
  directory : String
  output : ByteArray := .empty
  error : ByteArray := .empty
  trace : ByteArray := .empty
  /-- The reading of the clock, in nanoseconds. -/
  time : Nat := 0

namespace Transcript

/-- Lets the clock go on by a microsecond. -/
def tick (t : Transcript) : Transcript := { t with time := t.time + 1000 }

/-- Adds bytes to a stream. -/
def emit (t : Transcript) (s : Stream) (bytes : ByteArray) : Transcript :=
  match s with
  | .output => { t with output := t.output ++ bytes }
  | .error => { t with error := t.error ++ bytes }
  | .trace => { t with trace := t.trace ++ bytes }

/-- What stands at a path. -/
def kind (t : Transcript) (path : String) : Except FileError FileKind :=
  match t.disk.find t.directory path with
  | .ok (.file _) => .ok .file
  | .ok .directory => .ok .directory
  | .error c => .error ⟨"stat", path, c⟩

/-- The bytes of a file. -/
def read (t : Transcript) (path : String) : Except FileError ByteArray :=
  match t.disk.find t.directory path with
  | .ok (.file bytes) => .ok bytes
  | .ok .directory => .error ⟨"read", path, .isDirectory⟩
  | .error c => .error ⟨"open", path, c⟩

/-- Changes the bytes of a file, which is made if there is none. -/
def change (t : Transcript) (path : String) (f : ByteArray → ByteArray) : Except FileError Transcript :=
  match t.disk.locateFile t.directory path with
  | .error c => .error ⟨"open", path, c⟩
  | .ok p =>
    let before := match t.disk.at? p with
      | some (.file bytes) => bytes
      | _ => .empty
    .ok { t with disk := t.disk.put p (.file (f before)) }

/-- Makes a directory and those above it. -/
def makeDirectory (t : Transcript) (path : String) : Except FileError Transcript :=
  let place := ((Path.parts (Path.absolute t.directory path)).filter (· != ""))
  if place.any fun name => nameTooLong name then .error ⟨"mkdir", path, .longName⟩
  else if (List.range place.length).any fun n => isFile (place.take (n + 1)) then
    .error ⟨"mkdir", path, .notDirectory⟩
  else .ok { t with disk := t.disk.makeDirectories place }
where
  nameTooLong (name : String) : Bool := Disk.nameLimit < name.utf8ByteSize
  isFile (p : Disk.Place) : Bool :=
    match t.disk.at? p with
    | some (.file _) => true
    | _ => false

/-- Goes over to a changed transcript, or stays. -/
def attempt (r : Except FileError Transcript) : StateM Transcript (Except FileError Unit) := do
  match r with
  | .ok t => do
    set t
    return .ok ()
  | .error e => return .error e

end Transcript

/-- A transcript as a host.  Work that is only to be timed is not done. -/
instance : Host (StateM Transcript) where
  directory := return (← get).directory
  kind path := return (← get).kind path
  read path := return (← get).read path
  write path bytes := do Transcript.attempt ((← get).change path fun _ => bytes)
  append path bytes := do discard (Transcript.attempt ((← get).change path (· ++ bytes)))
  makeDirectory path := do Transcript.attempt ((← get).makeDirectory path)
  emit s bytes := modify (·.emit s bytes)
  clock := modifyGet fun t => (t.time, t.tick)
  moment := return ⟨0, 0, 0⟩
  measure _ := return 1000
  processors := return 1
  terminal := return false

end Coercion.Command
