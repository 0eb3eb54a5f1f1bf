import Coercion.Stress.Run
import Coercion.Text.Width

/-!
# The live view of a stress run

A dashboard shows a line for each worker and a bar below them.  It changes by messages: a report of a worker, a tick of
the spinner, a new width of the terminal, a key, the end of the run.  Each message is answered by the dashboard
afterwards and by what the terminal loop is to do next.
-/

namespace Coercion.Stress

/-- The line of a worker. -/
structure Dashboard.Row where
  name : String
  status : String := Status.queued.name
  done : UInt64 := 0
  total : UInt64 := 0
  mismatches : UInt64 := 0
  deriving DecidableEq

/-- What the live view holds. -/
structure Dashboard where
  title : String
  rows : Array Dashboard.Row
  /-- The columns of the terminal. -/
  columns : Nat := 80
  /-- The number of the spinner's frame. -/
  frame : Nat := 0
  finished : Bool := false
  deriving DecidableEq

namespace Dashboard

/-- What a dashboard is told. -/
inductive Message where
  /-- A report of a worker; the number need not be that of a worker. -/
  | report (worker : Int) (status : String) (done total mismatches : UInt64)
  /-- No more reports will come. -/
  | closed
  | tick
  | resized (columns : Int)
  | key (name : String)
  | other
  deriving DecidableEq

/-- What the terminal loop does after a message. -/
inductive Reaction where
  | wait
  | proceed
  | quit
  deriving DecidableEq

/-- The dashboard of a run that has not started. -/
def ofWorkers (title : String) (workers : Nat) : Dashboard where
  title
  rows := (Array.range workers).map fun i => { name := "worker " ++ toString i }

/-- The dashboard after a message. -/
def update (d : Dashboard) : Message → Dashboard × Reaction
  | .report worker status done total mismatches =>
    if worker < 0 then (d, .proceed)
    else
      ({ d with rows := d.rows.modify worker.toNat fun r => { r with status, done, total, mismatches } }, .proceed)
  | .closed => ({ d with finished := true }, .quit)
  | .tick => if d.finished then (d, .wait) else ({ d with frame := d.frame + 1 }, .proceed)
  | .resized n => (if 0 < n then { d with columns := n.toNat } else d, .wait)
  | .key name => (d, if name = "ctrl+c" then .quit else .wait)
  | .other => (d, .wait)

/-! ### Drawing -/

/-- The frames of the spinner. -/
def frames : List String := ["⣾ ", "⣽ ", "⣻ ", "⢿ ", "⡿ ", "⣟ ", "⣯ ", "⣷ "]

/-- A text as a block of equally wide lines, with a tab drawn as four spaces. -/
def block (s : String) : String :=
  let flat := String.intercalate "\n" ((s.replace "\t" "    ").splitOn "\r\n")
  match flat.splitOn "\n" with
  | [line] => line
  | lines =>
    let columns := (lines.map Text.width).foldl max 0
    String.intercalate "\n" (lines.map (Text.fillRight · columns))

/-- A name cut to a number of columns, with three dots where something is left out. -/
def clip (name : String) (columns : Nat) : String :=
  if Text.width name ≤ columns then name else String.ofList (name.toList.take (columns - 3)) ++ "..."

/-- The line of a worker, with its name in a column of its own. -/
def Row.line (r : Row) (nameColumns : Nat) : String :=
  "  " ++ block (String.ofList (Text.padLeft 8 ' ' r.status.toList)) ++ " " ++
    Text.fillRight (clip r.name nameColumns) nameColumns ++ " " ++ toString r.done ++ "/" ++ toString r.total ++
    (if r.mismatches = 0 then "" else "  " ++ toString r.mismatches ++ " mismatches") ++ "\n"

/-- The bar, empty until the run has finished: cells, then the share in percent on five columns. -/
def bar (columns : Nat) (full : Bool) : String :=
  String.ofList (List.replicate (columns - 5) (if full then '█' else '░')) ++ if full then " 100%" else "   0%"

/-- The columns of the bar beyond a margin of four. -/
def barColumns (d : Dashboard) : Nat := d.columns - 4

/-- The title behind the spinner or, at the end, behind a word that says so. -/
def header (d : Dashboard) : String :=
  block (if d.finished then "done: " ++ d.title else frames.getD (d.frame % frames.length) "" ++ " " ++ d.title)

/-- The whole view, which is empty without workers. -/
def view (d : Dashboard) : String :=
  if d.rows.isEmpty then ""
  else
    let nameColumns := max (d.columns - 40) 12
    d.header ++ "\n\n" ++ String.join (d.rows.toList.map (·.line nameColumns)) ++ "\n" ++
      bar d.barColumns d.finished ++ "\n"

end Dashboard

end Coercion.Stress
