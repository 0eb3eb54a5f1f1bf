import Coercion.Text.CodePoints

/-!
# Paths

Paths are texts whose parts are separated by slashes.  The functions here look at the text only.
-/

namespace Coercion.Command.Path

/-- The parts of a path, with empty ones where slashes meet. -/
def parts (p : String) : List String := (Text.splitChars '/' p.toList).map String.ofList

/-- Whether a path starts at the root. -/
def isAbsolute (p : String) : Bool := p.toList.head? == some '/'

/-- Puts a part on a stack of parts: a dot is nothing, and two dots take the part before away.  Two dots that find no
part stay, unless the path starts at the root. -/
def push (absolute : Bool) (stack : List String) (part : String) : List String :=
  if part = "" ∨ part = "." then stack
  else if part = ".." then
    match stack with
    | [] => if absolute then [] else [".."]
    | top :: rest => if top = ".." then ".." :: stack else rest
  else part :: stack

/-- The shortest path that means the same. -/
def clean (p : String) : String :=
  let absolute := isAbsolute p
  let text := "/".intercalate ((parts p).foldl (push absolute) []).reverse
  if absolute then "/" ++ text else if text = "" then "." else text

/-- A path below a directory. -/
def join (directory p : String) : String :=
  if directory = "" ∧ p = "" then ""
  else if directory = "" then clean p
  else if p = "" then clean directory
  else clean (directory ++ "/" ++ p)

/-- A path as seen from the root, given the working directory. -/
def absolute (working p : String) : String := if isAbsolute p then clean p else join working p

/-- The directory of a path. -/
def parent (p : String) : String := clean (String.ofList (p.toList.reverse.dropWhile (· != '/')).reverse)

/-- The last dot of the last part and what follows, or nothing. -/
def extension (p : String) : String :=
  let name := p.toList.reverse.takeWhile (· != '/')
  if name.contains '.' then String.ofList ('.' :: (name.takeWhile (· != '.')).reverse) else ""

end Coercion.Command.Path
