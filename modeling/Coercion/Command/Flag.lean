import Coercion.Command.Duration
import Coercion.Number.Literal

/-!
# Flags

A flag changes options.  It is given as `--name value` or `--name=value` and, where it has a letter, as `-l value`,
`-lvalue` or `-l=value`; a flag that may stand alone takes no value from the next argument.  Letters of flags that stand
alone can be joined.  Flags and other arguments may be mixed until `--`, after which everything is an argument.
-/

namespace Coercion.Command

/-- A flag that changes options of type `α`. -/
structure Flag (α : Type) where
  name : String
  letter : Option Char := none
  /-- The value that the flag has when it stands alone; a flag without one needs a value. -/
  alone : Option String := none
  /-- Takes in a value, or says what is wrong with it. -/
  set : String → α → Except String α

namespace Flag

variable {α : Type}

/-- Reads a truth value. -/
def readBool? : String → Option Bool
  | "1" | "t" | "T" | "TRUE" | "true" | "True" => some true
  | "0" | "f" | "F" | "FALSE" | "false" | "False" => some false
  | _ => none

/-- What is wrong with the text of a number or truth value. -/
def parsingError (reader text problem : String) : String :=
  "strconv." ++ reader ++ ": parsing " ++ Text.quote text ++ ": " ++ problem

/-- A flag for a text. -/
def text (name : String) (put : String → α → α) (letter : Option Char := none) : Flag α :=
  { name, letter, set := fun s a => .ok (put s a) }

/-- A flag that is on when it stands alone. -/
def bool (name : String) (put : Bool → α → α) (letter : Option Char := none) : Flag α where
  name
  letter
  alone := some "true"
  set s a :=
    match readBool? s with
    | some b => .ok (put b a)
    | none => .error (parsingError "ParseBool" s Number.BadLiteral.shape.message)

/-- A flag for an integer of 64 bits. -/
def int (name : String) (put : Int → α → α) : Flag α where
  name
  set s a :=
    match Number.readInteger s with
    | .ok n => .ok (put n a)
    | .error e => .error (parsingError "ParseInt" s e.message)

/-- A flag for a natural number of 64 bits. -/
def natural (name : String) (put : Nat → α → α) : Flag α where
  name
  set s a :=
    match Number.readNatural s with
    | .ok n => .ok (put n a)
    | .error e => .error (parsingError "ParseUint" s e.message)

/-- A flag for a duration in nanoseconds. -/
def duration (name : String) (put : Int → α → α) : Flag α where
  name
  set s a :=
    match Duration.read s with
    | .ok n => .ok (put n a)
    | .error e => .error (e.message s)

/-- A flag on options that are a part of others. -/
def onPart {β : Type} (f : Flag α) (get : β → α) (put : α → β → β) : Flag β where
  name := f.name
  letter := f.letter
  alone := f.alone
  set s b := (f.set s (get b)).map fun a => put a b

/-- How messages call a flag. -/
def title (f : Flag α) : String :=
  match f.letter with
  | some c => "-" ++ String.singleton c ++ ", --" ++ f.name
  | none => "--" ++ f.name

end Flag

/-- What is wrong with the flags of a command. -/
inductive FlagError where
  | badShape (arg : String)
  | unknown (name : String)
  /-- An unknown letter, at the start of joined letters. -/
  | unknownLetter (letter : Char) (letters : List Char)
  | missingValue (name : String)
  | missingLetterValue (letter : Char) (letters : List Char)
  | badValue (value flag problem : String)
  deriving DecidableEq

namespace FlagError

/-- A letter between single quotes.  A letter outside ASCII is shown by its first byte. -/
def quoteLetter (c : Char) : String :=
  String.ofList ('\'' :: (Text.quoteChar '\'' (if c.toNat < 0x80 then c else 'Ã') ++ ['\'']))

/-- The wording of the error. -/
def message : FlagError → String
  | badShape s => "bad flag syntax: " ++ s
  | unknown name => "unknown flag: --" ++ name
  | unknownLetter c cs => "unknown shorthand flag: " ++ quoteLetter c ++ " in -" ++ String.ofList cs
  | missingValue name => "flag needs an argument: --" ++ name
  | missingLetterValue c cs => "flag needs an argument: " ++ quoteLetter c ++ " in -" ++ String.ofList cs
  | badValue v f p => "invalid argument " ++ Text.quote v ++ " for " ++ Text.quote f ++ " flag: " ++ p

end FlagError

namespace Flag

variable {α : Type}

/-- The flag with a name. -/
def find? (flags : List (Flag α)) (name : String) : Option (Flag α) := flags.find? (·.name == name)

/-- The flag with a letter. -/
def findLetter? (flags : List (Flag α)) (c : Char) : Option (Flag α) := flags.find? (·.letter == some c)

/-- Gives a value to a flag. -/
def apply (f : Flag α) (value : String) (a : α) : Except FlagError α :=
  match f.set value a with
  | .ok a => .ok a
  | .error p => .error (.badValue value f.title p)

/-- Takes in the flag called `name`; `given` is the value behind an equals sign.  The result counts the arguments of
`rest` that were used. -/
def applyLong (flags : List (Flag α)) (name : String) (given : Option String) (rest : List String) (a : α) :
    Except FlagError (α × Nat) :=
  match find? flags name with
  | none => .error (.unknown name)
  | some f =>
    match given.or f.alone, rest with
    | some v, _ => return (← f.apply v a, 0)
    | none, v :: _ => return (← f.apply v a, 1)
    | none, [] => .error (.missingValue name)

/-- Takes in joined letters.  The result counts the arguments of `rest` that were used. -/
def applyLetters (flags : List (Flag α)) (rest : List String) : List Char → α → Except FlagError (α × Nat)
  | [], a => .ok (a, 0)
  | c :: cs, a =>
    if "test.".toList.isPrefixOf (c :: cs) then .ok (a, 0)
    else
      match findLetter? flags c with
      | none => .error (.unknownLetter c (c :: cs))
      | some f =>
        match cs, f.alone, rest with
        | '=' :: d :: ds, _, _ => return (← f.apply (String.ofList (d :: ds)) a, 0)
        | _, some v, _ => do
          let a ← f.apply v a
          applyLetters flags rest cs a
        | _ :: _, none, _ => return (← f.apply (String.ofList cs) a, 0)
        | [], none, v :: _ => return (← f.apply v a, 1)
        | [], none, [] => .error (.missingLetterValue c [c])

/-- The name of a long flag and the value behind an equals sign. -/
def splitLong (cs : List Char) : String × Option String :=
  (String.ofList (cs.takeWhile (· != '=')),
    if cs.contains '=' then some (String.ofList ((cs.dropWhile (· != '=')).drop 1)) else none)

/-- Reads arguments from the left: the options afterwards, and the arguments that are no flags.  `skip` arguments
have been used as values. -/
def read (flags : List (Flag α)) : (skip : Nat) → List String → α → Except FlagError (α × List String)
  | _, [], a => .ok (a, [])
  | skip + 1, _ :: rest, a => read flags skip rest a
  | 0, arg :: rest, a =>
    match arg.toList with
    | ['-', '-'] => .ok (a, rest)
    | '-' :: '-' :: c :: cs => do
      if c = '-' ∨ c = '=' then throw (.badShape arg)
      let (name, given) := splitLong (c :: cs)
      let (a, used) ← applyLong flags name given rest a
      read flags used rest a
    | '-' :: c :: cs => do
      let (a, used) ← applyLetters flags rest (c :: cs) a
      read flags used rest a
    | _ => do
      let (a, others) ← read flags 0 rest a
      return (a, arg :: others)

end Flag

end Coercion.Command
