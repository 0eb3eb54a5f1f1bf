import Coercion.Number.Range
import Coercion.Number.Word
import Coercion.Text.Quoted

/-!
# Durations

A duration is written as decimal numbers with units, such as `1h30m` or `-1.5s`, and counts nanoseconds.
-/

namespace Coercion.Command

open Number (isDigit decimalValue)

namespace Duration

/-- The nanoseconds of a unit. -/
def unit? : List Char → Option Nat
  | ['n', 's'] => some 1
  | ['u', 's'] | ['µ', 's'] | ['μ', 's'] => some 1000
  | ['m', 's'] => some 1000000
  | ['s'] => some 1000000000
  | ['m'] => some 60000000000
  | ['h'] => some 3600000000000
  | _ => none

/-- A text between double quotes, with everything but the visible ASCII characters as bytes. -/
def quoteAscii (cs : List Char) : String :=
  let one (c : Char) : List Char :=
    if c = '"' ∨ c = '\\' then ['\\', c]
    else if c.toNat < 0x20 ∨ 0x80 ≤ c.toNat then
      (String.singleton c).toUTF8.toList.flatMap fun b => '\\' :: 'x' :: Text.hexPadded 2 b.toNat
    else [c]
  String.ofList ('"' :: (cs.flatMap one ++ ['"']))

/-- Why a text is no duration. -/
inductive Malformed where
  | shape
  | missingUnit
  | unknownUnit (unit : List Char)
  deriving DecidableEq

/-- The wording of the reason for a text. -/
def Malformed.message (text : String) : Malformed → String
  | shape => "time: invalid duration " ++ quoteAscii text.toList
  | missingUnit => "time: missing unit in duration " ++ quoteAscii text.toList
  | unknownUnit u => "time: unknown unit " ++ quoteAscii u ++ " in duration " ++ quoteAscii text.toList

/-- Whether a character can stand in a number. -/
def inNumber (c : Char) : Bool := c == '.' || isDigit c

/-- The nanoseconds of `whole.fraction` units, without what is left of a nanosecond. -/
def amount (whole fraction : List Char) (unit : Nat) : Nat :=
  decimalValue whole * unit + decimalValue fraction * unit / Number.power 10 fraction.length

/-- Reads numbers with units and adds them up.  `fuel` is at least the number of characters. -/
def readTerms : (fuel sum : Nat) → List Char → Except Malformed Nat
  | _, sum, [] => .ok sum
  | 0, _, _ => .error .shape
  | fuel + 1, sum, cs => do
    let whole := cs.takeWhile isDigit
    let rest := cs.dropWhile isDigit
    if Number.signedLimit < decimalValue whole then throw .shape
    let (fraction, rest) := match rest with
      | '.' :: r => (r.takeWhile isDigit, r.dropWhile isDigit)
      | r => ([], r)
    if whole.isEmpty ∧ fraction.isEmpty then throw .shape
    let name := rest.takeWhile (!inNumber ·)
    if name.isEmpty then throw .missingUnit
    match unit? name with
    | none => throw (.unknownUnit name)
    | some unit =>
      let sum' := sum + amount whole fraction unit
      if Number.signedLimit < sum' then throw .shape
      readTerms fuel sum' (rest.dropWhile (!inNumber ·))

/-- Reads a duration in nanoseconds. -/
def read (s : String) : Except Malformed Int :=
  let (negative, cs) := match s.toList with
    | '-' :: cs => (true, cs)
    | '+' :: cs => (false, cs)
    | cs => (false, cs)
  if cs = ['0'] then .ok 0
  else if cs.isEmpty then .error .shape
  else
    match readTerms cs.length 0 cs with
    | .error e => .error e
    | .ok n => if negative then .ok (-n) else if n = Number.signedLimit then .error .shape else .ok n

end Duration

end Coercion.Command
