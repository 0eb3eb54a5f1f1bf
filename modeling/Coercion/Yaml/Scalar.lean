import Coercion.Number.Calendar
import Coercion.Number.Word

/-!
# The meaning of plain scalars

A scalar without quotes is a text unless it spells a value of another type: null, a truth value, a number or a point
in time.
-/

namespace Coercion.Yaml

/-- The types of plain scalars. -/
inductive ScalarType where
  | null
  | bool
  | int
  | float
  | timestamp
  | text
  deriving DecidableEq

namespace ScalarType

/-- The tag of a type. -/
def tag : ScalarType → String
  | null => "!!null"
  | bool => "!!bool"
  | int => "!!int"
  | float => "!!float"
  | timestamp => "!!timestamp"
  | text => "!!str"

/-- The words that spell a value as a whole. -/
def ofWord? (s : String) : Option ScalarType :=
  if ["", "~", "null", "Null", "NULL"].contains s then some null
  else if ["true", "True", "TRUE", "false", "False", "FALSE"].contains s then some bool
  else if [".nan", ".NaN", ".NAN", ".inf", ".Inf", ".INF", "+.inf", "+.Inf", "+.INF", "-.inf", "-.Inf",
      "-.INF"].contains s then some float
  else none

/-! ### Numbers -/

/-- The value of digits in a base, if all of them are. -/
def digitsIn? (base : Nat) (cs : List Char) : Option Nat :=
  cs.foldlM
    (fun n c =>
      match Text.hexDigit? c with
      | some d => if d < base then some (base * n + d) else none
      | none => none)
    0

/-- The value of an unsigned integer, whose base its first characters give; a leading zero means octal. -/
def unsigned? (cs : List Char) : Option Nat :=
  match cs with
  | [] => none
  | '0' :: b :: d :: ds =>
    if b = 'b' ∨ b = 'B' then digitsIn? 2 (d :: ds)
    else if b = 'o' ∨ b = 'O' then digitsIn? 8 (d :: ds)
    else if b = 'x' ∨ b = 'X' then digitsIn? 16 (d :: ds)
    else digitsIn? 8 (b :: d :: ds)
  | '0' :: ds => digitsIn? 8 ds
  | ds => digitsIn? 10 ds

/-- Whether a sign and a magnitude fit into 64 bits. -/
def fits (negative : Bool) (n : Nat) : Bool := if negative then n ≤ Number.signedLimit else n < Number.signedLimit

/-- Whether digits in a base with an optional sign are an integer of 64 bits. -/
def isSignedIn (base : Nat) (cs : List Char) : Bool :=
  let (negative, digits) := Number.splitSign cs
  !digits.isEmpty && ((digitsIn? base digits).map (fits negative)).getD false

/-- Whether this is an integer of 64 bits, signed or unsigned.  Behind `0b` and `0o` a sign may stand. -/
def isInt (cs : List Char) : Bool :=
  let (negative, digits) := Number.splitSign cs
  ((unsigned? digits).map (fits negative)).getD false || ((unsigned? cs).map fun n => decide (n < Number.wordCount)).getD false ||
    match cs with
    | '0' :: 'b' :: ds => isSignedIn 2 ds
    | '0' :: 'o' :: ds => isSignedIn 8 ds
    | _ => false

/-- Whether this is a finite floating-point number. -/
def isFloat (cs : List Char) : Bool :=
  ((Number.readDecimal cs).map Number.Decimal.isFinite).getD false

/-! ### Points in time -/

/-- Splits off a number of one or two digits. -/
def shortNumber? (cs : List Char) : Option (Nat × List Char) :=
  match cs with
  | a :: b :: r =>
    if !Number.isDigit a then none
    else if Number.isDigit b then some (Number.decimalValue [a, b], r)
    else some (Number.decimalValue [a], b :: r)
  | [a] => if Number.isDigit a then some (Number.decimalValue [a], []) else none
  | [] => none

/-- Splits off a character. -/
def expect? (c : Char) (cs : List Char) : Option (List Char) :=
  match cs with
  | d :: r => if d = c then some r else none
  | [] => none

/-- The rest behind a date, whose year has four digits. -/
def afterDate? (cs : List Char) : Option (List Char) := do
  let year := cs.takeWhile Number.isDigit
  if year.length ≠ 4 then none
  else do
    let (month, r) ← shortNumber? (← expect? '-' (cs.drop 4))
    let (day, r) ← shortNumber? (← expect? '-' r)
    if Number.isCalendarDate (Number.decimalValue year) month day then some r else none

/-- The rest behind a time of day, the fraction of a second being optional. -/
def afterTime? (cs : List Char) : Option (List Char) := do
  let (hour, r) ← shortNumber? cs
  let (minute, r) ← shortNumber? (← expect? ':' r)
  let (second, r) ← shortNumber? (← expect? ':' r)
  if hour < 24 ∧ minute < 60 ∧ second < 60 then
    match r with
    | p :: d :: r' => if (p = '.' ∨ p = ',') ∧ Number.isDigit d then some (r'.dropWhile Number.isDigit) else some r
    | _ => some r
  else none

/-- Whether this is a date, a date and a time of day with a zone behind a `T`, or one without a zone behind spaces. -/
def isTimestamp (cs : List Char) : Bool :=
  match afterDate? cs with
  | none => false
  | some [] => true
  | some (c :: r) =>
    if c = 'T' ∨ c = 't' then ((afterTime? r).map Number.isZone).getD false
    else if c = ' ' then afterTime? (r.dropWhile (· == ' ')) == some []
    else false

/-! ### All types -/

/-- The type of a plain scalar. -/
def ofPlain (s : String) : ScalarType :=
  match ofWord? s with
  | some t => t
  | none =>
    match s.toList with
    | [] => null
    | c :: cs =>
      if c = '.' then if isFloat (c :: cs) then float else text
      else if c = '+' ∨ c = '-' ∨ Number.isDigit c then
        let bare := (c :: cs).filter (· != '_')
        if isTimestamp (c :: cs) then timestamp
        else if isInt bare then int
        else if isFloat bare then float
        else text
      else text

/-- Whether a scalar with this text and an explicit tag is what the tag says; an integer may be tagged as a
floating-point number. -/
def admits (tag : String) (s : String) : Bool :=
  let t := ofPlain s
  tag == t.tag || (tag == "!!float" && t == int)

end ScalarType

/-! ### Base 64 -/

/-- The value of a digit in base 64. -/
def base64Digit? (c : Char) : Option Nat :=
  if 'A' ≤ c ∧ c ≤ 'Z' then some (c.toNat - 65)
  else if 'a' ≤ c ∧ c ≤ 'z' then some (c.toNat - 71)
  else if '0' ≤ c ∧ c ≤ '9' then some (c.toNat + 4)
  else if c = '+' then some 62
  else if c = '/' then some 63
  else none

/-- The bytes of groups of four digits in base 64, the last of them filled up. -/
def base64Bytes? : List Char → Option (List UInt8)
  | [] => some []
  | [a, b, '=', '='] => do
    let n := 64 * (← base64Digit? a) + (← base64Digit? b)
    return [UInt8.ofNat (n / 16)]
  | [a, b, c, '='] => do
    let n := 4096 * (← base64Digit? a) + 64 * (← base64Digit? b) + (← base64Digit? c)
    return [UInt8.ofNat (n / 1024), UInt8.ofNat (n / 4)]
  | a :: b :: c :: d :: rest => do
    let n := 262144 * (← base64Digit? a) + 4096 * (← base64Digit? b) + 64 * (← base64Digit? c) + (← base64Digit? d)
    return UInt8.ofNat (n / 65536) :: UInt8.ofNat (n / 256) :: UInt8.ofNat n :: (← base64Bytes? rest)
  | _ => none

/-- The text that a text in base 64 spells, line ends apart. -/
def base64Text? (s : String) : Option String := do
  let bytes ← base64Bytes? (s.toList.filter fun c => c != '\n' && c != '\r')
  String.fromUTF8? ⟨bytes.toArray⟩

end Coercion.Yaml
