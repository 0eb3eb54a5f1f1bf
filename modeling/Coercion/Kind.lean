import Coercion.Text.Keyword
import Coercion.Text.Quoted

/-!
# Kinds of conversion

How one type may stand in for another.  The three kinds that count as conversions are ordered by the harm they do:
a promotion, a safe conversion, a lossy conversion.  Tables store kinds as bytes, and a byte without a meaning is
kept as it is.
-/

namespace Coercion

/-- How one type may stand in for another; `other n` is the code `n + 6`, which has no meaning of its own. -/
inductive Kind where
  /-- Not convertible. -/
  | noMatch
  /-- The same type. -/
  | exact
  /-- Reserved. -/
  | subtype
  /-- A widening without loss or change of representation. -/
  | promote
  /-- A change of representation without loss. -/
  | safe
  /-- A change of representation that may lose precision. -/
  | lossy
  | other (n : Fin 250)
  deriving DecidableEq, Inhabited

namespace Kind

/-- The code of a kind, from 0 to 255. -/
def code : Kind → Nat
  | noMatch => 0
  | exact => 1
  | subtype => 2
  | promote => 3
  | safe => 4
  | lossy => 5
  | other n => n + 6

/-- The kind with a given code; codes are taken modulo 256. -/
def ofCode (n : Nat) : Kind :=
  match n % 256 with
  | 0 => noMatch
  | 1 => exact
  | 2 => subtype
  | 3 => promote
  | 4 => safe
  | 5 => lossy
  | m => other (Fin.ofNat 250 (m - 6))

/-- The name of a kind. -/
def name : Kind → String
  | noMatch => "no-match"
  | exact => "exact"
  | subtype => "subtype"
  | promote => "promote"
  | safe => "safe"
  | lossy => "unsafe"
  | other n => "Code(" ++ toString (n.val + 6) ++ ")"

/-- The kinds that a rating counts and a rule may declare. -/
def isConversion : Kind → Bool
  | promote | safe | lossy => true
  | _ => false

/-- The worse of two kinds: the kind of doing one conversion after the other. -/
def compose (a b : Kind) : Kind := if a.code ≤ b.code then b else a

/-- A spelling that names no kind. -/
structure Unknown where
  text : String

/-- The wording of the spelling error. -/
def Unknown.message (e : Unknown) : String :=
  "unknown compatibility kind " ++ Text.quote e.text ++ " (expected promote|safe|unsafe)"

/-- Reads the name of a kind, in any case, blanks around it allowed.  Some long spellings are accepted as well. -/
def parse (s : String) : Except Unknown Kind :=
  match Text.lower (Text.trim s) with
  | "no-match" | "none" | "false" => .ok noMatch
  | "exact" => .ok exact
  | "subtype" => .ok subtype
  | "promote" | "promotion" => .ok promote
  | "safe" | "safe-convert" | "safe_convert" => .ok safe
  | "unsafe" | "unsafe-convert" | "unsafe_convert" => .ok lossy
  | _ => .error ⟨s⟩

end Kind

end Coercion
