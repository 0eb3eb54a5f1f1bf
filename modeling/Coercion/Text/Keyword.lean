import Coercion.Text.Blank

/-!
# Keywords in any case

Options, kinds and severities are spelled with ASCII keywords and read in any case.  A keyword is compared after a
case map; since only a few characters outside ASCII have an ASCII letter as their lower or upper case, those few are
all the maps need to know: leaving any other character alone cannot make a text equal to an ASCII keyword.
-/

namespace Coercion.Text

/-- The lower case of a character, as far as it is an ASCII letter: `İ` lowers to `i` and the kelvin sign to `k`. -/
def lowerChar (c : Char) : Char :=
  if c = 'İ' then 'i' else if c.toNat = 0x212a then 'k' else c.toLower

/-- The upper case of a character, as far as it is an ASCII letter: `ı` uppers to `I` and the long `ſ` to `S`. -/
def upperChar (c : Char) : Char :=
  if c = 'ı' then 'I' else if c = 'ſ' then 'S' else c.toUpper

/-- The representative of a character under simple case folding, as far as it folds to an ASCII letter. -/
def foldChar (c : Char) : Char :=
  if c = 'ſ' then 's' else if c.toNat = 0x212a then 'k' else c.toLower

/-- A text in lower case, to be compared with ASCII keywords. -/
def lower (s : String) : String :=
  String.ofList (s.toList.map lowerChar)

/-- A text in upper case, to be compared with ASCII keywords. -/
def upper (s : String) : String :=
  String.ofList (s.toList.map upperChar)

/-- Equality with an ASCII keyword under simple case folding. -/
def equalFold (s keyword : String) : Bool :=
  s.toList.map foldChar == keyword.toList.map foldChar

end Coercion.Text
