/-!
# Terminal styles

A style is a pair of terminal codes, one that switches it on and one that switches it off.  Output that is not
coloured leaves the codes out.
-/

namespace Coercion.Text

/-- The codes that start and end a style. -/
structure Style where
  on : String
  off : String

namespace Style

def bold : Style := ⟨"1", "22"⟩
def faint : Style := ⟨"2", "22"⟩
def green : Style := ⟨"32", "0"⟩
def cyan : Style := ⟨"36", "0"⟩
def yellow : Style := ⟨"33", "0"⟩
def boldRed : Style := ⟨"31;1", "0;22"⟩
def boldGreen : Style := ⟨"32;1", "0;22"⟩
def boldYellow : Style := ⟨"33;1", "0;22"⟩
def boldBlue : Style := ⟨"34;1", "0;22"⟩

/-- A text in a style, or the bare text when colours are off. -/
def paint (style : Style) (color : Bool) (s : String) : String :=
  if color then "\x1b[" ++ style.on ++ "m" ++ s ++ "\x1b[" ++ style.off ++ "m" else s

end Style

end Coercion.Text
