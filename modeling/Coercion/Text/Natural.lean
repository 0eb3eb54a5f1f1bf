import Coercion.Text.Letter

/-!
# The natural order of names

Names are compared character by character, but runs of digits by their value, so that `a2` comes before `a10`.
Letters come after all other characters, except behind a digit, where they come first.
-/

namespace Coercion.Text

/-- The value of the digits at the start of a text, on top of `start`, and how many there are.  It wraps around at 64
bits. -/
def digitRun (start : Int64) (cs : List Char) : Int64 × Nat :=
  let run := cs.takeWhile isDecimalDigit
  (run.foldl (fun n c => n * 10 + Int64.ofInt (c.toNat - 48)) start, run.length)

/-- Whether the digits at the end of a text, here given backwards, have one other than zero. -/
def endsInNumber (before : List Char) : Bool :=
  (before.takeWhile isDecimalDigit).any (· != '0')

/-- Whether one rest of a name comes before another; `before` holds the common characters before it, the last one
first. -/
def naturalLtAfter (before : List Char) : List Char → List Char → Bool
  | a :: as, b :: bs =>
    if a = b then naturalLtAfter (a :: before) as bs
    else
      let afterDigit := match before with
        | c :: _ => isDecimalDigit c
        | [] => false
      match isLetter a, isLetter b with
      | true, true => a < b
      | true, false => afterDigit
      | false, true => !afterDigit
      | false, false =>
        let start := if (a = '0' || b = '0') && endsInNumber before then 1 else 0
        let (m, i) := digitRun start (a :: as)
        let (n, j) := digitRun start (b :: bs)
        if m ≠ n then m < n else if i ≠ j then i < j else a < b
  | [], _ :: _ => true
  | _, [] => false

/-- Whether a name comes before another. -/
def naturalLt (a b : String) : Bool := naturalLtAfter [] a.toList b.toList

end Coercion.Text
