import Coercion.Number.Range

/-!
# Written dates

The parts of dates and times that all written forms share.
-/

namespace Coercion.Number

/-- The days of a month of the Gregorian calendar. -/
def daysIn (year month : Nat) : Nat :=
  if month = 2 then
    if year % 4 = 0 ∧ (year % 100 ≠ 0 ∨ year % 400 = 0) then 29 else 28
  else if month = 4 ∨ month = 6 ∨ month = 9 ∨ month = 11 then 30
  else 31

/-- Whether this is a date of the calendar. -/
def isCalendarDate (year month day : Nat) : Bool :=
  1 ≤ month && month ≤ 12 && 1 ≤ day && day ≤ daysIn year month

/-- Whether this is a distance from universal time. -/
def isZone (cs : List Char) : Bool :=
  match cs with
  | ['Z'] => true
  | [s, a, b, ':', c, d] =>
    (s == '+' || s == '-') && [a, b, c, d].all isDigit && decimalValue [a, b] ≤ 24 && decimalValue [c, d] ≤ 60
  | _ => false

end Coercion.Number
