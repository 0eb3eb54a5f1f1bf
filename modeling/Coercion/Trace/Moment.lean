import Coercion.Text.Quoted

/-!
# Moments

A point in time as seconds and nanoseconds since the start of 1970, shown in a zone at a fixed distance from universal
time.  Moments are printed with microseconds; finer parts are cut off.
-/

namespace Coercion.Trace

/-- A point in time and the zone it is shown in, in seconds east of universal time. -/
structure Moment where
  seconds : Int
  nanos : Int
  offset : Int := 0
  deriving DecidableEq, Inhabited

/-- A date of the Gregorian calendar. -/
structure Date where
  year : Int
  month : Nat
  day : Nat

/-- The date a number of days after the start of 1970.  Years are counted from March, in cycles of 400. -/
def Date.ofDays (days : Int) : Date :=
  let shifted := days + 719468
  let cycle := shifted / 146097
  let dayOfCycle := (shifted % 146097).toNat
  let yearOfCycle := (dayOfCycle - dayOfCycle / 1460 + dayOfCycle / 36524 - dayOfCycle / 146096) / 365
  let dayOfYear := dayOfCycle - (365 * yearOfCycle + yearOfCycle / 4 - yearOfCycle / 100)
  let monthFromMarch := (5 * dayOfYear + 2) / 153
  let day := dayOfYear - (153 * monthFromMarch + 2) / 5 + 1
  let month := if monthFromMarch < 10 then monthFromMarch + 3 else monthFromMarch - 9
  let year : Int := yearOfCycle + cycle * 400 + if month ≤ 2 then 1 else 0
  ⟨year, month, day⟩

namespace Moment

/-- The seconds of the zone's clock. -/
def localSeconds (m : Moment) : Int := m.seconds + m.nanos / 1000000000 + m.offset

/-- A number with at least two digits. -/
def two (n : Nat) : String := String.ofList (Text.decimalPadded 2 n)

/-- The time of day with microseconds. -/
def clock (m : Moment) : String :=
  let s := (m.localSeconds % 86400).toNat
  let micros := (m.nanos % 1000000000).toNat / 1000
  two (s / 3600) ++ ":" ++ two (s / 60 % 60) ++ ":" ++ two (s % 60) ++ "." ++
    String.ofList (Text.decimalPadded 6 micros)

/-- The date. -/
def date (m : Moment) : String :=
  let d := Date.ofDays (m.localSeconds / 86400)
  (if d.year < 0 then "-" else "") ++ String.ofList (Text.decimalPadded 4 d.year.natAbs) ++ "-" ++ two d.month ++
    "-" ++ two d.day

/-- The distance of the zone from universal time in hours and minutes. -/
def zone (m : Moment) : String :=
  if m.offset = 0 then "Z"
  else
    let minutes := m.offset.tdiv 60
    (if minutes < 0 then "-" else "+") ++ two (minutes.natAbs / 60) ++ ":" ++ two (minutes.natAbs % 60)

/-- Date, time of day and zone. -/
def render (m : Moment) : String := m.date ++ "T" ++ m.clock ++ m.zone

end Moment

end Coercion.Trace
