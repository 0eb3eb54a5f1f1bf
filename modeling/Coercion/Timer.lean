import Coercion.Number.Decimal

/-!
# Timers

A timer collects phases of a run.  It reads no clock itself: each operation takes the time at which it happens, in
nanoseconds from a fixed origin, so that a timer is a function of the readings.
-/

namespace Coercion

/-- A measured step of a run. -/
structure Phase where
  name : String
  start : Nat
  /-- The nanoseconds from the start to the end, zero while the phase goes on. -/
  duration : Nat := 0
  /-- How many operations the phase covered, zero for a plain step. -/
  operations : Int := 0
  note : String := ""
  deriving DecidableEq, Inhabited

/-- The phases of a run in the order in which they began. -/
structure Timer where
  phases : Array Phase := #[]
  deriving DecidableEq, Inhabited

namespace Timer

/-- Begins a phase and gives its index. -/
def beginPhase (t : Timer) (now : Nat) (name : String) : Nat × Timer :=
  (t.phases.size, ⟨t.phases.push { name, start := now }⟩)

/-- Ends the phase with an index; a phase that has ended before ends again, and an index without a phase does
nothing. -/
def endPhase (t : Timer) (now : Nat) (index : Int) (operations : Int) (note : String) : Timer :=
  if index < 0 then t
  else ⟨t.phases.modify index.toNat fun p => { p with duration := now - p.start, operations, note }⟩

/-- Records a phase that ran from `start` to `stop`. -/
def measured (t : Timer) (name : String) (operations : Int) (start stop : Nat) : Timer :=
  let (index, t) := t.beginPhase start name
  t.endPhase stop index operations ""

/-- Nanoseconds in milliseconds, with three places. -/
def millisecondsText (ns : Nat) : String := ((Binary64.ofNat ns).div (.ofNat 1000000)).fixed 3

/-- A name in a column of twenty characters and a duration in one of nine. -/
def durationLine (name : String) (ns : Nat) : String :=
  "  " ++ String.ofList (Text.padRight 20 ' ' name.toList) ++ " " ++
    String.ofList (Text.padLeft 9 ' ' (millisecondsText ns).toList) ++ " ms"

end Timer

namespace Phase

/-- The time of one operation, where the phase covered any. -/
def perOperation (p : Phase) : String :=
  if 0 < p.operations then
    let each := ((Binary64.ofNat p.duration).div (.ofNat p.operations.toNat)).fixed 1
    "  " ++ String.ofList (Text.padLeft 8 ' ' each.toList) ++ " ns/op"
  else ""

/-- The line of a phase. -/
def line (p : Phase) : String :=
  Timer.durationLine p.name p.duration ++ p.perOperation ++ (if p.note = "" then "" else "  // " ++ p.note) ++ "\n"

end Phase

/-- A table of all phases and their total. -/
def Timer.summary (t : Timer) : String :=
  let total := (t.phases.toList.map (·.duration)).foldr (· + ·) 0
  "timings:\n" ++ String.join (t.phases.toList.map (·.line)) ++ durationLine "total" total ++ "\n"

end Coercion
