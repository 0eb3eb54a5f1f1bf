import Coercion.Kind
import Coercion.Number.Binary64
import Coercion.TypeId

/-!
# The bucketed compatibility table

Kinds keyed by ordered pairs.  The table has a fixed number of bins; a record goes to the bin of its pair's hash, in
front of the records that are already there.  Nothing is ever removed: a newer record of a pair shadows the older
ones, so the table is a finite map in which the last write wins and which remembers how often it was written.
-/

namespace Coercion

/-- One entry: a pair and its kind. -/
structure Record where
  pair : Pair
  kind : Kind
  deriving DecidableEq, Inhabited

/-- The number of bins. -/
abbrev binCount : Nat := 512

/-- The bin of a pair. -/
def Pair.bin (p : Pair) : Fin binCount :=
  let mixed : UInt32 := (0x345678 ^^^ p.source.id.toUInt32) * 1000003
  Fin.ofNat binCount (mixed ^^^ p.target.id.toUInt32).toNat

/-- Bins of records, newest first. -/
structure CompatTable where
  bins : Vector (List Record) binCount

namespace CompatTable

/-- The table without records. -/
def empty : CompatTable := ⟨Vector.replicate binCount []⟩

instance : Inhabited CompatTable := ⟨empty⟩

/-- Records a kind for a pair, shadowing an earlier record of the same pair. -/
def insert (t : CompatTable) (p : Pair) (k : Kind) : CompatTable :=
  ⟨t.bins.set p.bin (⟨p, k⟩ :: t.bins.get p.bin) p.bin.isLt⟩

/-- The kind recorded last for a pair. -/
def lookup? (t : CompatTable) (p : Pair) : Option Kind :=
  ((t.bins.get p.bin).find? (·.pair == p)).map (·.kind)

/-- The kind recorded last for a pair, or no match. -/
def find (t : CompatTable) (p : Pair) : Kind := (t.lookup? p).getD .noMatch

/-- The records of a bin that no newer record of the bin shadows. -/
def live : List Record → List Record
  | [] => []
  | r :: older => r :: (live older).filter (·.pair != r.pair)

/-- The live records, sorted by pair. -/
def records (t : CompatTable) : List Record :=
  (t.bins.toList.flatMap live).mergeSort fun a b => a.pair.le b.pair

/-- The number of distinct pairs. -/
def size (t : CompatTable) : Nat :=
  (t.bins.toList.map fun b => (live b).length).foldr (· + ·) 0

/-- How the records fill the bins. -/
structure Stats where
  bins : UInt32
  used : UInt32
  records : UInt32
  live : UInt32
  shadowed : UInt32
  longest : UInt32
  /-- The records of a used bin on average, or zero if no bin is used. -/
  averageFill : Binary64
  deriving DecidableEq, Inhabited

/-- Adds one bin to the statistics. -/
def Stats.addBin (s : Stats) (b : List Record) : Stats :=
  if b.isEmpty then s
  else
    { s with
      used := s.used + 1
      records := s.records + UInt32.ofNat b.length
      live := s.live + UInt32.ofNat (CompatTable.live b).length
      longest := max s.longest (UInt32.ofNat b.length) }

/-- Statistics over all bins, as words. -/
def stats (t : CompatTable) : Stats :=
  let s := t.bins.toList.foldl Stats.addBin { (default : Stats) with bins := UInt32.ofNat binCount }
  { s with
    shadowed := s.records - s.live
    averageFill := if s.used = 0 then .zero else .ofRatio s.records.toNat s.used.toNat }

/-- A bin with more records, or with more live ones, than a word counts. -/
structure Overflow where
  bin : Nat
  ofLive : Bool
  deriving DecidableEq

/-- The wording of an overflow. -/
def Overflow.message (e : Overflow) : String :=
  "bucket " ++ toString e.bin ++ (if e.ofLive then " live count" else " length") ++ " overflow: out of range"

/-- The first bin that words do not count. -/
def overflow? (t : CompatTable) : Option Overflow :=
  t.bins.toList.zipIdx.findSome? fun (b, i) =>
    if UInt32.size ≤ b.length then some ⟨i, false⟩
    else if UInt32.size ≤ (live b).length then some ⟨i, true⟩
    else none

/-- Statistics over all bins, as long as words count the records of each. -/
def tally (t : CompatTable) : Except Overflow Stats :=
  match t.overflow? with
  | some e => .error e
  | none => .ok t.stats

end CompatTable

end Coercion
