/-!
# Edit distance

How many bytes have to be put in, taken out or changed to make one text of another.
-/

namespace Coercion.Text

/-- The next row of distances: `left` is the distance left of the cell to come, `above` the row before from the cell
above `left` on. -/
def nextRow {α : Type} [BEq α] (a : α) : (left : Nat) → (above : List Nat) → List α → List Nat
  | left, diagonal :: up :: above, b :: bs =>
    let cell := if a == b then diagonal else 1 + min diagonal (min up left)
    left :: nextRow a cell (up :: above) bs
  | left, _, _ => [left]

/-- The edit distance of two lists, row by row. -/
def editDistance {α : Type} [BEq α] (as bs : List α) : Nat :=
  (as.zipIdx.foldl (fun row (a, i) => nextRow a (i + 1) row bs) (List.range (bs.length + 1))).getLastD 0

end Coercion.Text
