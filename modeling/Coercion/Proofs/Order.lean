import Coercion.TypeId
import Mathlib.Data.Prod.Lex
import Mathlib.Order.Compare

/-!
# Comparisons and orders

A comparison in which the first difference decides is the comparison of a lexicographic order (`compares_then`).  Types
compare as their identifiers do, and pairs as their ranks (`Pair.compares_rank`), which tell pairs apart
(`Pair.rank_injective`).  Sorting by a comparison sorts by the keys that it compares (`pairwise_mergeSort_of_iff`).
-/

namespace Coercion

theorem compares_then {α β : Type} [Preorder α] [Preorder β] {o o' : Ordering} {a b : α} {x y : β}
    (h : o.Compares a b) (h' : o'.Compares x y) : (o.then o').Compares (toLex (a, x)) (toLex (b, y)) := by
  cases o with
  | lt => exact Prod.Lex.toLex_lt_toLex.2 (Or.inl h)
  | gt => exact Prod.Lex.toLex_lt_toLex.2 (Or.inl h)
  | eq =>
    -- equal first components leave the decision to the second ones
    obtain rfl : a = b := h
    cases o' with
    | lt => exact Prod.Lex.toLex_lt_toLex.2 (Or.inr ⟨rfl, h'⟩)
    | gt => exact Prod.Lex.toLex_lt_toLex.2 (Or.inr ⟨rfl, h'⟩)
    | eq => exact congrArg (fun z => toLex (a, z)) h'

theorem pairwise_mergeSort_of_iff {α β : Type} [LinearOrder β] {le : α → α → Bool} {key : α → β}
    (h : ∀ a b, le a b = true ↔ key a ≤ key b) (l : List α) :
    (l.mergeSort le).Pairwise fun a b => key a ≤ key b := by
  have hsorted : (l.mergeSort le).Pairwise fun a b => le a b = true := by
    apply List.pairwise_mergeSort
    · intro a b c hab hbc
      rw [h] at hab hbc ⊢
      exact hab.trans hbc
    · intro a b
      rw [Bool.or_eq_true, h, h]
      exact le_total _ _
  exact hsorted.imp fun hab => (h _ _).1 hab

private theorem TypeId.compares_compare (s t : TypeId) : (s.compare t).Compares s.id.toInt t.id.toInt := by
  unfold TypeId.compare
  cases h : Ord.compare s.id t.id with
  | lt => exact Int32.lt_iff_toInt_lt.1 (Std.compare_eq_lt.1 h)
  | eq => exact congrArg Int32.toInt (Std.compare_eq_iff_eq.1 h)
  | gt => exact Int32.lt_iff_toInt_lt.1 (Std.compare_eq_gt.1 h)

instance : Std.TransCmp TypeId.compare := inferInstanceAs (Std.TransCmp (compareOn TypeId.id))

instance : Std.LawfulEqCmp TypeId.compare where
  eq_of_compare {s t} h := by
    obtain ⟨s⟩ := s
    obtain ⟨t⟩ := t
    exact congrArg TypeId.mk (Std.compare_eq_iff_eq.1 h)

theorem TypeId.isLE_compare_iff (s t : TypeId) : (s.compare t).isLE = true ↔ s.id.toInt ≤ t.id.toInt := by
  rw [← (compares_compare s t).ne_gt]
  cases s.compare t <;> decide

theorem TypeId.toInt_inj {s t : TypeId} : s.id.toInt = t.id.toInt ↔ s = t := by
  obtain ⟨s⟩ := s
  obtain ⟨t⟩ := t
  rw [TypeId.mk.injEq]
  exact Int32.toInt_inj

namespace Pair

/-- The place of a pair among all pairs: by the identifier of its source, then by that of its target. -/
def rank (p : Pair) : ℤ ×ₗ ℤ := toLex (p.source.id.toInt, p.target.id.toInt)

theorem rank_injective : Function.Injective rank := by
  rintro ⟨⟨s⟩, ⟨t⟩⟩ ⟨⟨s'⟩, ⟨t'⟩⟩ h
  have hs : s.toInt = s'.toInt := congrArg (fun x => (ofLex x).1) h
  have ht : t.toInt = t'.toInt := congrArg (fun x => (ofLex x).2) h
  rw [Int32.toInt_inj.1 hs, Int32.toInt_inj.1 ht]

theorem compares_rank (p q : Pair) : (p.compare q).Compares p.rank q.rank :=
  compares_then (TypeId.compares_compare _ _) (TypeId.compares_compare _ _)

theorem le_iff_rank_le (p q : Pair) : p.le q = true ↔ p.rank ≤ q.rank := by
  rw [← (compares_rank p q).ne_gt]
  unfold le
  cases p.compare q <;> decide

end Pair

end Coercion
