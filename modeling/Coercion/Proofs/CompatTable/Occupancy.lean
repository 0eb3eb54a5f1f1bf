import Coercion.Proofs.CompatTable.Records
import Mathlib.Algebra.BigOperators.Fin
import Mathlib.Algebra.BigOperators.Group.Finset.Piecewise

/-!
# How records fill the bins

Nothing is lost in a table: its bins hold together as many records as were inserted (`sum_length_bins`), and the
records of a pair stand in its bin in the order of their insertion, newest first (`filter_bin_ofRecords`).  The
statistics count these records as 32-bit words (`stats_ofRecords`).
-/

namespace Coercion

theorem sum_map_toList {α : Type} {n : Nat} (v : Vector α n) (f : α → Nat) :
    (v.toList.map f).sum = ∑ i, f (v.get i) := by
  have hlist : v.toList = List.ofFn v.get := by
    apply List.ext_getElem
    · simp
    · intro i h₁ h₂
      simp [Vector.get]
  rw [hlist, List.map_ofFn, List.sum_ofFn]
  rfl

namespace CompatTable

/-! ### Records in bins -/

theorem filter_bin_ofRecords (rs : List Record) (p : Pair) :
    ((ofRecords rs).bins.get p.bin).filter (·.pair = p) = (rs.filter (·.pair = p)).reverse := by
  rw [bin_ofRecords, List.filter_reverse, List.filter_filter]
  congr 1
  apply List.filter_congr
  intro r _
  by_cases h : r.pair = p <;> simp [h]

/-- Every record has one bin. -/
theorem sum_length_filter_bin (rs : List Record) :
    ∑ i : Fin binCount, (rs.filter (·.pair.bin = i)).length = rs.length := by
  induction rs with
  | nil => exact Finset.sum_const_zero
  | cons r rs ih =>
    have hone : ∀ i : Fin binCount, ((r :: rs).filter (·.pair.bin = i)).length =
        (if r.pair.bin = i then 1 else 0) + (rs.filter (·.pair.bin = i)).length := by
      intro i
      by_cases h : r.pair.bin = i
      · simp [h, Nat.add_comm]
      · simp [h]
    simp only [hone, Finset.sum_add_distrib, ih, Finset.sum_ite_eq, Finset.mem_univ, if_true, List.length_cons]
    omega

theorem sum_length_bins (rs : List Record) : ((ofRecords rs).bins.toList.map List.length).sum = rs.length := by
  rw [sum_map_toList]
  simp only [bin_ofRecords, List.length_reverse]
  exact sum_length_filter_bin rs

private theorem size_ofRecords_le (rs : List Record) : (ofRecords rs).size ≤ rs.length := by
  rw [size_ofRecords]
  simpa using (List.dedup_sublist (rs.map (·.pair))).length_le

/-! ### Statistics -/

private theorem foldl_addBin (bins : List (List Record)) (s : Stats) :
    (bins.foldl Stats.addBin s).records = s.records + UInt32.ofNat (bins.map List.length).sum ∧
      (bins.foldl Stats.addBin s).live = s.live + UInt32.ofNat (bins.map fun b => (live b).length).sum := by
  induction bins generalizing s with
  | nil => simp
  | cons b bins ih =>
    obtain ⟨hrecords, hlive⟩ := ih (s.addBin b)
    rw [List.foldl_cons, hrecords, hlive]
    unfold Stats.addBin
    split
    · rename_i hb
      rw [List.isEmpty_iff] at hb
      subst hb
      simp [live]
    · simp [UInt32.ofNat_add, UInt32.add_assoc]

/-- The statistics count the insertions, the pairs, and the insertions that a later one of the same pair shadows. -/
theorem stats_ofRecords (rs : List Record) :
    (ofRecords rs).stats.records = UInt32.ofNat rs.length ∧
      (ofRecords rs).stats.live = UInt32.ofNat (ofRecords rs).size ∧
      (ofRecords rs).stats.shadowed = UInt32.ofNat (rs.length - (ofRecords rs).size) := by
  obtain ⟨hrecords, hlive⟩ :=
    foldl_addBin (ofRecords rs).bins.toList { (default : Stats) with bins := UInt32.ofNat binCount }
  have hsize : ((ofRecords rs).bins.toList.map fun b => (live b).length).sum = (ofRecords rs).size := by
    rw [List.sum_eq_foldr]
    rfl
  have hzero : (default : Stats).records = 0 ∧ (default : Stats).live = 0 := by decide
  rw [sum_length_bins, hzero.1, UInt32.zero_add] at hrecords
  rw [hsize, hzero.2, UInt32.zero_add] at hlive
  refine ⟨hrecords, hlive, ?_⟩
  rw [UInt32.ofNat_sub (size_ofRecords_le rs), ← hrecords, ← hlive]
  rfl

end CompatTable

end Coercion
