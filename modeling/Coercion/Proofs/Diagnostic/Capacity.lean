import Coercion.Diagnostic.Bag
import Mathlib.Algebra.Group.Nat.Defs

/-!
# What a bag holds

A bag is filled by adding, merging and sorting, in any order.

* Nothing that was accepted is lost, and nothing else comes in: the diagnostics of a bag are those that it gathered,
  in some order (`toList_foldl_perform`).
* The capacity only grows (`capacity_le_perform`).
* The size stays within the capacity as long as it is a capacity at all, that is, below `2 ^ 16`; a bag that merging
  has made larger exceeds its capacity from then on (`Bounded.perform`).
-/

namespace Coercion.Bag

/-- What can be done to a bag. -/
inductive Action where
  | add (d : Diagnostic)
  | merge (other : Bag)
  | sort

/-- The bag after an action. -/
def perform (b : Bag) : Action → Bag
  | .add d => (b.offer d).1
  | .merge other => b.merge other
  | .sort => b.sort

/-- A bag of a capacity after some actions. -/
def run (n : Int) (actions : List Action) : Bag := actions.foldl perform (ofCapacity n)

/-- The diagnostics that an action brings into a bag: the one it adds, if the bag says that it was added, or those of
the bag that it merges. -/
def Action.brings (b : Bag) : Action → List Diagnostic
  | .add d => if (b.offer d).2 then [d] else []
  | .merge other => other.items.toList
  | .sort => []

/-- The diagnostics that some actions bring into a bag, one action after the other. -/
def gathered (b : Bag) : List Action → List Diagnostic
  | [] => []
  | a :: actions => a.brings b ++ gathered (b.perform a) actions

variable {b : Bag}

/-! ### One action -/

private theorem offer_snd_iff (b : Bag) (d : Diagnostic) : (b.offer d).2 = true ↔ b.size < b.capacity.toNat := by
  show decide (b.size < b.capacity.toNat) = true ↔ _
  exact decide_eq_true_iff

private theorem offer_of_full (h : ¬b.size < b.capacity.toNat) (d : Diagnostic) : b.offer d = (b, false) := by
  have hroom : b.hasRoom = false := decide_eq_false h
  simp [offer, add, hroom]

private theorem offer_of_room (h : b.size < b.capacity.toNat) (d : Diagnostic) :
    b.offer d = ({ b with items := b.items.push d }, true) := by
  have hroom : b.hasRoom = true := decide_eq_true h
  simp [offer, add, hroom]

/-- The capacity after a merge is the old one where the size fits into it or is no capacity, else the size. -/
private theorem toNat_capacity_merge (b other : Bag) :
    (b.merge other).capacity.toNat =
      if b.capacity.toNat < (b.merge other).size ∧ (b.merge other).size < 2 ^ 16 then (b.merge other).size
      else b.capacity.toNat := by
  have hsize : (b.merge other).size = (b.items ++ other.items).size := rfl
  rw [hsize]
  simp only [merge]
  generalize (b.items ++ other.items).size = total
  by_cases hgrows : b.capacity.toNat < total
  · by_cases hfits : total < 2 ^ 16
    · have hcapacity : capacity? total = some (UInt16.ofNat total) := by
        unfold capacity?
        rw [if_pos (by omega), Int.toNat_natCast]
      rw [if_pos hgrows, if_pos ⟨hgrows, hfits⟩, hcapacity, Option.getD_some]
      exact UInt16.toNat_ofNat_of_lt' hfits
    · have hcapacity : capacity? total = none := by
        unfold capacity?
        rw [if_neg (by omega)]
      rw [if_pos hgrows, if_neg (fun h => hfits h.2), hcapacity, Option.getD_none]
  · rw [if_neg hgrows, if_neg (fun h => hgrows h.1)]

theorem capacity_le_perform (b : Bag) (a : Action) : b.capacity ≤ (b.perform a).capacity := by
  rw [UInt16.le_iff_toNat_le]
  cases a with
  | add d =>
    have hsame : (b.perform (.add d)).capacity = b.capacity := by
      by_cases hroom : b.size < b.capacity.toNat
      · rw [perform, offer_of_room hroom]
      · rw [perform, offer_of_full hroom]
    exact Nat.le_of_eq (congrArg UInt16.toNat hsame.symm)
  | merge other =>
    rw [perform, toNat_capacity_merge]
    split
    · omega
    · exact Nat.le_refl _
  | sort => exact Nat.le_refl _

private theorem toList_perform (b : Bag) (a : Action) :
    (b.perform a).items.toList.Perm (b.items.toList ++ a.brings b) := by
  cases a with
  | add d =>
    by_cases hroom : b.size < b.capacity.toNat
    · simp [perform, Action.brings, offer_of_room hroom]
    · simp [perform, Action.brings, offer_of_full hroom]
  | merge other => simp [perform, Action.brings, merge]
  | sort =>
    simp only [perform, sort, Action.brings, List.append_nil]
    exact List.mergeSort_perm _ _

/-- The size of a bag is within its capacity, unless it is larger than any capacity. -/
def Bounded (b : Bag) : Prop := b.size ≤ b.capacity.toNat ↔ b.size < 2 ^ 16

private theorem bounded_of_le (h : b.size ≤ b.capacity.toNat) : b.Bounded :=
  iff_of_true h (Nat.lt_of_le_of_lt h b.capacity.toNat_lt)

theorem Bounded.perform (h : b.Bounded) (a : Action) : (b.perform a).Bounded := by
  cases a with
  | add d =>
    by_cases hroom : b.size < b.capacity.toNat
    · rw [Bag.perform, offer_of_room hroom]
      refine bounded_of_le ?_
      rw [size, Array.size_push]
      exact hroom
    · rw [Bag.perform, offer_of_full hroom]
      exact h
  | merge other =>
    have hcapacity := b.capacity.toNat_lt
    rw [Bag.perform, Bounded, toNat_capacity_merge]
    split
    · omega
    · omega
  | sort =>
    have hsize : b.sort.size = b.size := by simp [sort, size]
    rw [Bag.perform, Bounded, hsize]
    exact h

/-! ### Any number of actions -/

private theorem bounded_foldl_perform (h : b.Bounded) (actions : List Action) :
    (actions.foldl Bag.perform b).Bounded := by
  induction actions generalizing b with
  | nil => exact h
  | cons a actions ih => exact ih (h.perform a)

private theorem capacity_le_foldl_perform (b : Bag) (actions : List Action) :
    b.capacity ≤ (actions.foldl perform b).capacity := by
  induction actions generalizing b with
  | nil => exact UInt16.le_refl _
  | cons a actions ih => exact UInt16.le_trans (b.capacity_le_perform a) (ih (b.perform a))

theorem toList_foldl_perform (b : Bag) (actions : List Action) :
    (actions.foldl perform b).items.toList.Perm (b.items.toList ++ gathered b actions) := by
  induction actions generalizing b with
  | nil => simp [gathered]
  | cons a actions ih =>
    rw [List.foldl_cons, gathered, ← List.append_assoc]
    exact (ih (b.perform a)).trans ((b.toList_perform a).append_right _)

/-- Whatever is added, merged and sorted, a bag stays within its capacity exactly as long as it holds fewer than
`2 ^ 16` diagnostics, and its capacity never shrinks.  It takes a diagnostic exactly if it holds fewer than its
capacity, is left as it is otherwise, and holds what it has taken or was merged with. -/
theorem run_bounded_iff_lt (n : Int) (actions : List Action) :
    ((run n actions).size ≤ (run n actions).capacity.toNat ↔ (run n actions).size < 2 ^ 16) ∧
    (∀ more, (run n actions).capacity ≤ (run n (actions ++ more)).capacity) ∧
    (∀ d, ((run n actions).offer d).2 = true ↔ (run n actions).size < (run n actions).capacity.toNat) ∧
    (∀ d, ((run n actions).offer d).2 = false → ((run n actions).offer d).1 = run n actions) ∧
    (run n actions).items.toList.Perm (gathered (ofCapacity n) actions) := by
  refine ⟨?_, ?_, offer_snd_iff _, ?_, ?_⟩
  · have hempty : (ofCapacity n).Bounded := bounded_of_le (Nat.zero_le _)
    exact bounded_foldl_perform hempty actions
  · intro more
    rw [run, run, List.foldl_append]
    exact capacity_le_foldl_perform _ more
  · intro d hrefused
    have hfull : ¬(run n actions).size < (run n actions).capacity.toNat := by
      rw [← offer_snd_iff _ d, hrefused]
      exact Bool.false_ne_true
    rw [offer_of_full hfull]
  · exact toList_foldl_perform (ofCapacity n) actions

/-! ### A bag that is too large -/

private theorem run_replicate_add (n : Int) (d : Diagnostic) {count : Nat} (h : count ≤ (ofCapacity n).capacity.toNat) :
    run n (List.replicate count (.add d)) = ⟨Array.replicate count d, (ofCapacity n).capacity⟩ := by
  induction count with
  | zero => rfl
  | succ count ih =>
    have hrun : run n (List.replicate (count + 1) (.add d)) =
        (run n (List.replicate count (.add d))).perform (.add d) := by
      rw [List.replicate_succ', run, List.foldl_append]
      rfl
    have hroom : (⟨Array.replicate count d, (ofCapacity n).capacity⟩ : Bag).size < (ofCapacity n).capacity.toNat := by
      rw [size, Array.size_replicate]
      exact h
    rw [hrun, ih (Nat.le_of_succ_le h), perform, offer_of_room hroom, Array.replicate_succ]

/-- Forty thousand diagnostics and thirty thousand more are too many for the capacity, which is left as it was. -/
theorem merge_exceeds_capacity :
    (run 65535 (List.replicate 40000 (.add default) ++
      [.merge (run 65535 (List.replicate 30000 (.add default)))])).size = 70000 ∧
    (run 65535 (List.replicate 40000 (.add default) ++
      [.merge (run 65535 (List.replicate 30000 (.add default)))])).capacity.toNat = 65535 := by
  have hcapacity : (ofCapacity 65535).capacity.toNat = 65535 := rfl
  have hmerged : run 65535 (List.replicate 40000 (.add default) ++
      [.merge (run 65535 (List.replicate 30000 (.add default)))]) =
      merge ⟨Array.replicate 40000 default, (ofCapacity 65535).capacity⟩
        ⟨Array.replicate 30000 default, (ofCapacity 65535).capacity⟩ := by
    rw [run_replicate_add 65535 default (by omega), run, List.foldl_append, ← run,
      run_replicate_add 65535 default (by omega)]
    rfl
  have hsize : (merge ⟨Array.replicate 40000 default, (ofCapacity 65535).capacity⟩
      ⟨Array.replicate 30000 default, (ofCapacity 65535).capacity⟩).size = 70000 := by
    simp [merge, size]
  rw [hmerged, toNat_capacity_merge, hsize]
  exact ⟨rfl, by simp [hcapacity]⟩

end Coercion.Bag
