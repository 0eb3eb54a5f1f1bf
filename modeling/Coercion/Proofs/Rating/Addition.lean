import Coercion.Proofs.Selection.Cost

/-!
# Adding ratings

Counter by counter, ratings form a group: the counters are words and wrap around (`sum_assoc`, `sum_eq_impossible_iff`).
The sum of ratings follows the group, except that the impossible rating absorbs.  So the laws of a sum can fail in two
places, and the exact conditions are stated here:

* two ratings that fill each other's counters add up to the impossible one (`add_eq_impossible_iff`), and what is added
  to it afterwards is lost (`add_assoc_iff`);
* the worst kind of conversion that an addend has decides how the sum compares, and if its counter overflows, the sum is
  better than what it was added to (`compare_add_ne_gt_iff`).
-/

namespace Coercion.Rating

/-- The counters of two ratings added one by one. -/
def sum (a b : Rating) : Rating := ⟨a.promote + b.promote, a.safe + b.safe, a.lossy + b.lossy⟩

/-- What can be added to a rating before all of its counters are full. -/
def room (a : Rating) : Rating := ⟨0xffffffff - a.promote, 0xffffffff - a.safe, 0xffffffff - a.lossy⟩

/-- The counter of the worst kind that `b` has a conversion of overflows if `b` is added to `a`. -/
def Overflows (a b : Rating) : Prop :=
  if b.lossy ≠ 0 then UInt32.size ≤ a.lossy.toNat + b.lossy.toNat
  else if b.safe ≠ 0 then UInt32.size ≤ a.safe.toNat + b.safe.toNat
  else UInt32.size ≤ a.promote.toNat + b.promote.toNat

variable {a b c : Rating}

/-! ### Counters one by one -/

private theorem sum_comm (a b : Rating) : a.sum b = b.sum a := by
  simp only [sum, UInt32.add_comm]

theorem sum_assoc (a b c : Rating) : (a.sum b).sum c = a.sum (b.sum c) := by
  simp only [sum, UInt32.add_assoc]

private theorem sum_zero (a : Rating) : a.sum zero = a := by
  simp only [sum, zero, UInt32.add_zero]

private theorem room_room (a : Rating) : a.room.room = a := by
  obtain ⟨p, s, l⟩ := a
  simp only [room, mk.injEq]
  grind

private theorem room_impossible : impossible.room = zero := rfl

theorem sum_eq_impossible_iff : a.sum b = impossible ↔ b = a.room := by
  obtain ⟨p, s, l⟩ := a
  obtain ⟨p', s', l'⟩ := b
  simp only [sum, impossible, room, mk.injEq]
  grind

/-! ### The sum of ratings -/

private theorem add_of_ne (ha : a ≠ impossible) (hb : b ≠ impossible) : a.add b = a.sum b := by
  have hpossible : (a.isImpossible || b.isImpossible) = false := by
    simp [isImpossible, ha, hb]
  simp only [add, hpossible, Bool.false_eq_true, if_false]
  rfl

private theorem impossible_add (a : Rating) : impossible.add a = impossible := by
  simp [add, isImpossible]

private theorem add_impossible (a : Rating) : a.add impossible = impossible := by
  simp [add, isImpossible]

private theorem add_comm (a b : Rating) : a.add b = b.add a := by
  unfold add
  rw [Bool.or_comm]
  split
  · rfl
  · exact sum_comm a b

private theorem add_zero (a : Rating) : a.add zero = a := by
  by_cases ha : a = impossible
  · rw [ha, impossible_add]
  · rw [add_of_ne ha (by decide), sum_zero]

/-- A sum is impossible if a part of it is, or if the counters of the two parts fill each other. -/
theorem add_eq_impossible_iff : a.add b = impossible ↔ a = impossible ∨ b = impossible ∨ b = a.room := by
  by_cases ha : a = impossible
  · simp [ha, impossible_add]
  by_cases hb : b = impossible
  · simp [hb, add_impossible]
  rw [add_of_ne ha hb, sum_eq_impossible_iff]
  simp [ha, hb]

/-- Two parts that fill each other's counters lose the third, so a sum may be bracketed as one likes only if there is
nothing to lose or the third part fills the second as well. -/
theorem add_assoc_iff : (a.add b).add c = a.add (b.add c) ↔
    a = impossible ∨ b = impossible ∨ c = impossible ∨
      (b = a.room → c = zero ∨ c = a) ∧ (b = c.room → a = zero ∨ a = c) := by
  by_cases ha : a = impossible
  · simp [ha, impossible_add]
  by_cases hb : b = impossible
  · simp [hb, impossible_add, add_impossible]
  by_cases hc : c = impossible
  · simp [hc, add_impossible]
  simp only [ha, hb, hc, false_or]
  rw [add_of_ne ha hb, add_of_ne hb hc]
  have hroom : b = c.room ↔ b.sum c = impossible := by rw [sum_comm, sum_eq_impossible_iff]
  rw [hroom, ← sum_eq_impossible_iff (a := a)]
  by_cases hleft : a.sum b = impossible
  · by_cases hright : b.sum c = impossible
    · have hac : a = c := by
        rw [← room_room a, ← room_room c, ← sum_eq_impossible_iff.1 hleft, ← hroom.2 hright]
      rw [hleft, hright, impossible_add, add_impossible]
      simp [hac]
    · -- the left bracket has lost `c`
      have hca : c ≠ a := by
        rintro rfl
        exact hright (by rw [sum_comm, hleft])
      have hlost : a.sum (b.sum c) = impossible ↔ c = zero := by
        rw [← sum_assoc, hleft, sum_eq_impossible_iff, room_impossible]
      simp only [hleft, hright, impossible_add, add_of_ne ha hright, hca, or_false, false_implies, and_true,
        forall_const]
      rw [eq_comm, hlost]
  · by_cases hright : b.sum c = impossible
    · -- the right bracket has lost `a`
      have hac : a ≠ c := by
        rintro rfl
        exact hleft (by rw [sum_comm, hright])
      have hlost : (a.sum b).sum c = impossible ↔ a = zero := by
        rw [sum_assoc, hright, sum_comm, sum_eq_impossible_iff, room_impossible]
      simp only [hleft, hright, add_impossible, add_of_ne hleft hc, hac, or_false, false_implies, true_and,
        forall_const]
      exact hlost
    · simp only [hleft, hright, false_implies, and_self, iff_true]
      rw [add_of_ne hleft hc, add_of_ne ha hright, sum_assoc]

/-! ### Sums compared -/

private theorem toNat_add_lt_iff (x y : UInt32) : (x + y).toNat < x.toNat ↔ UInt32.size ≤ x.toNat + y.toNat := by
  have hx := x.toNat_lt
  have hy := y.toNat_lt
  rw [UInt32.toNat_add, UInt32.size]
  omega

private theorem toNat_add_eq_iff (x y : UInt32) : (x + y).toNat = x.toNat ↔ y = 0 := by
  rw [UInt32.toNat_inj]
  grind

/-- Adding counters makes a rating better exactly if the counter that decides overflows. -/
private theorem cost_sum_lt_iff : (a.sum b).cost < a.cost ↔ Overflows a b := by
  unfold cost sum Overflows
  rw [Prod.Lex.toLex_lt_toLex, Prod.Lex.toLex_lt_toLex]
  simp only [toNat_add_lt_iff, toNat_add_eq_iff]
  -- a counter to which nothing is added does not overflow
  have hkept : ∀ x : UInt32, ¬UInt32.size ≤ x.toNat + (0 : UInt32).toNat := fun x => Nat.not_le.2 x.toNat_lt
  by_cases hl : b.lossy = 0
  · by_cases hs : b.safe = 0
    · simp only [hl, hs, hkept, ne_eq, not_true_eq_false, ↓reduceIte, true_and, false_or]
    · simp only [hl, hs, hkept, ne_eq, not_true_eq_false, not_false_eq_true, ↓reduceIte, true_and, false_and, false_or,
        or_false]
  · simp only [hl, ne_eq, not_false_eq_true, ↓reduceIte, false_and, or_false]

private theorem compare_ne_gt_iff (a b : Rating) : a.compare b ≠ .gt ↔ ¬b.cost < a.cost := by
  rw [not_lt]
  exact (compares_cost a b).ne_gt

private theorem not_cost_impossible_lt (a : Rating) : ¬impossible.cost < a.cost := by
  have hp := a.promote.toNat_lt
  have hs := a.safe.toNat_lt
  have hl := a.lossy.toNat_lt
  unfold cost impossible
  rw [Prod.Lex.toLex_lt_toLex, Prod.Lex.toLex_lt_toLex]
  simp
  omega

theorem compare_add_ne_gt_iff :
    a.compare (a.add b) ≠ .gt ↔ a = impossible ∨ b = impossible ∨ ¬Overflows a b := by
  rw [compare_ne_gt_iff]
  by_cases ha : a = impossible
  · simp [ha, impossible_add]
  by_cases hb : b = impossible
  · simp [hb, add_impossible, not_cost_impossible_lt]
  rw [add_of_ne ha hb, cost_sum_lt_iff]
  simp [ha, hb]

/-- The sum of ratings is commutative, the exact rating is its identity and the impossible one absorbs.  It is
associative, never better than its parts and impossible only with a part of it, except where counters fill each other
or overflow. -/
theorem add_obeys_cost_laws_iff (a b c : Rating) :
    a.add b = b.add a ∧
    a.add zero = a ∧ zero.add a = a ∧
    a.add impossible = impossible ∧ impossible.add a = impossible ∧
    ((a.add b).add c = a.add (b.add c) ↔
      a = impossible ∨ b = impossible ∨ c = impossible ∨
        (b = a.room → c = zero ∨ c = a) ∧ (b = c.room → a = zero ∨ a = c)) ∧
    (a.compare (a.add b) ≠ .gt ↔ a = impossible ∨ b = impossible ∨ ¬Overflows a b) ∧
    (a.add b = impossible ↔ a = impossible ∨ b = impossible ∨ b = a.room) := by
  have hidentity : zero.add a = a := by rw [add_comm, add_zero]
  exact ⟨add_comm a b, add_zero a, hidentity, add_impossible a, impossible_add a, add_assoc_iff,
    compare_add_ne_gt_iff, add_eq_impossible_iff⟩

/-- One more promotion makes a full counter empty, and with it the rating better; and it makes a rating impossible to
which a second one is then lost. -/
theorem add_breaks_cost_laws :
    (⟨0xffffffff, 0, 0⟩ : Rating).compare ((⟨0xffffffff, 0, 0⟩ : Rating).add ⟨1, 0, 0⟩) = .gt ∧
    (⟨0xfffffffe, 0xffffffff, 0xffffffff⟩ : Rating).isImpossible = false ∧
    (⟨1, 0, 0⟩ : Rating).isImpossible = false ∧
    ((⟨0xfffffffe, 0xffffffff, 0xffffffff⟩ : Rating).add ⟨1, 0, 0⟩).isImpossible = true ∧
    ((⟨0xfffffffe, 0xffffffff, 0xffffffff⟩ : Rating).add ⟨1, 0, 0⟩).add ⟨1, 0, 0⟩ ≠
      (⟨0xfffffffe, 0xffffffff, 0xffffffff⟩ : Rating).add ((⟨1, 0, 0⟩ : Rating).add ⟨1, 0, 0⟩) := by
  decide

end Coercion.Rating
