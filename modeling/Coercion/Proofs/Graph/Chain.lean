import Coercion.Graph.Basic
import Mathlib.Logic.Relation
import Mathlib.Order.Basic

/-!
# Chains of conversions

A chain is a non-empty run of conversions, each starting where the one before ends; its kind is the worst kind on it.
The best kind between two types is the least kind of a chain between them.

* Doing two conversions in a row costs the larger of their codes (`Kind.code_compose`), and a code determines its kind
  (`Kind.code_injective`).
* Chains whose kinds stay below a bound are paths in the relation of the conversions below that bound
  (`exists_chain_iff_transGen`), so the best kind can be found bound by bound (`best_of_forall_bound`).
-/

namespace Coercion

/-! ### The order of kinds -/

namespace Kind

private theorem ofCode_code (k : Kind) : ofCode k.code = k := by
  cases k with
  | other n =>
    have h : (n.val + 6) % 256 = n.val + 6 := Nat.mod_eq_of_lt (by omega)
    simp only [ofCode, code, h, Nat.add_sub_cancel]
    exact congrArg other (Fin.ext (Nat.mod_eq_of_lt n.isLt))
  | _ => rfl

theorem code_injective : Function.Injective code := Function.LeftInverse.injective ofCode_code

@[simp] theorem code_compose (a b : Kind) : (a.compose b).code = max a.code b.code := by
  unfold compose
  split <;> omega

theorem ne_noMatch_of_isConversion {k : Kind} (h : k.isConversion) : k ≠ .noMatch := by
  rintro rfl
  cases h

theorem compose_eq_left_or_right (a b : Kind) : a.compose b = a ∨ a.compose b = b := by
  unfold compose
  split
  · exact Or.inr rfl
  · exact Or.inl rfl

/-- The worst of some kinds; none at all is no match, which is better than every kind. -/
def worst (ks : List Kind) : Kind := ks.foldr compose .noMatch

@[simp] theorem worst_cons (k : Kind) (ks : List Kind) : worst (k :: ks) = k.compose (worst ks) := rfl

private theorem code_worst_singleton (k : Kind) : (worst [k]).code = k.code := by
  rw [worst_cons, code_compose]
  exact Nat.max_zero k.code

end Kind

/-! ### Chains -/

/-- `Chain step i j ks`: conversions of the kinds `ks` lead, one after the other, from `i` to `j`. -/
inductive Chain (step : Pair → Option Kind) : TypeId → TypeId → List Kind → Prop
  | single {i j : TypeId} {k : Kind} (h : step ⟨i, j⟩ = some k) : Chain step i j [k]
  | cons {i m j : TypeId} {k : Kind} {ks : List Kind} (h : step ⟨i, m⟩ = some k) (c : Chain step m j ks) :
    Chain step i j (k :: ks)

/-- `k` is the least kind that a chain from `i` to `j` can have. -/
def Best (step : Pair → Option Kind) (i j : TypeId) (k : Kind) : Prop :=
  (∃ ks, Chain step i j ks ∧ Kind.worst ks = k) ∧ ∀ ks, Chain step i j ks → k.code ≤ (Kind.worst ks).code

/-- A conversion of a code up to `c` leads from `i` to `j`. -/
def Within (step : Pair → Option Kind) (c : Nat) (i j : TypeId) : Prop :=
  ∃ k, step ⟨i, j⟩ = some k ∧ k.code ≤ c

variable {step step' : Pair → Option Kind} {i j : TypeId} {c : Nat}

private theorem Chain.transGen_within {ks : List Kind} (h : Chain step i j ks) (hc : (Kind.worst ks).code ≤ c) :
    Relation.TransGen (Within step c) i j := by
  induction h with
  | single h =>
    rw [Kind.code_worst_singleton] at hc
    exact .single ⟨_, h, hc⟩
  | cons h _ ih =>
    rw [Kind.worst_cons, Kind.code_compose] at hc
    exact .head ⟨_, h, by omega⟩ (ih (by omega))

/-- A path below a bound is a chain whose kind is below that bound. -/
theorem exists_chain_iff_transGen :
    (∃ ks, Chain step i j ks ∧ (Kind.worst ks).code ≤ c) ↔ Relation.TransGen (Within step c) i j := by
  constructor
  · rintro ⟨ks, h, hc⟩
    exact h.transGen_within hc
  · intro h
    induction h using Relation.TransGen.head_induction_on with
    | single h =>
      obtain ⟨k, hk, hc⟩ := h
      exact ⟨[k], .single hk, by rwa [Kind.code_worst_singleton]⟩
    | head h _ ih =>
      obtain ⟨k, hk, hc⟩ := h
      obtain ⟨ks, hks, hcs⟩ := ih
      exact ⟨k :: ks, .cons hk hks, by rw [Kind.worst_cons, Kind.code_compose]; omega⟩

/-- The kind that a map gives is the best one if the map tells, for every bound, whether a path below it exists. -/
theorem best_of_forall_bound (h : ∀ c, Within step' c i j ↔ Relation.TransGen (Within step c) i j) {k : Kind}
    (hk : step' ⟨i, j⟩ = some k) : Best step i j k := by
  have least : ∀ ks, Chain step i j ks → k.code ≤ (Kind.worst ks).code := by
    intro ks hks
    obtain ⟨k', hk', hle⟩ := (h _).2 (hks.transGen_within (Nat.le_refl _))
    rw [hk] at hk'
    obtain rfl := Option.some.inj hk'
    exact hle
  obtain ⟨ks, hks, hle⟩ := exists_chain_iff_transGen.2 ((h k.code).1 ⟨k, hk, Nat.le_refl _⟩)
  have heq : Kind.worst ks = k := Kind.code_injective (Nat.le_antisymm hle (least ks hks))
  exact ⟨⟨ks, hks, heq⟩, least⟩

/-- Such a map has a kind exactly where a chain exists. -/
theorem isSome_iff_exists_chain (h : ∀ c, Within step' c i j ↔ Relation.TransGen (Within step c) i j) :
    (step' ⟨i, j⟩).isSome ↔ ∃ ks, Chain step i j ks := by
  rw [Option.isSome_iff_exists]
  constructor
  · rintro ⟨k, hk⟩
    obtain ⟨ks, hks, -⟩ := exists_chain_iff_transGen.2 ((h k.code).1 ⟨k, hk, Nat.le_refl _⟩)
    exact ⟨ks, hks⟩
  · rintro ⟨ks, hks⟩
    obtain ⟨k, hk, -⟩ := (h _).2 (hks.transGen_within (Nat.le_refl _))
    exact ⟨k, hk⟩

end Coercion
