import Coercion.Graph.Closure
import Coercion.Proofs.Graph.Chain

/-!
# Closing relations one intermediate type at a time

The closure seen as a function on maps from pairs to relations: `detour rel k` offers every pair the path through `k`,
all pairs at once, and the closure goes over the intermediate types.  Nothing is said here about the order of writes.

* For a bound `c`, a detour through `k` adds exactly the pairs that two conversions below `c` join at `k`
  (`within_detour_iff`).
* Hence the result is closed at `k`, and stays closed at the types treated before (`closedAt_detour_self`,
  `ClosedAt.detour`).
* After all types were treated, a pair of different types has a conversion below `c` exactly when a path of
  conversions below `c` joins it (`within_foldl_detour_iff`).
-/

namespace Coercion.Graph

/-- What a pair holds after a path of kind `k` was offered to it. -/
def offered (held : Option Relation) (k : Kind) : Relation :=
  match held with
  | none => { kind := k, derived := true }
  | some r => if k.code < r.kind.code then improve r k else r

/-- What a pair holds after the path through `k` was offered to it, given the kind of the step to `k`. -/
def extended (rel : Pair → Option Relation) (k : TypeId) (first : Kind) (p : Pair) : Option Relation :=
  match rel ⟨k, p.target⟩ with
  | none => rel p
  | some second => some (offered (rel p) (first.compose second.kind))

/-- The relations after every pair was offered the path through `k`. -/
def detour (rel : Pair → Option Relation) (k : TypeId) (p : Pair) : Option Relation :=
  if p.source = k ∨ p.target = k ∨ p.source = p.target then rel p
  else
    match rel ⟨p.source, k⟩ with
    | none => rel p
    | some first => extended rel k first.kind p

/-- The kinds of some relations. -/
def kindsOf (rel : Pair → Option Relation) (p : Pair) : Option Kind := (rel p).map (·.kind)

/-- No type is related to itself. -/
def Irreflexive (rel : Pair → Option Relation) : Prop := ∀ t, rel ⟨t, t⟩ = none

variable {rel : Pair → Option Relation} {nodes : List TypeId} {i j k : TypeId} {c : Nat}

theorem within_kindsOf : Within (kindsOf rel) c i j ↔ ∃ r, rel ⟨i, j⟩ = some r ∧ r.kind.code ≤ c := by
  simp [Within, kindsOf]

theorem Irreflexive.ne_of_within (h : Irreflexive rel) (hw : Within (kindsOf rel) c i j) : i ≠ j := by
  rintro rfl
  obtain ⟨r, hr, -⟩ := within_kindsOf.1 hw
  rw [h] at hr
  cases hr

/-! ### One detour -/

@[simp] theorem kind_improve (r : Relation) (a : Kind) : (improve r a).kind = a := rfl

private theorem code_offered_le_iff (held : Option Relation) (a : Kind) :
    (offered held a).kind.code ≤ c ↔ (∃ r, held = some r ∧ r.kind.code ≤ c) ∨ a.code ≤ c := by
  cases held with
  | none => simp [offered]
  | some r =>
    simp only [offered, Option.some.injEq, exists_eq_left']
    split
    · rw [kind_improve]; omega
    · omega

private theorem detour_self (t : TypeId) : detour rel k ⟨t, t⟩ = rel ⟨t, t⟩ := by
  simp [detour]

theorem Irreflexive.detour (h : Irreflexive rel) : Irreflexive (detour rel k) := by
  intro t
  rw [detour_self, h]

/-- A detour never takes a relation away. -/
theorem isSome_detour {p : Pair} (h : (rel p).isSome) : (detour rel k p).isSome := by
  unfold detour extended
  split
  · exact h
  · split
    · exact h
    · split
      · exact h
      · rfl

/-- A pair is related after a detour if it was before, or if its ends are related with `k`. -/
theorem detour_eq_some {p : Pair} {r : Relation} (h : detour rel k p = some r) :
    rel p = some r ∨ ∃ first second, rel ⟨p.source, k⟩ = some first ∧ rel ⟨k, p.target⟩ = some second ∧
      p.source ≠ p.target ∧ r = offered (rel p) (first.kind.compose second.kind) := by
  unfold detour extended at h
  split at h
  · exact Or.inl h
  · rename_i hne
    split at h
    · exact Or.inl h
    · rename_i first h₁
      split at h
      · exact Or.inl h
      · rename_i second h₂
        exact Or.inr ⟨first, second, h₁, h₂, fun he => hne (Or.inr (Or.inr he)), (Option.some.inj h).symm⟩

/-- Below a bound, a detour through `k` adds the pairs that two conversions join at `k`. -/
theorem within_detour_iff (hirr : Irreflexive rel) :
    Within (kindsOf (detour rel k)) c i j ↔
      Within (kindsOf rel) c i j ∨ i ≠ j ∧ Within (kindsOf rel) c i k ∧ Within (kindsOf rel) c k j := by
  by_cases hskip : i = k ∨ j = k ∨ i = j
  · have hsame : detour rel k ⟨i, j⟩ = rel ⟨i, j⟩ := if_pos hskip
    have hno : ¬ (i ≠ j ∧ Within (kindsOf rel) c i k ∧ Within (kindsOf rel) c k j) := by
      rintro ⟨hij, hik, hkj⟩
      rcases hskip with h | h | h
      · exact hirr.ne_of_within hik h
      · exact hirr.ne_of_within hkj h.symm
      · exact hij h
    rw [within_kindsOf, hsame, ← within_kindsOf, or_iff_left hno]
  · have hij : i ≠ j := fun h => hskip (Or.inr (Or.inr h))
    simp only [within_kindsOf, detour, extended, if_neg hskip]
    rcases h₁ : rel ⟨i, k⟩ with _ | first
    · simp
    · rcases h₂ : rel ⟨k, j⟩ with _ | second
      · simp
      · simp only [Option.some.injEq, exists_eq_left', code_offered_le_iff, Kind.code_compose, Nat.max_le, ne_eq, hij,
          not_false_eq_true, true_and]

private theorem within_detour (hirr : Irreflexive rel) (h : Within (kindsOf rel) c i j) :
    Within (kindsOf (detour rel k)) c i j :=
  (within_detour_iff hirr).2 (Or.inl h)

/-! ### Closed types -/

/-- Two conversions that meet in `k` are no better than the one conversion between their ends. -/
def ClosedAt (rel : Pair → Option Relation) (k : TypeId) : Prop :=
  ∀ c i j, i ≠ j → Within (kindsOf rel) c i k → Within (kindsOf rel) c k j → Within (kindsOf rel) c i j

theorem closedAt_detour_self (hirr : Irreflexive rel) : ClosedAt (detour rel k) k := by
  intro c i j hij hik hkj
  rw [within_detour_iff hirr] at hik hkj ⊢
  -- the conversions into and out of `k` are not moved by the detour
  have hik' : Within (kindsOf rel) c i k := by
    rcases hik with h | ⟨-, -, h⟩
    · exact h
    · exact absurd rfl (hirr.ne_of_within h)
  have hkj' : Within (kindsOf rel) c k j := by
    rcases hkj with h | ⟨-, h, -⟩
    · exact h
    · exact absurd rfl (hirr.ne_of_within h)
  exact Or.inr ⟨hij, hik', hkj'⟩

theorem ClosedAt.detour {k' : TypeId} (hirr : Irreflexive rel) (h : ClosedAt rel k') : ClosedAt (detour rel k) k' := by
  intro c i j hij hi hj
  rw [within_detour_iff hirr] at hi hj ⊢
  rcases hi with hi | ⟨-, hik, hkk'⟩ <;> rcases hj with hj | ⟨-, hk'k, hkj⟩
  · exact Or.inl (h c i j hij hi hj)
  · -- `i → k' → k → j`: shorten `i → k' → k`, unless it starts in `k`
    by_cases hk : i = k
    · exact Or.inl (hk ▸ hkj)
    · exact Or.inr ⟨hij, h c i k hk hi hk'k, hkj⟩
  · -- `i → k → k' → j`: shorten `k → k' → j`, unless it ends in `k`
    by_cases hk : k = j
    · exact Or.inl (hk ▸ hik)
    · exact Or.inr ⟨hij, hik, h c k j hk hkk' hj⟩
  · exact Or.inr ⟨hij, hik, hkj⟩

/-! ### All detours -/

/-- What every detour keeps, the closure keeps. -/
theorem foldl_detour_induction {P : (Pair → Option Relation) → Prop} (step : ∀ rel t, P rel → P (detour rel t))
    (h : P rel) (nodes : List TypeId) : P (nodes.foldl detour rel) := by
  induction nodes generalizing rel with
  | nil => exact h
  | cons t nodes ih => exact ih (step rel t h)

private theorem within_foldl_detour (hirr : Irreflexive rel) (h : Within (kindsOf rel) c i j) :
    Within (kindsOf (nodes.foldl detour rel)) c i j := by
  induction nodes generalizing rel with
  | nil => exact h
  | cons k nodes ih => exact ih hirr.detour (within_detour hirr h)

private theorem ClosedAt.foldl_detour (hirr : Irreflexive rel) (h : ClosedAt rel k) :
    ClosedAt (nodes.foldl Graph.detour rel) k := by
  induction nodes generalizing rel with
  | nil => exact h
  | cons k' nodes ih => exact ih hirr.detour (h.detour hirr)

theorem closedAt_foldl_detour (hirr : Irreflexive rel) (hk : k ∈ nodes) :
    ClosedAt (nodes.foldl detour rel) k := by
  induction nodes generalizing rel with
  | nil => cases hk
  | cons k' nodes ih =>
    rcases List.mem_cons.1 hk with rfl | hk
    · rw [List.foldl_cons]
      exact (closedAt_detour_self hirr).foldl_detour hirr.detour
    · exact ih hirr.detour hk

/-- Every conversion that the detours make is a path of the conversions at the start. -/
private theorem transGen_of_within_foldl_detour (hirr : Irreflexive rel)
    (h : Within (kindsOf (nodes.foldl detour rel)) c i j) : Relation.TransGen (Within (kindsOf rel) c) i j := by
  induction nodes generalizing rel i j with
  | nil => exact .single h
  | cons k nodes ih =>
    refine Relation.TransGen.closed (fun a b hab => ?_) _ _ (ih hirr.detour h)
    rcases (within_detour_iff hirr).1 hab with hab | ⟨-, hak, hkb⟩
    · exact .single hab
    · exact .tail (.single hak) hkb

/-- Going over all related types makes the best conversion of every path, for each bound. -/
theorem within_foldl_detour_iff (hirr : Irreflexive rel) (hnodes : ∀ p r, rel p = some r → p.source ∈ nodes)
    (hij : i ≠ j) :
    Within (kindsOf (nodes.foldl detour rel)) c i j ↔ Relation.TransGen (Within (kindsOf rel) c) i j := by
  refine ⟨transGen_of_within_foldl_detour hirr, fun h => ?_⟩
  -- along a path, the conversion to the type reached so far is extended by one step
  induction h with
  | single h => exact within_foldl_detour hirr h
  | @tail m j _ hmj ih =>
    by_cases him : i = m
    · subst him
      exact within_foldl_detour hirr hmj
    · obtain ⟨r, hr, -⟩ := within_kindsOf.1 hmj
      exact closedAt_foldl_detour hirr (hnodes _ _ hr) c i j hij (ih him)
        (within_foldl_detour hirr hmj)

end Coercion.Graph
