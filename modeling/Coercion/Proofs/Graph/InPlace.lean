import Coercion.Proofs.Graph.Detour

/-!
# Closing relations in place

The closure writes into the relations that it reads.  This does no harm: while pairs are offered the path through `k`,
neither the relations into `k` nor those out of `k` are written, so every pair finds what it would have found at the
start (`relaxThrough_rel`).  A closure in place is therefore the closure by detours (`foldl_relaxThrough_rel`).
On relations that are closed already it does nothing at all, not even to its log (`foldl_relaxThrough_of_closedAt`).
-/

namespace Coercion.Graph

/-- The relations of a closure under way, as a function. -/
def Closing.rel (s : Closing) (p : Pair) : Option Relation := s.relations[p]?

variable {s : Closing} {nodes : List TypeId} {i j k : TypeId} {first : Kind} {p : Pair}

/-! ### One pair -/

theorem relax_rel (s : Closing) (p q : Pair) (a : Kind) :
    (relax s p a).rel q = if p = q then some (offered (s.rel p) a) else s.rel q := by
  have hp : s.rel p = s.relations[p]? := rfl
  rw [hp]
  unfold relax Closing.rel
  cases h : s.relations[p]? with
  | none => simp only [Std.HashMap.getElem?_insert, beq_iff_eq, offered]
  | some r =>
    by_cases hlt : a.code < r.kind.code
    · simp only [hlt, ↓reduceIte, Std.HashMap.getElem?_insert, beq_iff_eq, offered]
    · simp only [hlt, ↓reduceIte, offered]
      by_cases hpq : p = q
      · rw [if_pos hpq, ← hpq, h]
      · rw [if_neg hpq]

/-- One step of a row: the pair from `i` to `j` is offered the path through `k`. -/
private theorem relaxFrom_cons (j : TypeId) (nodes : List TypeId) :
    relaxFrom (j :: nodes) k i first s = relaxFrom nodes k i first (relaxFrom [j] k i first s) := rfl

private theorem relaxFrom_singleton_rel (p : Pair) :
    (relaxFrom [j] k i first s).rel p =
      if (⟨i, j⟩ : Pair) = p ∧ j ≠ i ∧ j ≠ k then extended s.rel k first p else s.rel p := by
  unfold relaxFrom
  simp only [List.foldl_cons, List.foldl_nil]
  by_cases hj : j = i ∨ j = k
  · rw [if_pos hj, if_neg]
    rintro ⟨-, h₁, h₂⟩
    exact hj.elim h₁ h₂
  · rw [if_neg hj]
    have hj' : j ≠ i ∧ j ≠ k := not_or.1 hj
    simp only [hj', ne_eq, not_false_eq_true, and_self, and_true]
    have hread : s.rel ⟨k, j⟩ = s.relations[(⟨k, j⟩ : Pair)]? := rfl
    split
    · -- nothing leads from `k` to `j`, so nothing is offered
      rename_i h
      by_cases hp : (⟨i, j⟩ : Pair) = p
      · subst hp
        simp only [extended, hread, h, ↓reduceIte]
      · rw [if_neg hp]
    · rename_i second h
      rw [relax_rel]
      by_cases hp : (⟨i, j⟩ : Pair) = p
      · subst hp
        simp only [extended, hread, h, ↓reduceIte]
      · rw [if_neg hp, if_neg hp]

/-! ### One row -/

/-- A row writes no pair but those that start in `i` and end in a type of the list, other than `i` and `k`. -/
private theorem relaxFrom_rel_of_not (h : p.source = i → p.target ∈ nodes → p.target = i ∨ p.target = k) :
    (relaxFrom nodes k i first s).rel p = s.rel p := by
  induction nodes generalizing s with
  | nil => rfl
  | cons j nodes ih =>
    rw [relaxFrom_cons, ih (fun hs ht => h hs (List.mem_cons_of_mem _ ht)), relaxFrom_singleton_rel, if_neg]
    rintro ⟨rfl, hi, hk⟩
    exact (h rfl List.mem_cons_self).elim hi hk

/-- In a row every pair finds what it would have found at the start of the row. -/
private theorem relaxFrom_rel (hik : i ≠ k) (hnd : nodes.Nodup) (hj : j ∈ nodes) (hji : j ≠ i) (hjk : j ≠ k) :
    (relaxFrom nodes k i first s).rel ⟨i, j⟩ = extended s.rel k first ⟨i, j⟩ := by
  induction nodes generalizing s with
  | nil => cases hj
  | cons j' nodes ih =>
    rw [List.nodup_cons] at hnd
    rw [relaxFrom_cons]
    rcases List.mem_cons.1 hj with rfl | hj
    · rw [relaxFrom_rel_of_not (fun _ ht => absurd ht hnd.1), relaxFrom_singleton_rel, if_pos ⟨rfl, hji, hjk⟩]
    · rw [ih hnd.2 hj]
      have hne : j' ≠ j := fun h => hnd.1 (h ▸ hj)
      -- the step before wrote neither the pair nor a relation out of `k`
      have hpair : (relaxFrom [j'] k i first s).rel ⟨i, j⟩ = s.rel ⟨i, j⟩ := by
        rw [relaxFrom_singleton_rel, if_neg]
        rintro ⟨h, -⟩
        exact hne (congrArg Pair.target h)
      have hout : (relaxFrom [j'] k i first s).rel ⟨k, j⟩ = s.rel ⟨k, j⟩ := by
        rw [relaxFrom_singleton_rel, if_neg]
        rintro ⟨h, -⟩
        exact hik (congrArg Pair.source h)
      simp only [extended, hpair, hout]

/-! ### All rows -/

/-- The rows of the sources in `rows`. -/
def relaxRows (nodes : List TypeId) (k : TypeId) (rows : List TypeId) (s : Closing) : Closing :=
  rows.foldl
    (fun s i =>
      if i = k then s
      else
        match s.relations[(⟨i, k⟩ : Pair)]? with
        | none => s
        | some first => relaxFrom nodes k i first.kind s)
    s

private theorem relaxThrough_eq_relaxRows : relaxThrough nodes k s = relaxRows nodes k nodes s := rfl

private theorem relaxRows_cons (i : TypeId) (rows : List TypeId) :
    relaxRows nodes k (i :: rows) s = relaxRows nodes k rows (relaxRows nodes k [i] s) := rfl

private theorem relaxRows_singleton_of_ne (hik : i ≠ k) :
    relaxRows nodes k [i] s =
      match s.rel ⟨i, k⟩ with
      | none => s
      | some first => relaxFrom nodes k i first.kind s := by
  unfold relaxRows Closing.rel
  simp only [List.foldl_cons, List.foldl_nil, if_neg hik]

/-- A row leaves alone the pairs with another source, and those that end in its own source or in `k`. -/
private theorem relaxRows_singleton_rel_of_not
    (h : p.source = i → i ≠ k → p.target ∈ nodes → p.target = i ∨ p.target = k) :
    (relaxRows nodes k [i] s).rel p = s.rel p := by
  by_cases hik : i = k
  · subst hik
    simp [relaxRows]
  · rw [relaxRows_singleton_of_ne hik]
    split
    · rfl
    · exact relaxFrom_rel_of_not (fun hs ht => h hs hik ht)

private theorem relaxRows_rel_of_not {rows : List TypeId}
    (h : p.source ∈ rows → p.source ≠ k → p.target ∈ nodes → p.target = p.source ∨ p.target = k) :
    (relaxRows nodes k rows s).rel p = s.rel p := by
  induction rows generalizing s with
  | nil => rfl
  | cons i rows ih =>
    rw [relaxRows_cons, ih (fun hs => h (List.mem_cons_of_mem _ hs)), relaxRows_singleton_rel_of_not]
    rintro rfl
    exact h List.mem_cons_self

private theorem relaxRows_rel {rows : List TypeId} (hnd : nodes.Nodup) (hrows : rows.Nodup) (hi : i ∈ rows)
    (hj : j ∈ nodes) (hik : i ≠ k) (hji : j ≠ i) (hjk : j ≠ k) :
    (relaxRows nodes k rows s).rel ⟨i, j⟩ = detour s.rel k ⟨i, j⟩ := by
  induction rows generalizing s with
  | nil => cases hi
  | cons i' rows ih =>
    rw [List.nodup_cons] at hrows
    rw [relaxRows_cons]
    rcases List.mem_cons.1 hi with rfl | hi
    · rw [relaxRows_rel_of_not (fun hs => absurd hs hrows.1), relaxRows_singleton_of_ne hik]
      have hskip : ¬ (i = k ∨ j = k ∨ i = j) := by
        rintro (h | h | h)
        · exact hik h
        · exact hjk h
        · exact hji h.symm
      simp only [detour, if_neg hskip]
      rcases s.rel ⟨i, k⟩ with _ | first
      · rfl
      · exact relaxFrom_rel hik hnd hj hji hjk
    · rw [ih hrows.2 hi]
      have hne : i ≠ i' := fun h => hrows.1 (h ▸ hi)
      -- the row before wrote neither the pair nor a relation into or out of `k`
      have hpair : (relaxRows nodes k [i'] s).rel ⟨i, j⟩ = s.rel ⟨i, j⟩ :=
        relaxRows_singleton_rel_of_not (fun h => absurd h hne)
      have hin : (relaxRows nodes k [i'] s).rel ⟨i, k⟩ = s.rel ⟨i, k⟩ :=
        relaxRows_singleton_rel_of_not (fun h => absurd h hne)
      have hout : (relaxRows nodes k [i'] s).rel ⟨k, j⟩ = s.rel ⟨k, j⟩ :=
        relaxRows_singleton_rel_of_not (fun h hk => absurd h.symm hk)
      simp only [detour, extended, hpair, hin, hout]

/-! ### The whole closure -/

/-- All relations join types of the list. -/
def Inside (nodes : List TypeId) (rel : Pair → Option Relation) : Prop :=
  ∀ p r, rel p = some r → p.source ∈ nodes ∧ p.target ∈ nodes

theorem Inside.detour {rel : Pair → Option Relation} (h : Inside nodes rel) : Inside nodes (detour rel k) := by
  intro p r hr
  rcases detour_eq_some hr with hr | ⟨first, second, h₁, h₂, -, -⟩
  · exact h p r hr
  · exact ⟨(h _ _ h₁).1, (h _ _ h₂).2⟩

/-- Going through `k` in place is the detour through `k`. -/
theorem relaxThrough_rel (hnd : nodes.Nodup) (hs : Inside nodes s.rel) :
    (relaxThrough nodes k s).rel = detour s.rel k := by
  funext ⟨i, j⟩
  rw [relaxThrough_eq_relaxRows]
  by_cases hskip : i = k ∨ j = k ∨ i = j
  · have hsame : detour s.rel k ⟨i, j⟩ = s.rel ⟨i, j⟩ := if_pos hskip
    rw [hsame]
    apply relaxRows_rel_of_not
    intro _ hik _
    rcases hskip with h | h | h
    · exact absurd h hik
    · exact Or.inr h
    · exact Or.inl h.symm
  · have hik : i ≠ k := fun h => hskip (Or.inl h)
    have hjk : j ≠ k := fun h => hskip (Or.inr (Or.inl h))
    have hji : j ≠ i := fun h => hskip (Or.inr (Or.inr h.symm))
    by_cases hmem : i ∈ nodes ∧ j ∈ nodes
    · exact relaxRows_rel hnd hnd hmem.1 hmem.2 hik hji hjk
    · -- a pair with an end outside the list has no relations to compose
      rw [relaxRows_rel_of_not (fun hi _ hj => absurd ⟨hi, hj⟩ hmem)]
      simp only [detour, extended, if_neg hskip]
      rcases h₁ : s.rel ⟨i, k⟩ with _ | first
      · rfl
      · rcases h₂ : s.rel ⟨k, j⟩ with _ | second
        · rfl
        · exact absurd ⟨(hs _ _ h₁).1, (hs _ _ h₂).2⟩ hmem

/-- Closing in place is going through the detours one after the other. -/
theorem foldl_relaxThrough_rel (hnd : nodes.Nodup) (hs : Inside nodes s.rel) (ks : List TypeId) :
    (ks.foldl (fun s k => relaxThrough nodes k s) s).rel = ks.foldl detour s.rel := by
  induction ks generalizing s with
  | nil => rfl
  | cons k ks ih =>
    have hstep : (relaxThrough nodes k s).rel = detour s.rel k := relaxThrough_rel hnd hs
    rw [List.foldl_cons, List.foldl_cons, ih (hstep ▸ hs.detour), hstep]

/-! ### Closed relations -/

private theorem relax_of_le {r : Relation} {a : Kind} (hr : s.rel p = some r) (hle : r.kind.code ≤ a.code) :
    relax s p a = s := by
  unfold Closing.rel at hr
  unfold relax
  rw [hr]
  exact if_neg (by omega)

/-- Where relations are closed at `k`, offering paths through `k` changes nothing. -/
private theorem relaxThrough_of_closedAt (hk : ClosedAt s.rel k) : relaxThrough nodes k s = s := by
  have hrow : ∀ i first, i ≠ k → s.rel ⟨i, k⟩ = some first → ∀ js, relaxFrom js k i first.kind s = s := by
    intro i first _ h₁ js
    induction js with
    | nil => rfl
    | cons j js ih =>
      have hone : relaxFrom [j] k i first.kind s = s := by
        unfold relaxFrom
        simp only [List.foldl_cons, List.foldl_nil]
        split
        · rfl
        · rename_i hj
          split
          · rfl
          · rename_i second h₂
            have hwithin : Within (kindsOf s.rel) (first.kind.compose second.kind).code i j := by
              rw [Kind.code_compose]
              exact hk _ i j (fun h => hj (Or.inl h.symm))
                (within_kindsOf.2 ⟨first, h₁, Nat.le_max_left _ _⟩)
                (within_kindsOf.2 ⟨second, h₂, Nat.le_max_right _ _⟩)
            obtain ⟨r, hr, hle⟩ := within_kindsOf.1 hwithin
            exact relax_of_le hr hle
      rw [relaxFrom_cons, hone, ih]
  have hrows : ∀ rows, relaxRows nodes k rows s = s := by
    intro rows
    induction rows with
    | nil => rfl
    | cons i rows ih =>
      have hone : relaxRows nodes k [i] s = s := by
        by_cases hik : i = k
        · subst hik
          simp [relaxRows]
        · rw [relaxRows_singleton_of_ne hik]
          split
          · rfl
          · rename_i first h₁
            exact hrow i first hik h₁ nodes
      rw [relaxRows_cons, hone, ih]
  rw [relaxThrough_eq_relaxRows, hrows]

theorem foldl_relaxThrough_of_closedAt {ks : List TypeId} (hk : ∀ k ∈ ks, ClosedAt s.rel k) :
    ks.foldl (fun s k => relaxThrough nodes k s) s = s := by
  induction ks with
  | nil => rfl
  | cons k ks ih =>
    rw [List.foldl_cons, relaxThrough_of_closedAt (hk k List.mem_cons_self)]
    exact ih (fun k' hk' => hk k' (List.mem_cons_of_mem _ hk'))

end Coercion.Graph
