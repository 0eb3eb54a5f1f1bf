import Coercion.Proofs.Graph.History

/-!
# A closed graph holds the best paths

Closing a graph relates two different types exactly when a chain of the relations before leads from one to the other,
and then with the least kind that such a chain can have (`WellFormed.best_propagate`).  A closure keeps which pairs
are declared (`WellFormed.isDeclared_propagate`), and closing once more neither changes a relation nor finds anything
(`WellFormed.propagate_propagate`).
-/

namespace Coercion.Graph

/-- The kind of a pair, declared or derived. -/
def kind? (g : Graph) (p : Pair) : Option Kind := (g.lookup? p).map (·.kind)

theorem kind?_eq_kindsOf (g : Graph) : g.kind? = kindsOf g.lookup? := rfl

variable {g : Graph} {i j : TypeId}

/-! ### Best paths -/

theorem WellFormed.within_propagate_iff (hg : g.WellFormed) (hij : i ≠ j) (c : Nat) :
    Within g.propagate.1.kind? c i j ↔ Relation.TransGen (Within g.kind? c) i j := by
  have hnodes : ∀ p r, g.lookup? p = some r → p.source ∈ g.sortedNodes :=
    fun p r hr => mem_sortedNodes.2 (hg.inside p r hr).1
  rw [kind?_eq_kindsOf, kind?_eq_kindsOf, hg.lookup?_propagate]
  exact within_foldl_detour_iff hg.irreflexive hnodes hij

theorem WellFormed.isSome_propagate_iff (hg : g.WellFormed) (hij : i ≠ j) :
    (g.propagate.1.lookup? ⟨i, j⟩).isSome ↔ ∃ ks, Chain g.kind? i j ks := by
  rw [← isSome_iff_exists_chain (hg.within_propagate_iff hij)]
  simp [kind?]

theorem WellFormed.best_propagate (hg : g.WellFormed) (hij : i ≠ j) {r : Relation}
    (hr : g.propagate.1.lookup? ⟨i, j⟩ = some r) : Best g.kind? i j r.kind := by
  apply best_of_forall_bound (hg.within_propagate_iff hij)
  simp [kind?, hr]

/-! ### Declared pairs -/

theorem isDeclared_eq (g : Graph) (p : Pair) : g.isDeclared p = (g.lookup? p).any (!·.derived) := by
  unfold isDeclared
  split <;> simp_all

private theorem any_not_derived_detour (rel : Pair → Option Relation) (k : TypeId) (p : Pair) :
    (detour rel k p).any (!·.derived) = (rel p).any (!·.derived) := by
  rcases h : detour rel k p with _ | r
  · cases hp : rel p with
    | none => rfl
    | some r =>
      have hsome : (rel p).isSome := by rw [hp]; rfl
      have hstays := isSome_detour (k := k) hsome
      rw [h] at hstays
      cases hstays
  · rcases detour_eq_some h with hr | ⟨first, second, -, -, -, rfl⟩
    · rw [hr]
    · -- a new relation is derived, a better one keeps the mark of the old one
      cases hp : rel p with
      | none => rfl
      | some held =>
        simp only [offered, Option.any_some]
        split <;> rfl

/-- A closure neither makes nor loses a declared pair. -/
theorem WellFormed.isDeclared_propagate (hg : g.WellFormed) (p : Pair) :
    g.propagate.1.isDeclared p = g.isDeclared p := by
  rw [isDeclared_eq, isDeclared_eq, hg.lookup?_propagate]
  refine foldl_detour_induction (P := fun rel => (rel p).any (!·.derived) = (g.lookup? p).any (!·.derived)) ?_ rfl _
  intro rel t h
  rw [any_not_derived_detour, h]

/-- The number of declared pairs, counted source by source. -/
private theorem countP_declared_edges (g : Graph) :
    g.edges.countP (!·.relation.derived) =
      (g.sortedNodes.flatMap fun i => g.sortedNodes.filter fun j => g.isDeclared ⟨i, j⟩).length := by
  unfold edges
  rw [List.countP_flatMap, List.length_flatMap]
  congr 1
  apply List.map_congr_left
  intro i _
  simp only [Function.comp_apply, List.countP_filterMap, ← List.countP_eq_length_filter]
  apply List.countP_congr
  intro j _
  rw [isDeclared_eq]
  cases g.lookup? ⟨i, j⟩ <;> simp

private theorem WellFormed.countP_declared_propagate (hg : g.WellFormed) :
    g.propagate.1.edges.countP (!·.relation.derived) = g.edges.countP (!·.relation.derived) := by
  have hnodes : g.propagate.1.sortedNodes = g.sortedNodes := rfl
  simp only [countP_declared_edges, hnodes, hg.isDeclared_propagate]

/-! ### Closing once more -/

/-- A graph that is closed at its types is left as it is, without a write. -/
theorem close_of_closedAt (h : ∀ k ∈ g.sortedNodes, ClosedAt g.lookup? k) : g.close = (g, []) := by
  have hstill : g.sortedNodes.foldl (fun s k => relaxThrough g.sortedNodes k s) ⟨g.relations, []⟩ =
      (⟨g.relations, []⟩ : Closing) :=
    foldl_relaxThrough_of_closedAt (s := ⟨g.relations, []⟩) h
  simp only [close, hstill, List.reverse_nil]

theorem WellFormed.closedAt_propagate (hg : g.WellFormed) {k : TypeId} (hk : k ∈ g.nodes) :
    ClosedAt g.propagate.1.lookup? k := by
  rw [hg.lookup?_propagate]
  exact closedAt_foldl_detour hg.irreflexive (mem_sortedNodes.2 hk)

theorem WellFormed.propagate_propagate (hg : g.WellFormed) :
    g.propagate.1.propagate = (g.propagate.1, { g.propagate.2 with derived := 0, improved := 0 }) := by
  have hclosed : g.propagate.1.close = (g.propagate.1, []) := by
    apply close_of_closedAt
    intro k hk
    exact hg.closedAt_propagate (mem_sortedNodes.1 hk)
  have hdeclared : g.propagate.2.declared = g.edges.countP (!·.relation.derived) := rfl
  rw [Graph.propagate.eq_1 g.propagate.1, hclosed]
  simp only [closeStats, hg.countP_declared_propagate, List.countP_nil, hdeclared]
  rfl

/-- After any history, a closure gives two different types the best kind of a path between them if there is a path and
leaves them apart otherwise, relates no type to itself, and leaves nothing to do for a second closure. -/
theorem propagate_takes_best_paths (actions : List Action) (i j : TypeId) (hij : i ≠ j) :
    (((history actions).propagate.1.lookup? ⟨i, j⟩).isSome ↔ ∃ ks, Chain (history actions).kind? i j ks) ∧
    (∀ r, (history actions).propagate.1.lookup? ⟨i, j⟩ = some r → Best (history actions).kind? i j r.kind) ∧
    (∀ t, (history actions).lookup? ⟨t, t⟩ = none ∧ (history actions).propagate.1.lookup? ⟨t, t⟩ = none) ∧
    (history actions).propagate.1.propagate =
      ((history actions).propagate.1, { (history actions).propagate.2 with derived := 0, improved := 0 }) := by
  have hg : (history actions).WellFormed := wellFormed_history actions
  refine ⟨hg.isSome_propagate_iff hij, ?_, ?_, hg.propagate_propagate⟩
  · intro r hr
    exact hg.best_propagate hij hr
  · intro t
    exact ⟨hg.irreflexive t, hg.propagate.irreflexive t⟩

/-- A promotion and a safe conversion in a row are joined. -/
theorem propagate_joins_two_steps :
    (⟨0⟩ : TypeId) ≠ ⟨2⟩ ∧
      ((history [.insert ⟨⟨0⟩, ⟨1⟩⟩ .promote, .insert ⟨⟨1⟩, ⟨2⟩⟩ .safe]).propagate.1.lookup? ⟨⟨0⟩, ⟨2⟩⟩).isSome := by
  refine ⟨by decide, (propagate_takes_best_paths _ _ _ (by decide)).1.2 ⟨[.promote, .safe], ?_⟩⟩
  have hone : refusal? ⟨⟨0⟩, ⟨1⟩⟩ .promote = none := by decide
  have htwo : refusal? ⟨⟨1⟩, ⟨2⟩⟩ .safe = none := by decide
  refine .cons (m := ⟨1⟩) ?_ (.single ?_) <;> simp [kind?, history, lookup?_perform_insert, hone, htwo]

end Coercion.Graph
