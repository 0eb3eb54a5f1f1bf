import Coercion.Proofs.Graph.InPlace
import Coercion.Proofs.Order

/-!
# Histories of a graph

A graph comes about by declarations, some of which are refused, and by closures.  Whatever their order, the types of
the graph are listed once, are the types that were seen and are valid, and its relations are conversions between
different listed types (`wellFormed_history`).  Closing such a graph goes through the detours of its types
(`WellFormed.lookup?_propagate`).
-/

namespace Coercion.Graph

/-- What can be done to a graph. -/
inductive Action where
  | insert (pair : Pair) (kind : Kind)
  | propagate
  deriving DecidableEq

/-- The graph after an action; a refused declaration leaves it as it is. -/
def perform (g : Graph) : Action → Graph
  | .insert p k =>
    match g.insert p k with
    | .ok (g', _) => g'
    | .error _ => g
  | .propagate => g.propagate.1

/-- The graph after some actions, starting without types. -/
def history (actions : List Action) : Graph := actions.foldl perform .empty

/-- All relations have a kind that a rule may declare. -/
def Conversions (rel : Pair → Option Relation) : Prop := ∀ p r, rel p = some r → r.kind.isConversion

/-- The types are listed once, and those listed are those seen. -/
structure Listed (g : Graph) : Prop where
  nodup : g.nodes.Nodup
  mem_seen : ∀ t, t ∈ g.seen ↔ t ∈ g.nodes

/-- What holds of a graph at any time. -/
structure WellFormed (g : Graph) : Prop extends Listed g where
  inside : Inside g.nodes g.lookup?
  irreflexive : Irreflexive g.lookup?
  valid : ∀ t ∈ g.nodes, t.valid
  conversions : Conversions g.lookup?

variable {g g' : Graph} {p : Pair} {k : Kind} {replaced : Bool}

theorem WellFormed.ne_of_lookup? (hg : g.WellFormed) {r : Relation} (hr : g.lookup? p = some r) :
    p.source ≠ p.target := by
  obtain ⟨i, j⟩ := p
  intro (hij : i = j)
  rw [hij, hg.irreflexive] at hr
  cases hr

/-! ### Declarations -/

theorem refusal?_eq_none :
    refusal? p k = none ↔ k.isConversion ∧ p.source.valid ∧ p.target.valid ∧ p.source ≠ p.target := by
  unfold refusal?
  cases k.isConversion <;> cases p.source.valid <;> cases p.target.valid <;> by_cases h : p.source = p.target <;>
    simp [h]

theorem insert_eq_ok (h : g.insert p k = .ok (g', replaced)) :
    refusal? p k = none ∧
      (g'.nodes = ((g.addNode p.source).addNode p.target).nodes ∧
        g'.seen = ((g.addNode p.source).addNode p.target).seen) ∧
      g'.relations = g.relations.insert p { kind := k } ∧ replaced = g.isDeclared p := by
  unfold insert at h
  split at h
  · cases h
  · rename_i hr
    cases h
    exact ⟨hr, ⟨rfl, rfl⟩, rfl, rfl⟩

/-- A declaration that is not refused is made. -/
theorem exists_insert_eq_ok (g : Graph) (h : refusal? p k = none) : ∃ g', g.insert p k = .ok (g', g.isDeclared p) := by
  unfold insert
  rw [h]
  exact ⟨_, rfl⟩

private theorem lookup?_insert (h : g.insert p k = .ok (g', replaced)) (q : Pair) :
    g'.lookup? q = if p = q then some { kind := k } else g.lookup? q := by
  obtain ⟨-, -, hrel, -⟩ := insert_eq_ok h
  unfold lookup?
  rw [hrel, Std.HashMap.getElem?_insert]
  simp only [beq_iff_eq]

/-- A refused declaration leaves the graph as it is. -/
theorem perform_insert_of_refused (g : Graph) (h : refusal? p k ≠ none) : g.perform (.insert p k) = g := by
  obtain ⟨e, he⟩ := Option.ne_none_iff_exists'.1 h
  simp only [perform, insert, he]

/-- A declaration that is not refused is the relation of its pair; no other pair is touched. -/
theorem lookup?_perform_insert (g : Graph) (p : Pair) (k : Kind) (q : Pair) :
    (g.perform (.insert p k)).lookup? q = if refusal? p k = none ∧ p = q then some { kind := k } else g.lookup? q := by
  by_cases hr : refusal? p k = none
  · obtain ⟨g', hg'⟩ := exists_insert_eq_ok g hr
    simp only [perform, hg', lookup?_insert hg', hr, true_and]
  · rw [perform_insert_of_refused g hr, if_neg (fun hc => hr hc.1)]

private theorem addNode_of_mem {t : TypeId} (h : t ∈ g.seen) : g.addNode t = g :=
  if_pos (Std.TreeSet.mem_iff_contains.1 h)

private theorem addNode_of_not_mem {t : TypeId} (h : t ∉ g.seen) :
    g.addNode t = { g with nodes := g.nodes ++ [t], seen := g.seen.insert t } :=
  if_neg fun hseen => h (Std.TreeSet.mem_iff_contains.2 hseen)

private theorem mem_seen_addNode {t u : TypeId} : u ∈ (g.addNode t).seen ↔ u = t ∨ u ∈ g.seen := by
  by_cases ht : t ∈ g.seen
  · rw [addNode_of_mem ht, or_iff_right_of_imp]
    rintro rfl
    exact ht
  · rw [addNode_of_not_mem ht, Std.TreeSet.mem_insert, Std.LawfulEqCmp.compare_eq_iff_eq, eq_comm]

private theorem Listed.addNode (hg : g.Listed) (t : TypeId) : (g.addNode t).Listed := by
  by_cases ht : t ∈ g.seen
  · rwa [addNode_of_mem ht]
  · -- a type that was not seen is not listed
    have hnew : t ∉ g.nodes := mt (hg.mem_seen t).2 ht
    refine ⟨?_, fun u => ?_⟩
    · rw [addNode_of_not_mem ht, List.nodup_append]
      refine ⟨hg.nodup, by simp, ?_⟩
      intro u hu v hv
      rw [List.mem_singleton.1 hv]
      rintro rfl
      exact hnew hu
    · rw [mem_seen_addNode, addNode_of_not_mem ht, List.mem_append, List.mem_singleton, hg.mem_seen, or_comm]

private theorem Listed.mem_nodes_addNode (hg : g.Listed) {t u : TypeId} :
    u ∈ (g.addNode t).nodes ↔ u = t ∨ u ∈ g.nodes := by
  rw [← (hg.addNode t).mem_seen, mem_seen_addNode, hg.mem_seen]

private theorem Listed.insert (hg : g.Listed) (h : g.insert p k = .ok (g', replaced)) : g'.Listed := by
  obtain ⟨-, ⟨hnodes, hseen⟩, -, -⟩ := insert_eq_ok h
  have hends := (hg.addNode p.source).addNode p.target
  refine ⟨?_, ?_⟩
  · rw [hnodes]
    exact hends.nodup
  · rw [hnodes, hseen]
    exact hends.mem_seen

private theorem Listed.mem_nodes_insert (hg : g.Listed) (h : g.insert p k = .ok (g', replaced)) {t : TypeId} :
    t ∈ g'.nodes ↔ t = p.target ∨ t = p.source ∨ t ∈ g.nodes := by
  obtain ⟨-, ⟨hnodes, -⟩, -, -⟩ := insert_eq_ok h
  rw [hnodes, (hg.addNode p.source).mem_nodes_addNode, hg.mem_nodes_addNode]

theorem Listed.mem_nodes_perform_insert (hg : g.Listed) {t : TypeId} :
    t ∈ (g.perform (.insert p k)).nodes ↔ refusal? p k = none ∧ (t = p.target ∨ t = p.source) ∨ t ∈ g.nodes := by
  by_cases hr : refusal? p k = none
  · obtain ⟨g', hg'⟩ := exists_insert_eq_ok g hr
    simp only [perform, hg', hg.mem_nodes_insert hg', hr, true_and, or_assoc]
  · simp only [perform_insert_of_refused g hr, hr, false_and, false_or]

private theorem WellFormed.insert (hg : g.WellFormed) (h : g.insert p k = .ok (g', replaced)) : g'.WellFormed := by
  obtain ⟨hok, -, -, -⟩ := insert_eq_ok h
  obtain ⟨hk, hsource, htarget, hne⟩ := refusal?_eq_none.1 hok
  have hmem : ∀ t, t ∈ g'.nodes ↔ t = p.target ∨ t = p.source ∨ t ∈ g.nodes := fun t => hg.mem_nodes_insert h
  refine ⟨hg.toListed.insert h, ?_, ?_, ?_, ?_⟩
  · intro q r hr
    rw [lookup?_insert h] at hr
    rw [hmem, hmem]
    split at hr
    · rename_i hpq
      subst hpq
      simp
    · have := hg.inside q r hr
      exact ⟨Or.inr (Or.inr this.1), Or.inr (Or.inr this.2)⟩
  · intro t
    rw [lookup?_insert h, if_neg]
    · exact hg.irreflexive t
    · rintro rfl
      exact hne rfl
  · intro t ht
    rcases (hmem t).1 ht with rfl | rfl | ht
    · exact htarget
    · exact hsource
    · exact hg.valid t ht
  · intro q r hr
    rw [lookup?_insert h] at hr
    split at hr
    · cases hr
      exact hk
    · exact hg.conversions q r hr

/-! ### Closures -/

theorem sortedNodes_perm (g : Graph) : g.sortedNodes.Perm g.nodes := List.mergeSort_perm _ _

@[simp] theorem mem_sortedNodes {t : TypeId} : t ∈ g.sortedNodes ↔ t ∈ g.nodes := g.sortedNodes_perm.mem_iff

/-- Closing a graph goes through the detours of its types, in order. -/
theorem WellFormed.lookup?_propagate (hg : g.WellFormed) :
    g.propagate.1.lookup? = g.sortedNodes.foldl detour g.lookup? := by
  have hnd : g.sortedNodes.Nodup := g.sortedNodes_perm.nodup_iff.2 hg.nodup
  have hin : Inside g.sortedNodes g.lookup? := by
    intro p r hr
    rw [mem_sortedNodes, mem_sortedNodes]
    exact hg.inside p r hr
  exact foldl_relaxThrough_rel (s := ⟨g.relations, []⟩) hnd hin g.sortedNodes

/-- The kind of a detour is one of the kinds that it is made of. -/
private theorem Conversions.detour {rel : Pair → Option Relation} {t : TypeId} (h : Conversions rel) :
    Conversions (detour rel t) := by
  intro p r hr
  rcases detour_eq_some hr with hr | ⟨first, second, h₁, h₂, -, rfl⟩
  · exact h p r hr
  · have hpath : (first.kind.compose second.kind).isConversion := by
      rcases Kind.compose_eq_left_or_right first.kind second.kind with e | e <;> rw [e]
      · exact h _ _ h₁
      · exact h _ _ h₂
    unfold offered
    split
    · exact hpath
    · rename_i held hheld
      split
      · exact hpath
      · exact h _ _ hheld

theorem WellFormed.propagate (hg : g.WellFormed) : g.propagate.1.WellFormed := by
  refine ⟨⟨hg.nodup, hg.mem_seen⟩, ?_, ?_, hg.valid, ?_⟩
  · rw [hg.lookup?_propagate]
    exact foldl_detour_induction (fun _ _ h => h.detour) hg.inside _
  · rw [hg.lookup?_propagate]
    exact foldl_detour_induction (fun _ _ h => h.detour) hg.irreflexive _
  · rw [hg.lookup?_propagate]
    exact foldl_detour_induction (fun _ _ h => h.detour) hg.conversions _

/-! ### Histories -/

theorem lookup?_empty (p : Pair) : Graph.empty.lookup? p = none := Std.HashMap.getElem?_empty

private theorem listed_empty : Graph.empty.Listed :=
  ⟨List.nodup_nil, fun _ => iff_of_false Std.TreeSet.not_mem_emptyc List.not_mem_nil⟩

theorem wellFormed_empty : Graph.empty.WellFormed := by
  refine ⟨listed_empty, ?_, fun t => lookup?_empty ⟨t, t⟩, ?_, ?_⟩
  · intro p r hr
    rw [lookup?_empty] at hr
    cases hr
  · intro t ht
    cases ht
  · intro p r hr
    rw [lookup?_empty] at hr
    cases hr

theorem WellFormed.perform (hg : g.WellFormed) (a : Action) : (g.perform a).WellFormed := by
  cases a with
  | insert p k =>
    simp only [Graph.perform]
    split
    · rename_i h
      exact hg.insert h
    · exact hg
  | propagate => exact hg.propagate

private theorem wellFormed_foldl_perform (hg : g.WellFormed) (actions : List Action) :
    (actions.foldl Graph.perform g).WellFormed := by
  induction actions generalizing g with
  | nil => exact hg
  | cons a actions ih => exact ih (hg.perform a)

theorem wellFormed_history (actions : List Action) : (history actions).WellFormed :=
  wellFormed_foldl_perform wellFormed_empty actions

end Coercion.Graph
