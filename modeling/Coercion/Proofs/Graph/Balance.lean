import Coercion.Proofs.Graph.Closedness
import Coercion.Proofs.Graph.Declarations

/-!
# Counting relations

The declarations of a graph, the writes of its closure and the relations that the closure leaves are counted in
different places.  For a graph that was not closed before (`Plain`), the counts balance:

* a declaration adds a relation or replaces one (`Plain.size_perform_insert`);
* a closure adds a relation with every first write of a pair (`size_close`), so the declared and the derived relations
  are all there are in the end (`WellFormed.declared_add_derived`);
* the declarations that end up below a better kind are those of the pairs that a chain serves better than their own
  declaration (`WellFormed.mem_improvedPairs`), and each of them took a write (`WellFormed.card_improvedPairs_le`).
-/

namespace Coercion

/-- A chain leads from the source to the target of a pair at a lesser kind than the step between them. -/
def Bettered (step : Pair → Option Kind) (p : Pair) : Prop :=
  ∃ k best, step p = some k ∧ Best step p.source p.target best ∧ best.code < k.code

private theorem Best.unique {step : Pair → Option Kind} {i j : TypeId} {k k' : Kind} (h : Best step i j k)
    (h' : Best step i j k') : k = k' := by
  obtain ⟨⟨ks, hks, rfl⟩, hleast⟩ := h
  obtain ⟨⟨ks', hks', rfl⟩, hleast'⟩ := h'
  exact Kind.code_injective (Nat.le_antisymm (hleast ks' hks') (hleast' ks hks))

namespace Graph

/-- Every relation is as it was declared. -/
def Plain (g : Graph) : Prop := ∀ p r, g.lookup? p = some r → r = { kind := r.kind }

/-- The pairs whose declaration stands below a better kind. -/
def improvedPairs (g : Graph) : Finset Pair :=
  ((g.edges.filter (·.relation.declared.isSome)).map Edge.pair).toFinset

variable {g : Graph} {p : Pair} {k : Kind}

/-! ### Declarations -/

theorem plain_empty : Graph.empty.Plain := by
  intro p r hr
  rw [lookup?_empty] at hr
  cases hr

theorem Plain.perform_insert (hg : g.Plain) (p : Pair) (k : Kind) : (g.perform (.insert p k)).Plain := by
  intro q r hr
  rw [lookup?_perform_insert] at hr
  split at hr
  · cases hr
    rfl
  · exact hg q r hr

private theorem Plain.isDeclared_iff (hg : g.Plain) : g.isDeclared p = true ↔ p ∈ g.relations := by
  rw [isDeclared_eq, Std.HashMap.mem_iff_isSome_getElem?]
  show (g.lookup? p).any (!·.derived) = true ↔ (g.lookup? p).isSome = true
  cases hr : g.lookup? p with
  | none => simp
  | some r =>
    rw [hg p r hr]
    simp

/-- A declaration that is made replaces the one of its pair or adds a relation. -/
theorem Plain.size_perform_insert (hg : g.Plain) (h : refusal? p k = none) :
    (g.perform (.insert p k)).relations.size + (if g.isDeclared p then 1 else 0) = g.relations.size + 1 := by
  obtain ⟨g', hg'⟩ := exists_insert_eq_ok g h
  obtain ⟨-, -, hrelations, -⟩ := insert_eq_ok hg'
  simp only [perform, hg', hrelations, Std.HashMap.size_insert, hg.isDeclared_iff]
  split <;> omega

/-- The edges of a graph are its relations. -/
private theorem WellFormed.length_edges (hg : g.WellFormed) : g.edges.length = g.relations.size := by
  have hnodup : g.relations.keys.Nodup := by
    have hdistinct := g.relations.distinct_keys
    simpa [List.Nodup] using hdistinct
  have hperm : (g.edges.map Edge.pair).Perm g.relations.keys := by
    rw [List.perm_ext_iff_of_nodup hg.nodup_pairs_edges hnodup]
    intro p
    rw [Std.HashMap.mem_keys, Std.HashMap.mem_iff_isSome_getElem?, List.mem_map, Option.isSome_iff_exists]
    constructor
    · rintro ⟨e, he, rfl⟩
      exact ⟨_, hg.mem_edges_iff.1 he⟩
    · rintro ⟨r, hr⟩
      exact ⟨⟨p, r⟩, hg.mem_edges_iff.2 hr, rfl⟩
  rw [← Std.HashMap.length_keys, ← hperm.length_eq, List.length_map]

theorem WellFormed.declared_closeStats (hg : g.WellFormed) (hplain : g.Plain) (writes : List Write) :
    (g.closeStats writes).declared = g.relations.size := by
  have hall : ∀ e ∈ g.edges, (!e.relation.derived) = true := by
    intro e he
    rw [hplain _ _ (hg.mem_edges_iff.1 he)]
    rfl
  rw [← hg.length_edges]
  exact List.countP_eq_length.2 hall

/-! ### Writes of a closure -/

private theorem size_relax (s : Closing) (p : Pair) (a : Kind) :
    (relax s p a).relations.size + s.log.countP (·.fresh) =
      s.relations.size + (relax s p a).log.countP (·.fresh) := by
  unfold relax
  split
  next hnone =>
    have hnew : p ∉ s.relations := by
      rw [Std.HashMap.mem_iff_isSome_getElem?, hnone]
      simp
    simp only [Std.HashMap.size_insert, hnew, if_false, List.countP_cons, if_true]
    omega
  next r hr =>
    have hold : p ∈ s.relations := by
      rw [Std.HashMap.mem_iff_isSome_getElem?, hr]
      rfl
    split
    · simp [Std.HashMap.size_insert, hold]
    · rfl

/-- A closure adds as many relations as it writes first ones. -/
theorem size_close (g : Graph) : g.close.1.relations.size = g.relations.size + g.close.2.countP (·.fresh) := by
  have hbalance := foldl_relaxThrough_induction
    (P := fun s => s.relations.size = g.relations.size + s.log.countP (·.fresh))
    (fun s p a hs => by have hstep := size_relax s p a; omega) (s := ⟨g.relations, []⟩) rfl g.sortedNodes g.sortedNodes
  rw [close, List.countP_reverse]
  exact hbalance

/-- Every declaration that stands below a better kind has a write that is not the first one of its pair. -/
def Accounted (s : Closing) : Prop :=
  ∀ p r, s.relations[p]? = some r → r.declared.isSome → p ∈ (s.log.filter (!·.fresh)).map Write.pair

private theorem Accounted.relax {s : Closing} (h : Accounted s) (p : Pair) (a : Kind) : Accounted (relax s p a) := by
  unfold Graph.relax
  split
  next hnone =>
    intro q r hr hdeclared
    simp only [Std.HashMap.getElem?_insert, beq_iff_eq] at hr
    split at hr
    · -- a derived relation has no declaration below it
      cases hr
      cases hdeclared
    · exact h q r hr hdeclared
  next held hheld =>
    split
    next hbetter =>
      intro q r hr hdeclared
      simp only [Std.HashMap.getElem?_insert, beq_iff_eq] at hr
      split at hr
      next hpq =>
        -- the write that improves a pair is logged with it
        simp [hpq]
      next => exact List.mem_cons_of_mem _ (h q r hr hdeclared)
    next => exact h

private theorem Plain.accounted_close (hplain : g.Plain) {r : Relation} (hr : g.close.1.lookup? p = some r)
    (hdeclared : r.declared.isSome) : p ∈ (g.close.2.filter (!·.fresh)).map Write.pair := by
  have hstart : Accounted ⟨g.relations, []⟩ := by
    intro q r hr hdeclared
    rw [hplain q r hr] at hdeclared
    cases hdeclared
  have hend := foldl_relaxThrough_induction (fun _ p a hs => hs.relax p a) hstart g.sortedNodes g.sortedNodes
  rw [close, List.filter_reverse, List.map_reverse, List.mem_reverse]
  exact hend p r hr hdeclared

/-! ### What a closure leaves -/

theorem WellFormed.declared_add_derived (hg : g.WellFormed) (hplain : g.Plain) :
    g.propagate.2.declared + g.propagate.2.derived = g.propagate.1.edges.length := by
  have hdeclared : g.propagate.2.declared = g.relations.size := hg.declared_closeStats hplain _
  rw [hg.propagate.length_edges, hdeclared]
  exact (size_close g).symm

private theorem WellFormed.nodup_improved (hg : g.WellFormed) :
    ((g.edges.filter (·.relation.declared.isSome)).map Edge.pair).Nodup :=
  hg.nodup_pairs_edges.sublist (List.filter_sublist.map _)

private theorem WellFormed.card_improvedPairs (hg : g.WellFormed) :
    g.improvedPairs.card = g.edges.countP (·.relation.declared.isSome) := by
  rw [improvedPairs, List.toFinset_card_of_nodup hg.nodup_improved, List.length_map, List.countP_eq_length_filter]

/-- The registrations of a graph are its relations and the declarations below better kinds. -/
theorem WellFormed.length_registrations_eq (hg : g.WellFormed) :
    g.registrations.length = (CompatTable.ofRecords g.registrations).size + g.improvedPairs.card := by
  rw [length_registrations, hg.size_registrations, hg.card_improvedPairs]

/-- A declaration that was improved took one write at least, whose pair is its own. -/
theorem WellFormed.card_improvedPairs_le (hg : g.WellFormed) (hplain : g.Plain) :
    g.propagate.1.improvedPairs.card ≤ g.propagate.2.improved := by
  have hsub : (g.propagate.1.edges.filter (·.relation.declared.isSome)).map Edge.pair ⊆
      (g.close.2.filter (!·.fresh)).map Write.pair := by
    intro p hp
    obtain ⟨e, he, rfl⟩ := List.mem_map.1 hp
    obtain ⟨he, hdeclared⟩ := List.mem_filter.1 he
    exact hplain.accounted_close (hg.propagate.mem_edges_iff.1 he) hdeclared
  have hle := (List.subperm_of_subset hg.propagate.nodup_improved hsub).length_le
  rw [List.length_map, List.length_map, ← List.countP_eq_length_filter, ← List.countP_eq_length_filter] at hle
  rw [hg.propagate.card_improvedPairs]
  exact hle

private theorem WellFormed.mem_improvedPairs_iff (hg : g.WellFormed) :
    p ∈ g.improvedPairs ↔ ∃ r, g.lookup? p = some r ∧ r.declared.isSome := by
  rw [improvedPairs, List.mem_toFinset, List.mem_map]
  constructor
  · rintro ⟨e, he, rfl⟩
    obtain ⟨he, hdeclared⟩ := List.mem_filter.1 he
    exact ⟨e.relation, hg.mem_edges_iff.1 he, hdeclared⟩
  · rintro ⟨r, hr, hdeclared⟩
    exact ⟨⟨p, r⟩, List.mem_filter.2 ⟨hg.mem_edges_iff.2 hr, hdeclared⟩, rfl⟩

private theorem Plain.remembers (hplain : g.Plain) (p : Pair) : Remembers (g.kind? p) (g.lookup? p) := by
  rw [kind?]
  cases hr : g.lookup? p with
  | none => exact .apart
  | some r =>
    rw [hplain p r hr]
    exact .declared r.kind

private theorem Remembers.isSome_declared_iff {last : Option Kind} {r : Relation} (h : Remembers last (some r)) :
    r.declared.isSome ↔ ∃ k, last = some k ∧ r.kind.code < k.code := by
  cases h with
  | derived k => simp
  | declared k => simp
  | improved hlt => simp [hlt]

theorem WellFormed.ne_of_kind? (hg : g.WellFormed) (hk : g.kind? p = some k) : p.source ≠ p.target := by
  obtain ⟨r, hr, -⟩ := Option.map_eq_some_iff.1 hk
  exact hg.ne_of_lookup? hr

/-- Where a chain leads, a closure holds the best one. -/
theorem WellFormed.exists_best_of_chain (hg : g.WellFormed) (hne : p.source ≠ p.target) {ks : List Kind}
    (hks : Chain g.kind? p.source p.target ks) :
    ∃ r, g.propagate.1.lookup? p = some r ∧ Best g.kind? p.source p.target r.kind := by
  obtain ⟨r, hr⟩ := Option.isSome_iff_exists.1 ((hg.isSome_propagate_iff hne).2 ⟨ks, hks⟩)
  exact ⟨r, hr, hg.best_propagate hne hr⟩

/-- A closure improves the declarations of those pairs that a chain serves better. -/
theorem WellFormed.mem_improvedPairs (hg : g.WellFormed) (hplain : g.Plain) :
    p ∈ g.propagate.1.improvedPairs ↔ Bettered g.kind? p := by
  have hremembers := hg.remembers_propagate (hplain.remembers p)
  rw [hg.propagate.mem_improvedPairs_iff]
  constructor
  · rintro ⟨r, hr, hdeclared⟩
    rw [hr] at hremembers
    obtain ⟨k, hk, hlt⟩ := hremembers.isSome_declared_iff.1 hdeclared
    exact ⟨k, r.kind, hk, hg.best_propagate (hg.propagate.ne_of_lookup? hr) hr, hlt⟩
  · rintro ⟨k, best, hk, hbest, hlt⟩
    -- the declaration is a chain by itself
    obtain ⟨r, hr, hbest'⟩ := hg.exists_best_of_chain (hg.ne_of_kind? hk) (.single hk)
    have hkind : r.kind = best := hbest'.unique hbest
    rw [hr] at hremembers
    exact ⟨r, hr, hremembers.isSome_declared_iff.2 ⟨k, hk, hkind ▸ hlt⟩⟩

end Graph

end Coercion
