import Coercion.Proofs.Universe.Acceptance
import Coercion.Universe.Build

/-!
# What a built universe answers

A table whose declarations are accepted always becomes a universe, however its bag is sized and whatever is traced.
Asked about two names of different types, the universe answers with the least of the worst kinds over all chains of
declared conversions between the types, and with no match where no chain exists.  A universe that was not closed
answers with the declared kind itself (`Universe.check_eq_least_worst_kind`).
-/

namespace Coercion

/-! ### The bag of an accepted table -/

private theorem Bag.hasErrors_add {b : Bag} {d : Diagnostic} (hb : b.hasErrors = false)
    (hd : d.severity.isError = false) :
    (b.add d).hasErrors = false := by
  unfold Bag.add
  split
  · simpa [Bag.hasErrors, hd] using hb
  · exact hb

private theorem Bag.hasErrors_ofCapacity (n : Int) : (Bag.ofCapacity n).hasErrors = false := by
  simp [Bag.hasErrors, Bag.ofCapacity]

namespace Universe

open Registry (normalize lookup_eq_ok declareTypes declare empty size declareAliases addAlias pairOf)

private theorem hasErrors_collect {b : Bag} (hb : b.hasErrors = false) {problems : List Diagnostic}
    (h : ∀ d ∈ problems, d.severity.isError = false) : (collect b problems).hasErrors = false := by
  unfold collect
  induction problems generalizing b with
  | nil => exact hb
  | cons d problems ih =>
    exact ih (Bag.hasErrors_add hb (h d List.mem_cons_self)) (fun d' hd' => h d' (List.mem_cons_of_mem _ hd'))

/-! ### Building -/

/-- The graph whose relations are registered. -/
def closedGraph (o : Options) (g : Graph) : Graph := if o.noPropagate then g else g.propagate.1

/-- The trace does not change what a closure does. -/
private theorem closeDeclared_fst (o : Options) (g : Graph) (j : Trace.Journal) (current : UInt64) :
    (closeDeclared o g j current).1 = closedGraph o g := by
  unfold closeDeclared closedGraph
  split <;> rfl

theorem wellFormed_closedGraph {o : Options} {g : Graph} (hg : g.WellFormed) : (closedGraph o g).WellFormed := by
  unfold closedGraph
  split
  · exact hg
  · exact hg.propagate

/-- A table whose bag holds no error is built, and its manager holds the registrations of the graph of the table. -/
theorem exists_result_eq_ok_of_bag {t : Table} (hg : t.declare.graph.WellFormed) {o : Options}
    (hbag : (collect (.ofCapacity o.capacity) t.declare.problems).hasErrors = false) (j : Trace.Journal)
    (current : UInt64) :
    ∃ u, (buildTraced t o j current).result = .ok u ∧ u.registry = t.declare.registry ∧
      u.manager.table = .ofRecords (closedGraph o t.declare.graph).registrations := by
  have hm := (wellFormed_closedGraph (o := o) hg).apply_eq_ok
  rw [← closeDeclared_fst o t.declare.graph (j.startSpan .pass ("universe:" ++ t.name) current).2.2
    (j.startSpan .pass ("universe:" ++ t.name) current).2.1] at hm ⊢
  simp only [buildTraced, hbag, Bool.false_eq_true, ↓reduceIte, hm]
  refine ⟨_, rfl, rfl, ?_⟩
  split
  · rfl
  · rfl

/-- An accepted table is built, and its manager knows what the graph of the table holds. -/
theorem exists_result_eq_ok {t : Table} (ht : t.Accepted) (o : Options) (j : Trace.Journal) (current : UInt64) :
    ∃ u, (buildTraced t o j current).result = .ok u ∧ u.registry = t.declare.registry ∧
      ∀ p, u.manager.kindOf p =
        if p.source = p.target then .exact else ((closedGraph o t.declare.graph).kind? p).getD .noMatch := by
  obtain ⟨u, hu, hregistry, htable⟩ := exists_result_eq_ok_of_bag ht.wellFormed_graph
    (hasErrors_collect (Bag.hasErrors_ofCapacity _) ht.not_isError) j current
  exact ⟨u, hu, hregistry, (wellFormed_closedGraph ht.wellFormed_graph).kindOf_registrations htable⟩

theorem check_eq_ok {u : Universe} (hu : u.registry.WellFormed) {a b : String} {x y : TypeId}
    (ha : u.lookup a = .ok x) (hb : u.lookup b = .ok y) : u.check a b = .ok (.ok (u.manager.kindOf ⟨x, y⟩)) := by
  unfold check
  rw [ha, hb]
  have hcompatible := u.manager.compatible_eq_ok (p := ⟨x, y⟩) (hu.valid_of_lookup ha) (hu.valid_of_lookup hb)
  show Except.ok (u.manager.compatible ⟨x, y⟩) = _
  rw [hcompatible]

/-- The answer for two names of an accepted table: exact for one type, otherwise the least worst kind of a chain of
declared conversions, or the declared kind alone if the graph is not closed. -/
theorem check_eq_least_worst_kind (t : Table) (ht : t.Accepted) (o : Options) (j : Trace.Journal) (current : UInt64) :
    ∃ u, (buildTraced t o j current).result = .ok u ∧ u.registry = t.declare.registry ∧
      ∀ a b x y, u.lookup a = .ok x → u.lookup b = .ok y →
        ∃ k, u.check a b = .ok (.ok k) ∧
          (x = y → k = .exact) ∧
          (x ≠ y → o.noPropagate = false →
            ((∃ ks, Chain t.declaredKind? x y ks) → Best t.declaredKind? x y k) ∧
            ((¬ ∃ ks, Chain t.declaredKind? x y ks) → k = .noMatch)) ∧
          (x ≠ y → o.noPropagate = true → k = (t.declaredKind? ⟨x, y⟩).getD .noMatch) := by
  obtain ⟨u, hu, hreg, hkind⟩ := exists_result_eq_ok ht o j current
  refine ⟨u, hu, hreg, fun a b x y ha hb => ?_⟩
  refine ⟨_, check_eq_ok (hreg ▸ t.wellFormed_registry) ha hb, ?_, ?_, ?_⟩
  · rintro rfl
    rw [hkind, if_pos rfl]
  · intro hxy ho
    have hgraph : closedGraph o t.declare.graph = t.declare.graph.propagate.1 := by simp [closedGraph, ho]
    rw [hkind, if_neg hxy, hgraph, ← ht.kind?_graph, ← ht.wellFormed_graph.isSome_propagate_iff hxy]
    simp only [Graph.kind?]
    rcases hr : t.declare.graph.propagate.1.lookup? ⟨x, y⟩ with _ | r
    · simp
    · exact ⟨fun _ => ht.wellFormed_graph.best_propagate hxy hr, by simp⟩
  · intro hxy ho
    have hgraph : closedGraph o t.declare.graph = t.declare.graph := by simp [closedGraph, ho]
    rw [hkind, if_neg hxy, hgraph, ht.kind?_graph]

/-! ### Three types in a row -/

/-- The first of three types has an alias, under which it is widened to the second. -/
def rowOfThree : Table where
  types? := some ["a", "b", "c"]
  aliases? := some [("d", "a")]
  rules? := some [⟨"d", "b", "promote", "unsafe"⟩, ⟨"b", "c", "safe", ""⟩]

theorem normalize_letters :
    normalize "a" = "a" ∧ normalize "b" = "b" ∧ normalize "c" = "c" ∧ normalize "d" = "d" := by decide

theorem parse_kinds :
    Kind.parse "promote" = .ok .promote ∧ Kind.parse "safe" = .ok .safe ∧ Kind.parse "unsafe" = .ok .lossy :=
  ⟨rfl, rfl, rfl⟩

theorem lookup_rowOfThree :
    rowOfThree.declare.registry.lookup "d" = .ok ⟨0⟩ ∧ rowOfThree.declare.registry.lookup "b" = .ok ⟨1⟩ ∧
      rowOfThree.declare.registry.lookup "c" = .ok ⟨2⟩ := by
  obtain ⟨ha, hb, hc, hd⟩ := normalize_letters
  simp [lookup_eq_ok, rowOfThree, Table.types, Table.aliases, Table.declare, declareTypes, declare, empty, size,
    TypeId.ofInt, declareAliases, Aliasing.run, Aliasing.bind, addAlias, Aliasing.settle, ha, hb, hc, hd,
    Std.HashMap.getElem_insert]

theorem accepted_rowOfThree : rowOfThree.Accepted := by
  obtain ⟨ha, hb, hc, hd⟩ := normalize_letters
  obtain ⟨hpromote, hsafe, hlossy⟩ := parse_kinds
  obtain ⟨htd, htb, htc⟩ := lookup_rowOfThree
  refine ⟨?_, ?_, ?_⟩
  · simp [rowOfThree, Table.types, declareTypes, declare, empty, size, TypeId.ofInt, ha, hb, hc]
  · simp [rowOfThree, Table.types, Table.aliases, declareTypes, declare, empty, size, TypeId.ofInt, declareAliases,
      Aliasing.run, Aliasing.bind, addAlias, Aliasing.settle, ha, hb, hc, hd]
  · intro rule hrule
    rcases List.mem_cons.1 hrule with rfl | hrule
    · refine ⟨⟨⟨0⟩, ⟨1⟩⟩, .promote, ?_, hpromote, by decide, fun _ => ⟨.lossy, hlossy, by decide⟩⟩
      simp [pairOf, htd, htb]
    · rw [List.mem_singleton.1 hrule]
      refine ⟨⟨⟨1⟩, ⟨2⟩⟩, .safe, ?_, hsafe, by decide, by simp⟩
      simp [pairOf, htb, htc]

theorem chain_rowOfThree : Chain rowOfThree.declaredKind? ⟨0⟩ ⟨2⟩ [.promote, .safe] := by
  obtain ⟨hpromote, hsafe, hlossy⟩ := parse_kinds
  obtain ⟨htd, htb, htc⟩ := lookup_rowOfThree
  have hdirections : rowOfThree.directions =
      [⟨⟨⟨0⟩, ⟨1⟩⟩, .promote⟩, ⟨⟨⟨1⟩, ⟨0⟩⟩, .lossy⟩, ⟨⟨⟨1⟩, ⟨2⟩⟩, .safe⟩] := by
    show ([⟨"d", "b", "promote", "unsafe"⟩, ⟨"b", "c", "safe", ""⟩] : List Rule).flatMap
      rowOfThree.declare.registry.directions = _
    simp [Registry.directions, Kind.record, htd, htb, htc, hpromote, hsafe, hlossy]
  refine .cons (m := ⟨1⟩) ?_ (.single ?_) <;> rw [Table.declaredKind?, hdirections] <;> decide

/-- Asked under its alias, the first of three types converts to the third as well as its best chain does. -/
theorem check_rowOfThree :
    rowOfThree.Accepted ∧ ∃ u k, (buildTraced rowOfThree {} .silent 0).result = .ok u ∧
      u.check "d" "c" = .ok (.ok k) ∧ Best rowOfThree.declaredKind? ⟨0⟩ ⟨2⟩ k := by
  obtain ⟨u, hu, hreg, hcheck⟩ := check_eq_least_worst_kind rowOfThree accepted_rowOfThree {} .silent 0
  obtain ⟨htd, -, htc⟩ := lookup_rowOfThree
  rw [← hreg] at htd htc
  obtain ⟨k, hk, -, hclosed, -⟩ := hcheck "d" "c" ⟨0⟩ ⟨2⟩ htd htc
  exact ⟨accepted_rowOfThree, u, k, hu, hk, (hclosed (by decide) rfl).1 ⟨_, chain_rowOfThree⟩⟩

end Universe

end Coercion
