import Coercion.Proofs.CompatTable.Statistics
import Coercion.Proofs.Graph.Balance
import Coercion.Proofs.Universe.Validity

/-!
# What becomes of the rules of a table

Every direction of an accepted rule becomes a relation of the graph or replaces one, which leaves a warning behind
(`Registry.size_declareRules`), and its types become the types of the graph (`Table.Accepted.mem_nodes_graph`).  The
closure adds the derived relations to the declared ones, and the manager of the universe has one live record for each.
Below them it has the declarations that a chain of other declarations betters, one for each such pair.

So the figures that are kept while a table is declared, while its graph is closed and while its manager is filled
balance (`Universe.build_conserves_rules`).
-/

namespace Coercion

/-! ### Directions and warnings -/

namespace Graph

variable {g : Graph} {p : Pair} {k : Kind}

private theorem Plain.declareAll (hg : g.Plain) (rs : List Record) : (g.declareAll rs).Plain :=
  List.foldlRecOn rs _ hg fun _ hg r _ => hg.perform_insert r.pair r.kind

/-- A direction that is declared makes a relation or a warning. -/
private theorem Plain.size_declare (hg : g.Plain) (subject : String) (h : refusal? p k = none) :
    (g.declare subject p k).1.relations.size + (g.declare subject p k).2.countP (·.code = .shadowedRule) =
      g.relations.size + 1 := by
  have hsize := hg.size_perform_insert h
  obtain ⟨g', hg'⟩ := exists_insert_eq_ok g h
  have hwarnings : (g.declare subject p k).2.countP (·.code = .shadowedRule) = if g.isDeclared p then 1 else 0 := by
    unfold declare
    rw [hg']
    cases g.isDeclared p with
    | true => rfl
    | false => rfl
  rw [declare_fst, hwarnings]
  exact hsize

private theorem WellFormed.mem_nodes_declareAll (hg : g.WellFormed) {rs : List Record}
    (hrs : ∀ r ∈ rs, refusal? r.pair r.kind = none) {x : TypeId} :
    x ∈ (g.declareAll rs).nodes ↔ (∃ r ∈ rs, x = r.pair.target ∨ x = r.pair.source) ∨ x ∈ g.nodes := by
  induction rs generalizing g with
  | nil => simp [declareAll]
  | cons r rs ih =>
    obtain ⟨hr, hrest⟩ := List.forall_mem_cons.1 hrs
    have hcons : g.declareAll (r :: rs) = (g.perform (.insert r.pair r.kind)).declareAll rs := rfl
    rw [hcons, ih (hg.perform _) hrest, hg.mem_nodes_perform_insert, List.exists_mem_cons_iff]
    simp only [hr, true_and]
    exact or_left_comm.trans or_assoc.symm

end Graph

private theorem Kind.pair_of_mem_record {text : String} {p : Pair} {q : Record} (h : q ∈ Kind.record text p) :
    q.pair = p := by
  unfold Kind.record at h
  split at h
  · rw [List.mem_singleton.1 h]
  · cases h

namespace Registry

variable {r : Registry} {rule : Rule} {g : Graph}

private theorem Accepts.plain_declareRule (h : r.Accepts rule) (hg : g.Plain) (i : Nat) :
    (r.declareRule i rule g).1.Plain := by
  rw [(h.declareRule i g).1]
  exact hg.declareAll _

/-- An accepted rule has one direction, and another one if it has a way back. -/
private theorem Accepts.size_declareRule (h : r.Accepts rule) (hg : g.Plain) (i : Nat) :
    (r.declareRule i rule g).1.relations.size + (r.declareRule i rule g).2.countP (·.code = .shadowedRule) =
      g.relations.size + 1 + if rule.reverse ≠ "" then 1 else 0 := by
  obtain ⟨p, k, hp, hk, hforth, hreverse⟩ := h
  have hone := hg.size_declare (rule.subject i) hforth
  by_cases hrev : rule.reverse = ""
  · simp only [Registry.declareRule, hp, hk, hrev, if_true, ne_eq, not_true_eq_false, if_false]
    exact hone
  · obtain ⟨k', hk', hback⟩ := hreverse hrev
    have hplain : (g.declare (rule.subject i) p k).1.Plain := by
      rw [Graph.declare_fst]
      exact hg.perform_insert p k
    have htwo := hplain.size_declare (rule.subject i ++ " (reverse)") hback
    simp only [Registry.declareRule, hp, hk, hk', hrev, if_false, ne_eq, not_false_eq_true, if_true,
      List.countP_append]
    omega

theorem size_declareRules {rules : List Rule} (h : ∀ rule ∈ rules, r.Accepts rule) (hg : g.Plain) (i : Nat) :
    (r.declareRules i rules g).1.relations.size + (r.declareRules i rules g).2.countP (·.code = .shadowedRule) =
      g.relations.size + (rules.length + rules.countP (·.reverse ≠ "")) := by
  induction rules generalizing i g with
  | nil => rfl
  | cons rule rules ih =>
    obtain ⟨hrule, hrules⟩ := List.forall_mem_cons.1 h
    have hhere := hrule.size_declareRule hg i
    have hrest := ih hrules (hrule.plain_declareRule hg i) (i + 1)
    simp only [declareRules, List.countP_append, List.length_cons, List.countP_cons, decide_eq_true_eq]
    omega

/-- The directions of an accepted rule are between the types that it names. -/
private theorem Accepts.exists_direction_iff (h : r.Accepts rule) {x : TypeId} :
    (∃ q ∈ r.directions rule, x = q.pair.target ∨ x = q.pair.source) ↔
      r.lookup rule.source = .ok x ∨ r.lookup rule.target = .ok x := by
  obtain ⟨p, k, hp, hk, -, -⟩ := h
  obtain ⟨hs, ht⟩ := pairOf_eq_ok hp
  rw [directions_eq hp hk, hs, ht, Except.ok.injEq, Except.ok.injEq]
  constructor
  · rintro ⟨q, hq, hx⟩
    have hpair : q.pair = p ∨ q.pair = p.reverse := by
      rcases List.mem_cons.1 hq with rfl | hq
      · exact Or.inl rfl
      · split at hq
        · cases hq
        · exact Or.inr (Kind.pair_of_mem_record hq)
    rcases hpair with hpair | hpair <;> rw [hpair] at hx
    · exact hx.symm.imp Eq.symm Eq.symm
    · exact hx.imp Eq.symm Eq.symm
  · intro hx
    exact ⟨⟨p, k⟩, List.mem_cons_self, hx.symm.imp Eq.symm Eq.symm⟩

end Registry

/-! ### Accepted tables -/

/-- A type occurs in some rule of the table. -/
def Table.Occurs (t : Table) (x : TypeId) : Prop :=
  ∃ rule ∈ t.rules, t.declare.registry.lookup rule.source = .ok x ∨ t.declare.registry.lookup rule.target = .ok x

namespace Table.Accepted

variable {t : Table}

private theorem plain_graph (h : t.Accepted) : t.declare.graph.Plain := by
  rw [h.graph_eq]
  exact Graph.plain_empty.declareAll _

private theorem size_graph (h : t.Accepted) :
    t.declare.graph.relations.size + t.declare.problems.countP (·.code = .shadowedRule) =
      t.rules.length + t.rules.countP (·.reverse ≠ "") := by
  have hsize := Registry.size_declareRules h.rules Graph.plain_empty 0
  have hempty : Graph.empty.relations.size = 0 := Std.HashMap.size_empty
  rw [hempty, Nat.zero_add, ← h.problems_eq] at hsize
  exact hsize

theorem mem_nodes_graph (h : t.Accepted) {x : TypeId} : x ∈ t.declare.graph.nodes ↔ t.Occurs x := by
  have hdirs : ∀ q ∈ t.directions, Graph.refusal? q.pair q.kind = none :=
    (Registry.declareRules_of_accepts h.rules 0 .empty).2.2
  have hempty : x ∉ Graph.empty.nodes := List.not_mem_nil
  rw [h.graph_eq, Graph.wellFormed_empty.mem_nodes_declareAll hdirs, or_iff_left hempty]
  constructor
  · rintro ⟨q, hq, hx⟩
    obtain ⟨rule, hrule, hq⟩ := List.mem_flatMap.1 hq
    exact ⟨rule, hrule, (h.rules rule hrule).exists_direction_iff.1 ⟨q, hq, hx⟩⟩
  · rintro ⟨rule, hrule, hx⟩
    obtain ⟨q, hq, hx⟩ := (h.rules rule hrule).exists_direction_iff.2 hx
    exact ⟨q, List.mem_flatMap.2 ⟨rule, hrule, hq⟩, hx⟩

/-- One chain at a lesser kind than the declaration betters it. -/
private theorem bettered_of_chain (h : t.Accepted) {p : Pair} {k : Kind} {ks : List Kind}
    (hk : t.declaredKind? p = some k)
    (hks : Chain t.declaredKind? p.source p.target ks) (hlt : (Kind.worst ks).code < k.code) :
    Bettered t.declaredKind? p := by
  have hg := h.wellFormed_graph
  rw [← h.kind?_graph] at hk hks ⊢
  obtain ⟨r, -, hbest⟩ := hg.exists_best_of_chain (hg.ne_of_kind? hk) hks
  exact ⟨k, r.kind, hk, hbest, Nat.lt_of_le_of_lt (hbest.2 ks hks) hlt⟩

end Table.Accepted

/-! ### Building -/

namespace Universe

open Registry (declareTypes declare empty size declareAliases pairOf)

variable {t : Table} {o : Options} {j : Trace.Journal} {current : UInt64}

private theorem bag_buildTraced (t : Table) (o : Options) (j : Trace.Journal) (current : UInt64) :
    (buildTraced t o j current).bag = collect (.ofCapacity o.capacity) t.declare.problems := by
  simp only [buildTraced]
  split
  · rfl
  · split
    · rfl
    · rfl

private theorem stats_of_result_eq_ok {u : Universe} (hu : (buildTraced t o j current).result = .ok u)
    (ho : o.noPropagate = false) : u.stats = t.declare.graph.propagate.2 := by
  have hstats (g : Graph) (j : Trace.Journal) (current : UInt64) :
      (closeDeclared o g j current).2.1 = g.propagate.2 := by
    rw [closeDeclared, ho]
    rfl
  simp only [buildTraced] at hu
  split at hu
  · cases hu
  · split at hu
    · cases hu
    · cases hu
      exact hstats _ _ _

/-- All problems of a table that fit are in its bag. -/
private theorem toList_bag_of_room (hroom : t.declare.problems.length ≤ o.room) (j : Trace.Journal) (current : UInt64) :
    (buildTraced t o j current).bag.items.toList = t.declare.problems := by
  have hitems := toList_collect (.ofCapacity o.capacity) t.declare.problems
  rw [toNat_capacity_ofCapacity] at hitems
  rw [bag_buildTraced, hitems]
  exact List.take_of_length_le hroom

/-- The rules of an accepted table are conserved when its universe is built, closed and with room for all warnings:
each of their directions is declared or leaves a warning; the declared and the derived conversions are the live records
of the manager; what these shadow are the declarations that a chain betters, no more than the improvements of the
closure; and the types that were closed over are those that occur in rules. -/
theorem build_conserves_rules (t : Table) (ht : t.Accepted) (o : Options) (ho : o.noPropagate = false)
    (hroom : t.declare.problems.length ≤ o.room) (j : Trace.Journal) (current : UInt64) :
    ∃ (u : Universe) (bettered : Finset Pair) (occurring : Finset TypeId),
      (buildTraced t o j current).result = .ok u ∧
      (∀ p, p ∈ bettered ↔ Bettered t.declaredKind? p) ∧
      (∀ x, x ∈ occurring ↔ t.Occurs x) ∧
      u.stats.declared + (buildTraced t o j current).bag.items.toList.countP (·.code = .shadowedRule) =
        t.rules.length + t.rules.countP (·.reverse ≠ "") ∧
      u.stats.declared + u.stats.derived = u.manager.table.size ∧
      u.manager.table.size = u.manager.table.records.length ∧
      (u.manager.table.bins.toList.map List.length).sum = u.manager.table.size + bettered.card ∧
      bettered.card ≤ u.stats.improved ∧
      (∀ s, u.manager.table.tally = .ok s →
        s.live = UInt32.ofNat u.manager.table.size ∧ s.shadowed = UInt32.ofNat bettered.card ∧
          s.shadowed.toNat ≤ u.stats.improved) ∧
      (u.manager.table.size + bettered.card < 2 ^ 32 →
        ∃ s, u.manager.table.tally = .ok s ∧ s.live.toNat = u.manager.table.size ∧
          s.shadowed.toNat = bettered.card) ∧
      u.stats.nodes = occurring.card := by
  have hg := ht.wellFormed_graph
  have hplain := ht.plain_graph
  obtain ⟨u, hu, -⟩ := exists_result_eq_ok ht o j current
  have hstats := stats_of_result_eq_ok hu ho
  have hclosed : closedGraph o t.declare.graph = t.declare.graph.propagate.1 := by simp [closedGraph, ho]
  have htable : u.manager.table = .ofRecords t.declare.graph.propagate.1.registrations :=
    hclosed ▸ (of_result_eq_ok hu).2
  have hsize : u.manager.table.size = t.declare.graph.propagate.1.edges.length := by
    rw [htable, hg.propagate.size_registrations]
  have hlength := hg.propagate.length_registrations_eq
  have hle := hg.card_improvedPairs_le hplain
  have hdeclared : u.stats.declared = t.declare.graph.relations.size := by
    rw [hstats]
    exact hg.declared_closeStats hplain _
  refine ⟨u, t.declare.graph.propagate.1.improvedPairs, t.declare.graph.nodes.toFinset, hu, ?_, ?_, ?_, ?_, ?_, ?_, ?_,
    ?_, ?_, ?_⟩
  · intro p
    rw [hg.mem_improvedPairs hplain, ht.kind?_graph]
  · intro x
    rw [List.mem_toFinset, ht.mem_nodes_graph]
  · rw [toList_bag_of_room hroom, hdeclared]
    exact ht.size_graph
  · rw [hstats, hsize]
    exact hg.declared_add_derived hplain
  · exact CompatTable.size_eq_length_records _
  · rw [htable, CompatTable.sum_length_bins, hlength]
  · rw [hstats]
    exact hle
  · intro s hs
    rw [htable] at hs ⊢
    obtain ⟨hlive, hshadowed, -⟩ := CompatTable.words_of_tally hlength hs
    refine ⟨hlive, hshadowed, ?_⟩
    rw [hshadowed, hstats, UInt32.toNat_ofNat']
    exact (Nat.mod_le _ _).trans hle
  · intro hfits
    rw [htable] at hfits ⊢
    obtain ⟨s, hs, hlive, hshadowed, -⟩ := CompatTable.exists_tally_eq_ok hlength hfits
    exact ⟨s, hs, hlive, hshadowed⟩
  · rw [hstats, List.toFinset_card_of_nodup hg.nodup]
    rfl

/-! ### A rule overridden and a rule bettered -/

/-- The second rule overrides the first, and the fourth is bettered by the two before it. -/
def overridden : Table where
  types? := some ["a", "b", "c"]
  rules? := some [⟨"a", "b", "safe", ""⟩, ⟨"a", "b", "promote", "unsafe"⟩, ⟨"b", "c", "promote", "unsafe"⟩,
    ⟨"a", "c", "unsafe", ""⟩]

private theorem rules_overridden : overridden.rules = [⟨"a", "b", "safe", ""⟩, ⟨"a", "b", "promote", "unsafe"⟩,
    ⟨"b", "c", "promote", "unsafe"⟩, ⟨"a", "c", "unsafe", ""⟩] := rfl

private theorem lookup_overridden :
    overridden.declare.registry.lookup "a" = .ok ⟨0⟩ ∧ overridden.declare.registry.lookup "b" = .ok ⟨1⟩ ∧
      overridden.declare.registry.lookup "c" = .ok ⟨2⟩ := by
  obtain ⟨ha, hb, hc, -⟩ := normalize_letters
  simp [Registry.lookup_eq_ok, overridden, Table.types, Table.aliases, Table.declare, declareTypes, declare, empty,
    size, TypeId.ofInt, declareAliases, Aliasing.run, ha, hb, hc, Std.HashMap.getElem_insert]

private theorem accepted_overridden : overridden.Accepted := by
  obtain ⟨ha, hb, hc, -⟩ := normalize_letters
  obtain ⟨hpromote, hsafe, hlossy⟩ := parse_kinds
  obtain ⟨hta, htb, htc⟩ := lookup_overridden
  refine ⟨?_, ?_, ?_⟩
  · simp [overridden, Table.types, declareTypes, declare, empty, size, TypeId.ofInt, ha, hb, hc]
  · simp [overridden, Table.aliases, declareAliases, Aliasing.run]
  · intro rule hrule
    simp only [rules_overridden, List.mem_cons, List.not_mem_nil, or_false] at hrule
    rcases hrule with rfl | rfl | rfl | rfl
    · exact ⟨⟨⟨0⟩, ⟨1⟩⟩, .safe, by simp [pairOf, hta, htb], hsafe, by decide, by simp⟩
    · exact ⟨⟨⟨0⟩, ⟨1⟩⟩, .promote, by simp [pairOf, hta, htb], hpromote, by decide,
        fun _ => ⟨.lossy, hlossy, by decide⟩⟩
    · exact ⟨⟨⟨1⟩, ⟨2⟩⟩, .promote, by simp [pairOf, htb, htc], hpromote, by decide,
        fun _ => ⟨.lossy, hlossy, by decide⟩⟩
    · exact ⟨⟨⟨0⟩, ⟨2⟩⟩, .lossy, by simp [pairOf, hta, htc], hlossy, by decide, by simp⟩

private theorem problems_overridden : overridden.declare.problems.length = 1 := by
  obtain ⟨hpromote, hsafe, hlossy⟩ := parse_kinds
  obtain ⟨hta, htb, htc⟩ := lookup_overridden
  rw [accepted_overridden.problems_eq, rules_overridden]
  simp [Registry.declareRules, Registry.declareRule, pairOf, hta, htb, htc, hpromote, hsafe, hlossy,
    Graph.declare, Graph.insert, Graph.refusal?, Graph.isDeclared, Graph.lookup?, Graph.empty, Kind.isConversion,
    TypeId.valid, Pair.reverse]

private theorem bettered_overridden : Bettered overridden.declaredKind? ⟨⟨0⟩, ⟨2⟩⟩ := by
  obtain ⟨hpromote, hsafe, hlossy⟩ := parse_kinds
  obtain ⟨hta, htb, htc⟩ := lookup_overridden
  have hdirections : overridden.directions =
      [⟨⟨⟨0⟩, ⟨1⟩⟩, .safe⟩, ⟨⟨⟨0⟩, ⟨1⟩⟩, .promote⟩, ⟨⟨⟨1⟩, ⟨0⟩⟩, .lossy⟩, ⟨⟨⟨1⟩, ⟨2⟩⟩, .promote⟩, ⟨⟨⟨2⟩, ⟨1⟩⟩, .lossy⟩,
        ⟨⟨⟨0⟩, ⟨2⟩⟩, .lossy⟩] := by
    show overridden.rules.flatMap overridden.declare.registry.directions = _
    rw [rules_overridden]
    simp [Registry.directions, Kind.record, hta, htb, htc, hpromote, hsafe, hlossy]
  have hkind (p : Pair) : overridden.declaredKind? p = Record.last? _ p := congrArg (Record.last? · p) hdirections
  have hchain : Chain overridden.declaredKind? ⟨0⟩ ⟨2⟩ [.promote, .promote] := by
    refine .cons (m := ⟨1⟩) ?_ (.single ?_) <;> rw [hkind] <;> decide
  refine accepted_overridden.bettered_of_chain (k := .lossy) ?_ hchain (by decide)
  rw [hkind]
  decide

/-- Of six directions one is overridden and one bettered. -/
theorem build_overridden :
    overridden.Accepted ∧ overridden.declare.problems.length ≤ Options.room {} ∧
      ∃ u, (buildTraced overridden {} .silent 0).result = .ok u ∧
        u.stats.declared + (buildTraced overridden {} .silent 0).bag.items.toList.countP (·.code = .shadowedRule) = 6 ∧
        u.stats.declared + u.stats.derived = u.manager.table.records.length ∧ 1 ≤ u.stats.improved := by
  have hroom : overridden.declare.problems.length ≤ Options.room {} := by
    rw [problems_overridden]
    decide
  obtain ⟨u, bettered, occurring, hu, hbettered, -, hdeclared, hlive, hrecords, -, hle, -, -, -⟩ :=
    build_conserves_rules overridden accepted_overridden {} rfl hroom .silent 0
  refine ⟨accepted_overridden, hroom, u, hu, hdeclared, hlive.trans hrecords, ?_⟩
  exact (Finset.card_pos.2 ⟨_, (hbettered _).2 bettered_overridden⟩).trans_le hle

end Universe

end Coercion
