import Coercion.Listing
import Coercion.Proofs.Universe.Validity

/-!
# Listings tell what checks answer

A listing shows the live records of a universe under the names of their types; a check leads two names to their types
and asks the table.  The records of a universe are the relations of its graph (`mem_records_iff`), between types that
have names (`Table.mem_types_of_mem_nodes`), and a name leads back to its type (`Table.lookup_name`).

So a row can be read back as the pair of its record (`Lists`), and the two ways to ask about a pair agree
(`rows_agree_with_check`).
-/

namespace Coercion

open Listing (Row)

/-! ### Rows -/

namespace Listing

/-- A filter that keeps no row has the rows that it keeps, like any other. -/
theorem rowList_filter (d : Listing) {kinds : List Kind} (h : kinds ≠ []) :
    (d.filter kinds).rowList = d.rowList.filter fun row => kinds.contains row.kind := by
  have hkinds : kinds.isEmpty = false := List.isEmpty_eq_false_iff.2 h
  simp only [filter, hkinds, Bool.false_eq_true, ↓reduceIte]
  split
  · rename_i hnone
    exact (List.isEmpty_iff.1 hnone).symm
  · rfl

end Listing

private theorem Kind.name_of_isConversion {k : Kind} (h : k.isConversion) : k.name ∈ ["promote", "safe", "unsafe"] := by
  cases k with
  | promote => decide
  | safe => decide
  | lossy => decide
  | _ => cases h

theorem Table.lookup_name (t : Table) (hnames : ∀ name ∈ t.types, Text.Settled (Text.trim name)) {x : TypeId}
    (hx : x ∈ t.declare.registry.types) : t.declare.registry.lookup (t.declare.registry.name x) = .ok x := by
  obtain ⟨tried, htried⟩ := t.exists_registry_run
  rw [htried] at hx ⊢
  refine Registry.lookup_name_run (fun name hname => hnames name ?_) hx
  rcases List.mem_append.1 hname with hname | hname
  · obtain ⟨name', hname', heq⟩ := List.mem_map.1 hname
    cases heq
    exact hname'
  · obtain ⟨a, -, ha⟩ := List.mem_map.1 hname
    cases ha

namespace Universe

open Registry (declareTypes declare empty size declareAliases addAlias)

variable {t : Table} {o : Options} {j : Trace.Journal} {current : UInt64} {u : Universe} {row row' : Row} {p p' : Pair}

/-! ### Records -/

theorem mem_records_iff (hu : (buildTraced t o j current).result = .ok u) {r : Record} :
    r ∈ u.manager.table.records ↔
      ∃ rel, (closedGraph o t.declare.graph).lookup? r.pair = some rel ∧ rel.kind = r.kind := by
  have hg := wellFormed_closedGraph (o := o) t.wellFormed_graph
  rw [(of_result_eq_ok hu).2, CompatTable.mem_records, hg.last?_registrations, Graph.kind?, Option.map_eq_some_iff]

/-- The closure of a graph has no other types. -/
private theorem nodes_closedGraph (o : Options) (g : Graph) : (closedGraph o g).nodes = g.nodes := by
  unfold closedGraph
  split
  · rfl
  · rfl

private theorem mem_types_of_lookup? (hu : (buildTraced t o j current).result = .ok u) {rel : Relation}
    (hrel : (closedGraph o t.declare.graph).lookup? p = some rel) :
    p.source ∈ u.registry.types ∧ p.target ∈ u.registry.types := by
  obtain ⟨hsource, htarget⟩ := (wellFormed_closedGraph t.wellFormed_graph).inside _ _ hrel
  rw [nodes_closedGraph] at hsource htarget
  rw [(of_result_eq_ok hu).1]
  exact ⟨t.mem_types_of_mem_nodes _ hsource, t.mem_types_of_mem_nodes _ htarget⟩

/-! ### Reading rows back -/

/-- A row is about a pair: it shows the names of two declared types, and these names lead to the types. -/
structure Lists (u : Universe) (row : Row) (p : Pair) : Prop where
  declared : p.source ∈ u.registry.types ∧ p.target ∈ u.registry.types
  source_eq : row.source = u.registry.name p.source
  target_eq : row.target = u.registry.name p.target
  lookup_source : u.lookup row.source = .ok p.source
  lookup_target : u.lookup row.target = .ok p.target

private theorem Lists.unique (h : u.Lists row p) (h' : u.Lists row' p') (hsource : row.source = row'.source)
    (htarget : row.target = row'.target) : p = p' := by
  obtain ⟨x, y⟩ := p
  obtain ⟨x', y'⟩ := p'
  have hx := h.lookup_source
  have hy := h.lookup_target
  rw [hsource, h'.lookup_source] at hx
  rw [htarget, h'.lookup_target] at hy
  cases hx
  cases hy
  rfl

/-- The row of a record. -/
def rowOf (u : Universe) (r : Record) : Row := ⟨u.registry.name r.pair.source, u.registry.name r.pair.target, r.kind⟩

private theorem lists_rowOf (hu : (buildTraced t o j current).result = .ok u)
    (hnames : ∀ name ∈ t.types, Text.Settled (Text.trim name)) {r : Record}
    (hr : r.pair.source ∈ u.registry.types ∧ r.pair.target ∈ u.registry.types) : u.Lists (u.rowOf r) r.pair := by
  have hname : ∀ x ∈ u.registry.types, u.lookup (u.registry.name x) = .ok x := by
    unfold lookup
    rw [(of_result_eq_ok hu).1]
    exact fun x => t.lookup_name hnames
  exact ⟨hr, rfl, rfl, hname _ hr.1, hname _ hr.2⟩

private theorem wellFormed_registry (hu : (buildTraced t o j current).result = .ok u) : u.registry.WellFormed := by
  rw [(of_result_eq_ok hu).1]
  exact t.wellFormed_registry

/-- The row of a record is about its pair, and the check of the names in the row gives its kind, a conversion. -/
private theorem check_of_mem_records (hu : (buildTraced t o j current).result = .ok u)
    (hnames : ∀ name ∈ t.types, Text.Settled (Text.trim name)) {r : Record} (hr : r ∈ u.manager.table.records) :
    u.Lists (u.rowOf r) r.pair ∧ u.check (u.rowOf r).source (u.rowOf r).target = .ok (.ok r.kind) ∧
      r.kind.isConversion := by
  have hg := wellFormed_closedGraph (o := o) t.wellFormed_graph
  have htable := (of_result_eq_ok hu).2
  obtain ⟨rel, hrel, hkind⟩ := (mem_records_iff hu).1 hr
  have hlists : u.Lists (u.rowOf r) r.pair := lists_rowOf hu hnames (mem_types_of_lookup? hu hrel)
  refine ⟨hlists, ?_, hkind ▸ hg.conversions _ _ hrel⟩
  rw [check_eq_ok (wellFormed_registry hu) hlists.lookup_source hlists.lookup_target,
    hg.kindOf_of_lookup? htable hrel, hkind]

/-- What a check answers for two types, apart from no match, is the kind of a record. -/
private theorem mem_records_of_check (hu : (buildTraced t o j current).result = .ok u) {a b : String} {x y : TypeId}
    {k : Kind} (ha : u.lookup a = .ok x) (hb : u.lookup b = .ok y) (hxy : x ≠ y) (hcheck : u.check a b = .ok (.ok k))
    (hk : k ≠ .noMatch) : ⟨⟨x, y⟩, k⟩ ∈ u.manager.table.records := by
  have hg := wellFormed_closedGraph (o := o) t.wellFormed_graph
  have htable := (of_result_eq_ok hu).2
  rw [check_eq_ok (wellFormed_registry hu) ha hb] at hcheck
  have hkind : u.manager.kindOf ⟨x, y⟩ = k := by
    cases hcheck
    rfl
  obtain ⟨rel, hrel⟩ := hg.exists_lookup?_of_kindOf htable hxy (hkind ▸ hk)
  rw [hg.kindOf_of_lookup? htable hrel] at hkind
  exact (mem_records_iff hu).2 ⟨rel, hrel, hkind⟩

/-- The records of a universe stand in the order of their pairs. -/
private theorem pairwise_records (hu : (buildTraced t o j current).result = .ok u) :
    u.manager.table.records.Pairwise fun r r' => r.pair.rank < r'.pair.rank := by
  rw [(of_result_eq_ok hu).2]
  exact CompatTable.pairwise_records _

/-- Whether the check of the names of a row answers with one of some kinds. -/
def answersAmong (u : Universe) (kinds : List Kind) (row : Row) : Bool :=
  match u.check row.source row.target with
  | .ok (.ok k) => kinds.contains k
  | _ => false

/-- However a universe was built, its listing has no two rows with the same names, each row is about a pair of declared
types, and the rows stand in the order of these pairs.  The check of the names in a row gives the kind of the row, which
is a promotion, a safe or an unsafe conversion; and what a check answers for two names of different types, unless there
is no match, has its row under the declared names of the types.  A filter for some kinds keeps, in their order, the rows
whose check answers with one of them. -/
theorem rows_agree_with_check (t : Table) (o : Options) (j : Trace.Journal) (current : UInt64) (u : Universe)
    (hu : (buildTraced t o j current).result = .ok u) (hnames : ∀ name ∈ t.types, Text.Settled (Text.trim name))
    (title : String) (stats : CompatTable.Stats) :
    let listing := Listing.ofRecords title u.manager.table.records stats u.registry.name
    (listing.rowList.map fun row => (row.source, row.target)).Nodup ∧
    (∀ row ∈ listing.rowList, ∃ p, u.Lists row p) ∧
    listing.rowList.Pairwise (fun row row' => ∀ p p', u.Lists row p → u.Lists row' p' → p.rank < p'.rank) ∧
    (∀ row ∈ listing.rowList, u.check row.source row.target = .ok (.ok row.kind) ∧
      row.kind.name ∈ ["promote", "safe", "unsafe"]) ∧
    (∀ a b x y k, u.lookup a = .ok x → u.lookup b = .ok y → x ≠ y → u.check a b = .ok (.ok k) → k ≠ .noMatch →
      ⟨u.registry.name x, u.registry.name y, k⟩ ∈ listing.rowList) ∧
    ∀ kinds, kinds ≠ [] → (listing.filter kinds).rowList = listing.rowList.filter (u.answersAmong kinds) := by
  intro listing
  have hrows : listing.rowList = u.manager.table.records.map u.rowOf := rfl
  have hrow : ∀ row ∈ listing.rowList, ∃ p, u.Lists row p ∧
      u.check row.source row.target = .ok (.ok row.kind) ∧ row.kind.isConversion := by
    rw [hrows]
    rintro row hrow
    obtain ⟨r, hr, rfl⟩ := List.mem_map.1 hrow
    exact ⟨r.pair, check_of_mem_records hu hnames hr⟩
  have horder : listing.rowList.Pairwise
      (fun row row' => ∀ p p', u.Lists row p → u.Lists row' p' → p.rank < p'.rank) := by
    rw [hrows, List.pairwise_map]
    refine (pairwise_records hu).imp_of_mem ?_
    intro r r' hr hr' hlt p p' hp hp'
    rw [hp.unique (check_of_mem_records hu hnames hr).1 rfl rfl,
      hp'.unique (check_of_mem_records hu hnames hr').1 rfl rfl]
    exact hlt
  refine ⟨?_, fun row h => ?_, horder, fun row h => ?_, fun a b x y k ha hb hxy hcheck hk => ?_, fun kinds hkinds => ?_⟩
  · rw [List.Nodup, List.pairwise_map]
    refine horder.imp_of_mem ?_
    intro row row' hmem hmem' hlt heq
    obtain ⟨p, hp, -⟩ := hrow row hmem
    obtain ⟨p', hp', -⟩ := hrow row' hmem'
    have hsame : p = p' := hp.unique hp' (congrArg Prod.fst heq) (congrArg Prod.snd heq)
    subst hsame
    exact lt_irrefl _ (hlt p p hp hp')
  · obtain ⟨p, hp, -⟩ := hrow row h
    exact ⟨p, hp⟩
  · obtain ⟨p, -, hcheck, hconv⟩ := hrow row h
    exact ⟨hcheck, Kind.name_of_isConversion hconv⟩
  · rw [hrows]
    exact List.mem_map.2 ⟨⟨⟨x, y⟩, k⟩, mem_records_of_check hu ha hb hxy hcheck hk, rfl⟩
  · rw [Listing.rowList_filter _ hkinds]
    refine List.filter_congr fun row h => ?_
    obtain ⟨p, -, hcheck, -⟩ := hrow row h
    simp only [answersAmong, hcheck]

private theorem name_rowOfThree :
    rowOfThree.declare.registry.name ⟨0⟩ = "a" ∧ rowOfThree.declare.registry.name ⟨2⟩ = "c" := by
  obtain ⟨ha, hb, hc, hd⟩ := normalize_letters
  have hnames : rowOfThree.declare.registry.names = #["a", "b", "c"] := by
    simp [rowOfThree, Table.types, Table.aliases, Table.declare, declareTypes, declare, empty, size, TypeId.ofInt,
      declareAliases, Aliasing.run, Aliasing.bind, addAlias, Aliasing.settle, ha, hb, hc, hd]
  unfold Registry.name
  rw [hnames]
  decide

/-- A conversion that was asked for under an alias and that nobody declared is listed under the declared names. -/
theorem rows_rowOfThree :
    ∃ u k, (buildTraced rowOfThree {} .silent 0).result = .ok u ∧ u.check "d" "c" = .ok (.ok k) ∧
      ⟨"a", "c", k⟩ ∈
        (Listing.ofRecords "t" u.manager.table.records u.manager.table.stats u.registry.name).rowList := by
  have ht : rowOfThree.Accepted := accepted_rowOfThree
  obtain ⟨u, hu, hregistry, -⟩ := exists_result_eq_ok ht {} .silent 0
  have hnames : ∀ name ∈ rowOfThree.types, Text.Settled (Text.trim name) := by
    intro name hname
    apply Text.settled_trim_of_ascii
    simp only [rowOfThree, Table.types, Option.getD_some, List.mem_cons, List.not_mem_nil, or_false] at hname
    rcases hname with rfl | rfl | rfl <;> decide
  obtain ⟨-, -, -, -, hconverse, -⟩ :=
    rows_agree_with_check rowOfThree {} .silent 0 u hu hnames "t" u.manager.table.stats
  obtain ⟨hd, -, hc⟩ := lookup_rowOfThree
  obtain ⟨hname, hname'⟩ := name_rowOfThree
  rw [← hregistry] at hd hc hname hname'
  have hcheck := check_eq_ok (wellFormed_registry hu) hd hc
  have hchain : ∃ ks, Chain rowOfThree.declare.graph.kind? ⟨0⟩ ⟨2⟩ ks := by
    rw [ht.kind?_graph]
    exact ⟨_, chain_rowOfThree⟩
  obtain ⟨rel, hrel⟩ := Option.isSome_iff_exists.1 ((ht.wellFormed_graph.isSome_propagate_iff (by decide)).2 hchain)
  have hkind := ht.wellFormed_graph.propagate.kindOf_of_lookup? (of_result_eq_ok hu).2 hrel
  refine ⟨u, _, hu, hcheck, ?_⟩
  have hrow := hconverse _ _ _ _ _ hd hc (by decide) hcheck ?_
  · rwa [hname, hname'] at hrow
  · rw [hkind]
    exact Kind.ne_noMatch_of_isConversion (ht.wellFormed_graph.propagate.conversions _ _ hrel)

end Universe

end Coercion
