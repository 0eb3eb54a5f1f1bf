import Coercion.Proofs.CompatTable.Statistics
import Coercion.Proofs.Graph.Application
import Coercion.Proofs.Graph.Redeclaration

/-!
# No declaration is lost

Whatever is declared, closed and declared again, a pair is in one of four states: apart, derived, declared, or declared
and improved by a path, in which case the declared kind stands beside the better one (`Remembers`).  Offering a path
keeps to these states (`Remembers.offered`), so they describe every history (`remembers_history`).

A graph lists its relations once each, in the order of their pairs (`WellFormed.pairwise_edges`), and its registrations
carry the states over to a table: one record for every pair, and below it a second one for a pair that was improved
(`WellFormed.filter_registrations`).
-/

namespace Coercion.Graph

/-! ### What a pair remembers -/

/-- What a pair holds, given the kind that was declared for it last, if any was. -/
inductive Remembers : Option Kind → Option Relation → Prop
  | apart : Remembers none none
  | derived (k : Kind) : Remembers none (some { kind := k, derived := true })
  | declared (k : Kind) : Remembers (some k) (some { kind := k })
  | improved {k better : Kind} (h : better.code < k.code) :
    Remembers (some k) (some { kind := better, declared := some k })

variable {g : Graph} {last : Option Kind} {held : Option Relation} {actions : List Action} {p : Pair}

theorem Remembers.offered (h : Remembers last held) (a : Kind) : Remembers last (some (offered held a)) := by
  cases h with
  | apart => exact .derived a
  | derived k =>
    unfold Graph.offered
    dsimp only
    split
    · exact .derived a
    · exact .derived k
  | declared k =>
    unfold Graph.offered
    dsimp only
    split
    · rename_i hlt
      exact .improved hlt
    · exact .declared k
  | improved hbetter =>
    unfold Graph.offered
    dsimp only
    split
    · rename_i hlt
      exact .improved (Nat.lt_trans hlt hbetter)
    · exact .improved hbetter

/-- A detour leaves a pair alone or offers it one path. -/
private theorem detour_cases (rel : Pair → Option Relation) (t : TypeId) (p : Pair) :
    detour rel t p = rel p ∨ ∃ a, detour rel t p = some (offered (rel p) a) := by
  unfold detour extended
  split
  · exact Or.inl rfl
  · split
    · exact Or.inl rfl
    · split
      · exact Or.inl rfl
      · exact Or.inr ⟨_, rfl⟩

theorem WellFormed.remembers_propagate (hg : g.WellFormed) (h : Remembers last (g.lookup? p)) :
    Remembers last (g.propagate.1.lookup? p) := by
  rw [hg.lookup?_propagate]
  refine foldl_detour_induction (P := fun rel => Remembers last (rel p)) ?_ h _
  intro rel t hrel
  rcases detour_cases rel t p with hsame | ⟨a, hoffered⟩
  · rwa [hsame]
  · rw [hoffered]
    exact hrel.offered a

/-- After any history, what a pair holds tells the last kind declared for it. -/
theorem remembers_history (actions : List Action) (p : Pair) :
    Remembers (inForce actions p) ((history actions).lookup? p) := by
  induction actions using List.reverseRecOn with
  | nil =>
    have hnone : (history []).lookup? p = none := lookup?_empty p
    rw [hnone]
    exact .apart
  | append_singleton actions a ih =>
    rw [history_append]
    cases a with
    | insert q k =>
      rw [inForce_append_insert, lookup?_perform_insert]
      split
      · exact .declared k
      · exact ih
    | propagate =>
      rw [inForce_append_propagate]
      exact (wellFormed_history actions).remembers_propagate ih

theorem inForce_isSome_iff : (∃ k, inForce actions p = some k) ↔ p ∈ (accepted actions).map (·.pair) :=
  Record.exists_last?_eq_some_iff

/-! ### Edges in order -/

/-- The types of a graph are listed in the order of their identifiers. -/
theorem WellFormed.pairwise_sortedNodes (hg : g.WellFormed) :
    g.sortedNodes.Pairwise (fun i j => i.id.toInt < j.id.toInt) := by
  have hsorted : g.sortedNodes.Pairwise (fun i j => i.id.toInt ≤ j.id.toInt) :=
    pairwise_mergeSort_of_iff TypeId.isLE_compare_iff g.nodes
  have hnd : g.sortedNodes.Pairwise (· ≠ ·) := g.sortedNodes_perm.nodup_iff.2 hg.nodup
  refine hsorted.imp₂ ?_ hnd
  intro i j hij hne
  exact hij.lt_of_ne fun heq => hne (TypeId.toInt_inj.1 heq)

theorem WellFormed.pairwise_edges (hg : g.WellFormed) :
    g.edges.Pairwise (fun e e' => e.pair.rank < e'.pair.rank) := by
  have hnodes := hg.pairwise_sortedNodes
  unfold edges
  rw [List.pairwise_flatMap]
  constructor
  · -- one source: the targets increase
    intro i _
    rw [List.pairwise_filterMap]
    refine hnodes.imp ?_
    intro j j' hlt e he e' he'
    obtain ⟨r, -, rfl⟩ := Option.map_eq_some_iff.1 he
    obtain ⟨r', -, rfl⟩ := Option.map_eq_some_iff.1 he'
    exact Prod.Lex.toLex_lt_toLex.2 (Or.inr ⟨rfl, hlt⟩)
  · refine hnodes.imp ?_
    intro i i' hlt e he e' he'
    obtain ⟨j, -, he⟩ := List.mem_filterMap.1 he
    obtain ⟨j', -, he'⟩ := List.mem_filterMap.1 he'
    obtain ⟨r, -, rfl⟩ := Option.map_eq_some_iff.1 he
    obtain ⟨r', -, rfl⟩ := Option.map_eq_some_iff.1 he'
    exact Prod.Lex.toLex_lt_toLex.2 (Or.inl hlt)

theorem WellFormed.nodup_pairs_edges (hg : g.WellFormed) : (g.edges.map Edge.pair).Nodup := by
  rw [List.Nodup, List.pairwise_map]
  exact hg.pairwise_edges.imp fun hlt heq => hlt.ne (congrArg Pair.rank heq)

/-! ### Registrations -/

theorem length_registrations (g : Graph) :
    g.registrations.length = g.edges.length + g.edges.countP (·.relation.declared.isSome) := by
  unfold registrations
  induction g.edges with
  | nil => rfl
  | cons e es ih =>
    have hone : e.records.length = 1 + if e.relation.declared.isSome then 1 else 0 := by
      unfold Edge.records
      cases e.relation.declared <;> rfl
    rw [List.flatMap_cons, List.length_append, ih, hone, List.length_cons, List.countP_cons]
    omega

private theorem filter_records (e : Edge) (p : Pair) :
    e.records.filter (·.pair = p) = if e.pair = p then e.records else [] := by
  split
  · rename_i h
    rw [List.filter_eq_self]
    intro r hr
    simp [Edge.pair_of_mem_records hr, h]
  · rename_i h
    rw [List.filter_eq_nil_iff]
    intro r hr
    simp [Edge.pair_of_mem_records hr, h]

private theorem filter_flatMap_records {es : List Edge} (hnd : (es.map Edge.pair).Nodup) {e : Edge} (he : e ∈ es) :
    (es.flatMap Edge.records).filter (·.pair = e.pair) = e.records := by
  rw [List.filter_flatMap]
  simp only [filter_records]
  induction es with
  | nil => cases he
  | cons e' es ih =>
    rw [List.map_cons, List.nodup_cons] at hnd
    rw [List.flatMap_cons]
    rcases List.mem_cons.1 he with rfl | he
    · have hrest : (es.flatMap fun e'' => if e''.pair = e.pair then e''.records else []) = [] := by
        rw [List.flatMap_eq_nil_iff]
        intro e'' he''
        have hne : e''.pair ≠ e.pair := fun heq => hnd.1 (heq ▸ List.mem_map_of_mem he'')
        exact if_neg hne
      rw [if_pos rfl, hrest, List.append_nil]
    · have hne : e'.pair ≠ e.pair := fun heq => hnd.1 (heq ▸ List.mem_map_of_mem he)
      rw [if_neg hne, List.nil_append, ih hnd.2 he]

/-- The registrations of a pair are those of its edge. -/
theorem WellFormed.filter_registrations (hg : g.WellFormed) {e : Edge} (he : e ∈ g.edges) :
    g.registrations.filter (·.pair = e.pair) = e.records :=
  filter_flatMap_records hg.nodup_pairs_edges he

/-- A table with the registrations of a graph has one live record for every relation. -/
theorem WellFormed.size_registrations (hg : g.WellFormed) :
    (CompatTable.ofRecords g.registrations).size = g.edges.length := by
  have hperm : (g.registrations.map (·.pair)).dedup.Perm (g.edges.map Edge.pair) := by
    rw [List.perm_ext_iff_of_nodup (List.nodup_dedup _) hg.nodup_pairs_edges]
    intro p
    rw [List.mem_dedup, ← Record.exists_last?_eq_some_iff, hg.last?_registrations]
    simp only [kind?, Option.map_eq_some_iff, List.mem_map]
    constructor
    · rintro ⟨k, r, hr, -⟩
      exact ⟨⟨p, r⟩, hg.mem_edges_iff.2 hr, rfl⟩
    · rintro ⟨e, he, rfl⟩
      exact ⟨_, _, hg.mem_edges_iff.1 he, rfl⟩
  rw [CompatTable.size_ofRecords, hperm.length_eq, List.length_map]

/-- A relation that is not derived was declared, and one that is declared keeps the last declaration: as its kind, or
beside a better kind.  The edges of the graph are its relations, each once.  A new manager takes them all, answers with
their kinds, and has below the record of a pair exactly the declaration that was improved; so its figures count the
edges as live and the improved ones as shadowed, as words, and as they are if the words hold them. -/
theorem history_keeps_declarations (actions : List Action) :
    (∀ p r, (history actions).lookup? p = some r →
      (r.derived = false ↔ p ∈ (accepted actions).map (·.pair)) ∧
      ∀ k, r.declared = some k → r.derived = false ∧ r.kind.code < k.code) ∧
    (∀ p k, inForce actions p = some k →
      ∃ r, (history actions).lookup? p = some r ∧ r.derived = false ∧ r.declared.getD r.kind = k) ∧
    (∀ e, e ∈ (history actions).edges ↔ (history actions).lookup? e.pair = some e.relation) ∧
    (history actions).edges.Pairwise (fun e e' => e.pair.rank < e'.pair.rank) ∧
    ∃ m, (history actions).apply {} = .ok (m, (history actions).edges.length) ∧
      (∀ e ∈ (history actions).edges, m.compatible e.pair = .ok e.relation.kind ∧
        (m.table.bins.get e.pair.bin).filter (·.pair = e.pair) = e.records.reverse) ∧
      m.table.size = (history actions).edges.length ∧
      (m.table.bins.toList.map List.length).sum =
        (history actions).edges.length + (history actions).edges.countP (·.relation.declared.isSome) ∧
      (∀ s, m.table.tally = .ok s → s.live = UInt32.ofNat (history actions).edges.length ∧
        s.shadowed = UInt32.ofNat ((history actions).edges.countP (·.relation.declared.isSome)) ∧
        s.records = s.live + s.shadowed) ∧
      ((history actions).edges.length + (history actions).edges.countP (·.relation.declared.isSome) < 2 ^ 32 →
        ∃ s, m.table.tally = .ok s ∧ s.live.toNat = (history actions).edges.length ∧
          s.shadowed.toNat = (history actions).edges.countP (·.relation.declared.isSome) ∧
          s.records.toNat = s.live.toNat + s.shadowed.toNat) := by
  have hg : (history actions).WellFormed := wellFormed_history actions
  have hlength : (history actions).registrations.length =
      (CompatTable.ofRecords (history actions).registrations).size +
        (history actions).edges.countP (·.relation.declared.isSome) := by
    rw [length_registrations, hg.size_registrations]
  refine ⟨?_, ?_, fun e => hg.mem_edges_iff, hg.pairwise_edges, _, hg.apply_eq_ok, ?_, hg.size_registrations, ?_, ?_,
    ?_⟩
  · intro p r hr
    have hp := remembers_history actions p
    rw [← inForce_isSome_iff]
    rw [hr] at hp
    generalize inForce actions p = last at hp
    cases hp with
    | derived k => simp
    | declared k => simp
    | improved h => simp [h]
  · intro p k hk
    have hp := remembers_history actions p
    rw [hk] at hp
    generalize (history actions).lookup? p = held at hp
    cases hp with
    | declared => exact ⟨_, rfl, rfl, rfl⟩
    | improved => exact ⟨_, rfl, rfl, rfl⟩
  · intro e he
    have hrel := hg.mem_edges_iff.1 he
    have hends := hg.inside _ _ hrel
    constructor
    · rw [Manager.compatible_eq_ok _ (hg.valid _ hends.1) (hg.valid _ hends.2), hg.kindOf_registrations rfl,
        if_neg (hg.ne_of_lookup? hrel), kind?, hrel]
      rfl
    · rw [CompatTable.filter_bin_ofRecords, hg.filter_registrations he]
  · rw [CompatTable.sum_length_bins, length_registrations]
  · intro s hs
    have hwords := CompatTable.words_of_tally hlength hs
    rwa [hg.size_registrations] at hwords
  · intro hfits
    rw [← hg.size_registrations] at hfits
    obtain ⟨s, hs, hlive, hshadowed, hrecords⟩ := CompatTable.exists_tally_eq_ok hlength hfits
    rw [hg.size_registrations] at hlive
    exact ⟨s, hs, hlive, hshadowed, by rw [hrecords, hlive, hshadowed, hg.size_registrations]⟩

end Coercion.Graph
