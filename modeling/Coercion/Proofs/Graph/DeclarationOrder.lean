import Coercion.Proofs.Graph.Declarations

/-!
# The order of declarations

Two graphs are alike if they have the same types, listed in whatever order, and the same relations.  Declarations lead to
alike graphs if they leave the same kind in force for every pair (`alike_history`).

A closure goes over the types in the order of their identifiers and sees of the relations only what it looks up.  So two
closures that hold the same relations and have logged the same writes do the same next (`Closing.Alike.relax` and, loop
by loop, `Closing.Alike.relaxThrough`): alike graphs are closed by the same writes and stay alike (`Alike.close`).  Their
edges are the same list, and so are the edges of any listing of the relations once it is sorted
(`WellFormed.mergeSort_of_enumerates`).
-/

namespace Coercion.Graph

/-! ### Closures side by side -/

/-- The same relations, and the same writes so far. -/
structure Closing.Alike (s s' : Closing) : Prop where
  rel : s.rel = s'.rel
  log : s.log = s'.log

theorem relax_log (s : Closing) (p : Pair) (a : Kind) :
    (relax s p a).log =
      match s.rel p with
      | none => ⟨p, a, true⟩ :: s.log
      | some r => if a.code < r.kind.code then ⟨p, a, false⟩ :: s.log else s.log := by
  unfold relax Closing.rel
  cases s.relations[p]? with
  | none => rfl
  | some r => exact apply_ite Closing.log _ _ _

namespace Closing.Alike

variable {s s' : Closing}

theorem relax (h : s.Alike s') (p : Pair) (a : Kind) : (Graph.relax s p a).Alike (Graph.relax s' p a) where
  rel := by
    funext q
    rw [relax_rel, relax_rel, h.rel]
  log := by rw [relax_log, relax_log, h.rel, h.log]

private theorem relaxFrom (h : s.Alike s') (nodes : List TypeId) (k i : TypeId) (first : Kind) :
    (Graph.relaxFrom nodes k i first s).Alike (Graph.relaxFrom nodes k i first s') := by
  refine List.foldl_rel h fun j _ s s' h => ?_
  have hread : s.relations[(⟨k, j⟩ : Pair)]? = s'.relations[(⟨k, j⟩ : Pair)]? := congrFun h.rel ⟨k, j⟩
  rw [hread]
  split
  · exact h
  · split
    · exact h
    · exact h.relax _ _

theorem relaxThrough (h : s.Alike s') (nodes : List TypeId) (k : TypeId) :
    (Graph.relaxThrough nodes k s).Alike (Graph.relaxThrough nodes k s') := by
  refine List.foldl_rel h fun i _ s s' h => ?_
  have hread : s.relations[(⟨i, k⟩ : Pair)]? = s'.relations[(⟨i, k⟩ : Pair)]? := congrFun h.rel ⟨i, k⟩
  rw [hread]
  split
  · exact h
  · split
    · exact h
    · exact h.relaxFrom _ _ _ _

end Closing.Alike

/-! ### Graphs side by side -/

/-- The same types, once they are sorted, and the same relations. -/
structure Alike (g g' : Graph) : Prop where
  sortedNodes : g.sortedNodes = g'.sortedNodes
  lookup? : g.lookup? = g'.lookup?

namespace Alike

variable {g g' : Graph}

private theorem edges (h : g.Alike g') : g.edges = g'.edges := by
  unfold Graph.edges
  rw [h.sortedNodes, h.lookup?]

private theorem apply (h : g.Alike g') (m : Manager) : g.apply m = g'.apply m := by
  unfold Graph.apply
  rw [h.edges]

private theorem closeStats (h : g.Alike g') (writes : List Write) : g.closeStats writes = g'.closeStats writes := by
  have hnodes : g.nodes.length = g'.nodes.length := by
    rw [← g.sortedNodes_perm.length_eq, h.sortedNodes, g'.sortedNodes_perm.length_eq]
  unfold Graph.closeStats
  rw [hnodes, h.edges]

theorem close (h : g.Alike g') : g.close.1.Alike g'.close.1 ∧ g.close.2 = g'.close.2 := by
  have hstart : Closing.Alike ⟨g.relations, []⟩ ⟨g'.relations, []⟩ := ⟨h.lookup?, rfl⟩
  have hend : Closing.Alike (g.sortedNodes.foldl (fun s k => relaxThrough g.sortedNodes k s) ⟨g.relations, []⟩)
      (g'.sortedNodes.foldl (fun s k => relaxThrough g'.sortedNodes k s) ⟨g'.relations, []⟩) := by
    rw [h.sortedNodes]
    exact List.foldl_rel hstart fun k _ s s' h => h.relaxThrough g'.sortedNodes k
  exact ⟨⟨h.sortedNodes, hend.rel⟩, congrArg List.reverse hend.log⟩

private theorem propagate (h : g.Alike g') : g.propagate.1.Alike g'.propagate.1 ∧ g.propagate.2 = g'.propagate.2 := by
  obtain ⟨hclosed, hwrites⟩ := h.close
  refine ⟨hclosed, ?_⟩
  show g.closeStats g.close.2 = g'.closeStats g'.close.2
  rw [hwrites, h.closeStats]

/-- The trace of a closure is made from its writes and statistics. -/
private theorem propagateTraced (h : g.Alike g') (j : Trace.Journal) (current : UInt64) :
    (g.propagateTraced j current).2 = (g'.propagateTraced j current).2 := by
  simp only [Graph.propagateTraced, h.close.2, h.closeStats]

end Alike

/-! ### Listings of the relations -/

/-- A list of the relations of a graph, each once, in whatever order. -/
def Enumerates (g : Graph) (es : List Edge) : Prop :=
  es.Nodup ∧ ∀ e, e ∈ es ↔ g.lookup? e.pair = some e.relation

variable {g g' : Graph} {es : List Edge}

private theorem Alike.enumerates (h : g.Alike g') (hes : g'.Enumerates es) : g.Enumerates es := by
  unfold Enumerates
  rwa [h.lookup?]

private theorem WellFormed.perm_edges_of_enumerates (hg : g.WellFormed) (h : g.Enumerates es) : es.Perm g.edges := by
  rw [List.perm_ext_iff_of_nodup h.1 hg.nodup_pairs_edges.of_map]
  intro e
  rw [h.2, hg.mem_edges_iff]

theorem WellFormed.mergeSort_of_enumerates (hg : g.WellFormed) (h : g.Enumerates es) :
    (es.mergeSort fun e e' => e.pair.le e'.pair) = g.edges := by
  have hsorted := pairwise_mergeSort_of_iff (fun e e' : Edge => Pair.le_iff_rank_le e.pair e'.pair) es
  have hperm := (es.mergeSort_perm fun e e' => e.pair.le e'.pair).trans (hg.perm_edges_of_enumerates h)
  refine hperm.eq_of_pairwise ?_ hsorted (hg.pairwise_edges.imp le_of_lt)
  -- edges of one pair have the relation of that pair
  intro e e' he he' hle hge
  have hpair : e.pair = e'.pair := Pair.rank_injective (le_antisymm hle hge)
  have hrel := hg.mem_edges_iff.1 (hperm.mem_iff.1 he)
  have hrel' := hg.mem_edges_iff.1 he'
  rw [hpair, hrel', Option.some.injEq] at hrel
  obtain ⟨p, r⟩ := e
  obtain ⟨p', r'⟩ := e'
  simp_all

/-! ### Declarations in force -/

variable {actions actions' : List Action} {t : TypeId}

/-- The types of a graph are the ends of the declarations that were made. -/
theorem mem_nodes_history_iff :
    t ∈ (history actions).nodes ↔ ∃ p, (∃ k, inForce actions p = some k) ∧ (t = p.target ∨ t = p.source) := by
  induction actions using List.reverseRecOn with
  | nil => simp [history, Graph.empty, inForce, accepted]
  | append_singleton actions a ih =>
    rw [history_append]
    cases a with
    | propagate =>
      rw [inForce_append_propagate]
      exact ih
    | insert q k =>
      rw [(wellFormed_history actions).mem_nodes_perform_insert, ih]
      simp only [inForce_append_insert]
      constructor
      · rintro (⟨hr, ht⟩ | ⟨p, hp, ht⟩)
        · exact ⟨q, ⟨k, if_pos ⟨hr, rfl⟩⟩, ht⟩
        · refine ⟨p, ?_, ht⟩
          split
          · exact ⟨k, rfl⟩
          · exact hp
      · rintro ⟨p, ⟨k', hk'⟩, ht⟩
        split at hk'
        · rename_i hq
          exact Or.inl ⟨hq.1, hq.2 ▸ ht⟩
        · exact Or.inr ⟨p, ⟨k', hk'⟩, ht⟩

private theorem WellFormed.sortedNodes_eq (hg : g.WellFormed) (hg' : g'.WellFormed)
    (h : ∀ t, t ∈ g.nodes ↔ t ∈ g'.nodes) :
    g.sortedNodes = g'.sortedNodes := by
  have hperm : g.sortedNodes.Perm g'.sortedNodes :=
    (g.sortedNodes_perm.trans ((List.perm_ext_iff_of_nodup hg.nodup hg'.nodup).2 h)).trans g'.sortedNodes_perm.symm
  refine hperm.eq_of_pairwise ?_ hg.pairwise_sortedNodes hg'.pairwise_sortedNodes
  intro i j _ _ hlt hgt
  exact absurd hgt hlt.asymm

theorem alike_history (h : .propagate ∉ actions) (h' : .propagate ∉ actions')
    (hsame : ∀ p, inForce actions p = inForce actions' p) : (history actions).Alike (history actions') where
  sortedNodes := by
    apply (wellFormed_history actions).sortedNodes_eq (wellFormed_history actions')
    intro t
    simp only [mem_nodes_history_iff, hsame]
  lookup? := by
    funext p
    rw [lookup?_history_of_not_mem h, lookup?_history_of_not_mem h', hsame]

/-- Declarations that leave the same kind in force for every pair, in whatever order and with whatever was refused or
replaced in between, are closed alike: with the same statistics, writes and trace, and into the same edges, however the
relations are listed before they are counted and sorted.  A new manager takes from both the same registrations. -/
theorem propagate_forgets_declaration_order (h : .propagate ∉ actions) (h' : .propagate ∉ actions')
    (hsame : ∀ p, inForce actions p = inForce actions' p) :
    (history actions).propagate.2 = (history actions').propagate.2 ∧
    (history actions).close.2 = (history actions').close.2 ∧
    (∀ j current, ((history actions).propagateTraced j current).2 = ((history actions').propagateTraced j current).2) ∧
    (∀ es, (history actions').Enumerates es →
      es.countP (!·.relation.derived) = (history actions).propagate.2.declared) ∧
    (history actions).propagate.1.edges = (history actions').propagate.1.edges ∧
    (∀ es, (history actions').propagate.1.Enumerates es →
      (es.mergeSort fun e e' => e.pair.le e'.pair) = (history actions).propagate.1.edges) ∧
    ∃ m, (history actions).propagate.1.apply {} = .ok (m, (history actions).propagate.1.edges.length) ∧
      (history actions').propagate.1.apply {} = .ok (m, (history actions').propagate.1.edges.length) := by
  have hg := wellFormed_history actions
  have halike := alike_history h h' hsame
  obtain ⟨hclosed, hstats⟩ := halike.propagate
  refine ⟨hstats, halike.close.2, halike.propagateTraced, ?_, hclosed.edges, ?_, _, hg.propagate.apply_eq_ok, ?_⟩
  · intro es hes
    exact (hg.perm_edges_of_enumerates (halike.enumerates hes)).countP_eq _
  · intro es hes
    exact hg.propagate.mergeSort_of_enumerates (hclosed.enumerates hes)
  · rw [← hclosed.apply, ← hclosed.edges]
    exact hg.propagate.apply_eq_ok

/-- Two conversions in a row beside a lossy one between their ends; one is replaced by a better kind, and one is
refused. -/
def declaredInTurns : List Action :=
  [.insert ⟨⟨0⟩, ⟨1⟩⟩ .safe, .insert ⟨⟨1⟩, ⟨2⟩⟩ .promote, .insert ⟨⟨0⟩, ⟨0⟩⟩ .promote, .insert ⟨⟨0⟩, ⟨2⟩⟩ .lossy,
    .insert ⟨⟨0⟩, ⟨1⟩⟩ .promote]

/-- The same declarations, made at once and starting from the last type. -/
def declaredAtOnce : List Action :=
  [.insert ⟨⟨0⟩, ⟨2⟩⟩ .lossy, .insert ⟨⟨1⟩, ⟨2⟩⟩ .promote, .insert ⟨⟨0⟩, ⟨1⟩⟩ .promote]

/-- The two list their types in different orders and are closed alike. -/
theorem propagate_declaredInTurns :
    (history declaredInTurns).nodes ≠ (history declaredAtOnce).nodes ∧
      (history declaredInTurns).propagate.2 = (history declaredAtOnce).propagate.2 ∧
      (history declaredInTurns).close.2 = (history declaredAtOnce).close.2 := by
  have hturns : accepted declaredInTurns = [⟨⟨⟨0⟩, ⟨1⟩⟩, .safe⟩, ⟨⟨⟨1⟩, ⟨2⟩⟩, .promote⟩, ⟨⟨⟨0⟩, ⟨2⟩⟩, .lossy⟩,
      ⟨⟨⟨0⟩, ⟨1⟩⟩, .promote⟩] := by decide
  have honce : accepted declaredAtOnce = [⟨⟨⟨0⟩, ⟨2⟩⟩, .lossy⟩, ⟨⟨⟨1⟩, ⟨2⟩⟩, .promote⟩, ⟨⟨⟨0⟩, ⟨1⟩⟩, .promote⟩] := by
    decide
  have hsame : ∀ p, inForce declaredInTurns p = inForce declaredAtOnce p := by
    intro p
    simp only [inForce, hturns, honce, Record.last?_cons, Record.last?_nil, Option.none_or]
    by_cases h₁ : (⟨⟨0⟩, ⟨1⟩⟩ : Pair) = p
    · subst h₁
      decide
    · by_cases h₂ : (⟨⟨1⟩, ⟨2⟩⟩ : Pair) = p
      · subst h₂
        decide
      · simp [h₁, h₂]
  obtain ⟨hstats, hwrites, -⟩ := propagate_forgets_declaration_order (by decide) (by decide) hsame
  exact ⟨by decide, hstats, hwrites⟩

end Coercion.Graph
