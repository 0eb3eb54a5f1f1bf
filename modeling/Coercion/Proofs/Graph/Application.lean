import Coercion.Proofs.CompatTable.Records
import Coercion.Proofs.Graph.Propagation

/-!
# Registering a graph

Registering the relations of a graph with a new manager never fails and fills the table with the registrations of its
edges, in order (`WellFormed.apply_eq_ok`).  Afterwards the manager knows of every pair what the graph knows: a declared
kind that a better path has replaced stays behind the better one (`WellFormed.kindOf_registrations`).
-/

namespace Coercion

theorem Edge.pair_of_mem_records {e : Edge} {r : Record} (h : r ∈ e.records) : r.pair = e.pair := by
  unfold Edge.records at h
  rcases List.mem_append.1 h with h | h
  · split at h
    · rw [List.mem_singleton.1 h]
    · cases h
  · rw [List.mem_singleton.1 h]

/-- The last registration of an edge is its current kind. -/
private theorem Edge.last?_records (e : Edge) (p : Pair) :
    Record.last? e.records p = if e.pair = p then some e.relation.kind else none := by
  unfold Edge.records
  rw [Record.last?_append, Record.last?_singleton]
  split
  · rfl
  · rename_i hne
    split
    · rw [Record.last?_singleton, if_neg hne]
      rfl
    · rfl

namespace Graph

variable {g : Graph}

private theorem mem_edges {e : Edge} :
    e ∈ g.edges ↔ (e.pair.source ∈ g.nodes ∧ e.pair.target ∈ g.nodes) ∧ g.lookup? e.pair = some e.relation := by
  simp only [edges, List.mem_flatMap, List.mem_filterMap, Option.map_eq_some_iff, mem_sortedNodes]
  constructor
  · rintro ⟨i, hi, j, hj, r, hr, rfl⟩
    exact ⟨⟨hi, hj⟩, hr⟩
  · rintro ⟨⟨hi, hj⟩, hr⟩
    exact ⟨_, hi, _, hj, e.relation, hr, rfl⟩

theorem WellFormed.mem_edges_iff (hg : g.WellFormed) {e : Edge} : e ∈ g.edges ↔ g.lookup? e.pair = some e.relation := by
  rw [mem_edges, and_iff_right_of_imp]
  exact hg.inside _ _

/-- Edges that agree on every pair register the kind of that pair last. -/
private theorem last?_flatMap_records {rel : Pair → Option Relation} {es : List Edge}
    (h : ∀ e ∈ es, rel e.pair = some e.relation) (p : Pair) :
    Record.last? (es.flatMap Edge.records) p = if p ∈ es.map Edge.pair then kindsOf rel p else none := by
  induction es with
  | nil => simp
  | cons e es ih =>
    rw [List.flatMap_cons, Record.last?_append, ih (fun e' he' => h e' (List.mem_cons_of_mem _ he')),
      Edge.last?_records]
    have he := h e List.mem_cons_self
    rw [List.map_cons]
    by_cases hp : p ∈ es.map Edge.pair
    · obtain ⟨e', he', rfl⟩ := List.mem_map.1 hp
      have hrel := h e' (List.mem_cons_of_mem _ he')
      rw [if_pos hp, if_pos (List.mem_cons_of_mem _ hp)]
      simp [kindsOf, hrel]
    · rw [if_neg hp]
      by_cases hep : e.pair = p
      · subst hep
        simp [kindsOf, he]
      · have hep' : ¬ p ∈ e.pair :: es.map Edge.pair := by
          rw [List.mem_cons]
          rintro (h' | h')
          · exact hep h'.symm
          · exact hp h'
        rw [if_neg hep, if_neg hep']
        rfl

/-- The registrations of all relations, in the order of the pairs. -/
def registrations (g : Graph) : List Record := g.edges.flatMap Edge.records

theorem WellFormed.last?_registrations (hg : g.WellFormed) (p : Pair) :
    Record.last? g.registrations p = g.kind? p := by
  unfold registrations
  rw [last?_flatMap_records (fun e he => hg.mem_edges_iff.1 he), kind?_eq_kindsOf]
  split
  · rfl
  · rename_i hp
    cases hr : g.lookup? p with
    | none => simp [kindsOf, hr]
    | some r =>
      have : (⟨p, r⟩ : Edge) ∈ g.edges := hg.mem_edges_iff.2 hr
      exact absurd (List.mem_map.2 ⟨_, this, rfl⟩) hp

/-- A new manager takes all relations of a graph. -/
theorem WellFormed.apply_eq_ok (hg : g.WellFormed) :
    g.apply {} = .ok ({ table := .ofRecords g.registrations }, g.edges.length) := by
  have hvalid : ∀ r ∈ g.edges.flatMap Edge.records, r.pair.source.valid ∧ r.pair.target.valid := by
    intro r hr
    obtain ⟨e, he, hr⟩ := List.mem_flatMap.1 hr
    obtain ⟨⟨hs, ht⟩, -⟩ := mem_edges.1 he
    rw [Edge.pair_of_mem_records hr]
    exact ⟨hg.valid _ hs, hg.valid _ ht⟩
  have hadd := Manager.addAll_eq_ok (m := {}) rfl hvalid
  simp only [apply, hadd]
  rfl

/-- A manager with the registrations of a graph answers for two different types what the graph holds. -/
theorem WellFormed.kindOf_registrations (hg : g.WellFormed) {m : Manager} (hm : m.table = .ofRecords g.registrations)
    (p : Pair) : m.kindOf p = if p.source = p.target then .exact else (g.kind? p).getD .noMatch := by
  simp only [Manager.kindOf, CompatTable.find, hm, CompatTable.lookup?_ofRecords, hg.last?_registrations]

theorem WellFormed.kindOf_of_lookup? (hg : g.WellFormed) {m : Manager} (hm : m.table = .ofRecords g.registrations)
    {p : Pair} {r : Relation} (hr : g.lookup? p = some r) : m.kindOf p = r.kind := by
  rw [hg.kindOf_registrations hm, if_neg (hg.ne_of_lookup? hr), kind?, hr]
  rfl

/-- Between different types the table knows a kind only where the graph has a relation. -/
theorem WellFormed.exists_lookup?_of_kindOf (hg : g.WellFormed) {m : Manager}
    (hm : m.table = .ofRecords g.registrations) {p : Pair} (hne : p.source ≠ p.target) (h : m.kindOf p ≠ .noMatch) :
    ∃ r, g.lookup? p = some r := by
  rw [hg.kindOf_registrations hm, if_neg hne, kind?] at h
  cases hr : g.lookup? p with
  | none =>
    rw [hr] at h
    exact absurd rfl h
  | some r => exact ⟨r, rfl⟩

end Graph

end Coercion
