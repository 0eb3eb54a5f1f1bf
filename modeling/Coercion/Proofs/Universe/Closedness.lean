import Coercion.Proofs.Graph.Closedness
import Coercion.Proofs.Universe.Validity

/-!
# Closed universes

A universe that was closed when it was built passes the check over all its types, also over those without a conversion
(`Universe.checkClosed_types`).  The check and the closure agree on every graph
(`Universe.checkClosed_iff_nothing_to_do`).
-/

namespace Coercion.Universe

open Coercion.Graph (history refusal? lookup?_perform_insert)

theorem checkClosed_types {t : Table} {o : Options} {j : Trace.Journal} {current : UInt64} {u : Universe}
    (ho : o.noPropagate = false) (hu : (buildTraced t o j current).result = .ok u) :
    u.manager.checkClosed u.registry.types = .ok none := by
  obtain ⟨hregistry, htable⟩ := of_result_eq_ok hu
  have hgraph : closedGraph o t.declare.graph = t.declare.graph.propagate.1 := by simp [closedGraph, ho]
  have hg : t.declare.graph.WellFormed := t.wellFormed_graph
  have hvalid : ∀ x ∈ u.registry.types, x.valid := by
    rw [hregistry]
    exact fun x => t.numbered_registry.valid_of_mem_types
  rw [hgraph] at htable
  obtain ⟨found, hfound, hiff⟩ := u.manager.exists_checkClosed_eq_ok hvalid
  have hnone : found = none := by
    rw [hiff]
    intro a _ b _ c _
    exact hg.propagate.closes_of_closedAt htable (fun k hk => hg.closedAt_propagate hk) a b c
  rw [hfound, hnone]

/-- After any history, a graph is registered with a new manager, and the check of the manager over the types of the
graph finds nothing if and only if another closure of the graph would derive nothing and improve nothing.  So the check
finds nothing in a universe that was closed when it was built. -/
theorem checkClosed_iff_nothing_to_do :
    (∀ actions, ∃ m, (history actions).apply {} = .ok (m, (history actions).edges.length) ∧
      ∀ pool, (∀ t, t ∈ pool ↔ t ∈ (history actions).nodes) →
        ∃ found, m.checkClosed pool = .ok found ∧
          (found = none ↔ (history actions).propagate.2.derived = 0 ∧ (history actions).propagate.2.improved = 0)) ∧
    ∀ t o j current u, o.noPropagate = false → (buildTraced t o j current).result = .ok u →
      u.manager.checkClosed u.registry.types = .ok none := by
  refine ⟨fun actions => ?_, fun t o j current u => checkClosed_types⟩
  have hg := Graph.wellFormed_history actions
  exact ⟨_, hg.apply_eq_ok, fun pool hpool => hg.exists_checkClosed_eq_ok rfl hpool⟩

/-- Two conversions in a row that nobody has joined. -/
def unjoined : List Graph.Action := [.insert ⟨⟨0⟩, ⟨1⟩⟩ .promote, .insert ⟨⟨1⟩, ⟨2⟩⟩ .safe]

private theorem not_idle_unjoined :
    ¬((history unjoined).propagate.2.derived = 0 ∧ (history unjoined).propagate.2.improved = 0) := by
  have hone : refusal? ⟨⟨0⟩, ⟨1⟩⟩ .promote = none := by decide
  have htwo : refusal? ⟨⟨1⟩, ⟨2⟩⟩ .safe = none := by decide
  have hlookup : ∀ p, (history unjoined).lookup? p =
      if (⟨⟨1⟩, ⟨2⟩⟩ : Pair) = p then some { kind := .safe }
      else if (⟨⟨0⟩, ⟨1⟩⟩ : Pair) = p then some { kind := .promote } else none := by
    intro p
    simp only [history, unjoined, List.foldl_cons, List.foldl_nil, lookup?_perform_insert, hone, htwo, true_and,
      Graph.lookup?_empty]
  rw [(Graph.wellFormed_history unjoined).propagate_idle_iff]
  intro hclosed
  have hstep := hclosed ⟨1⟩ (by decide) Kind.safe.code ⟨0⟩ ⟨2⟩ (by decide)
    (Graph.within_kindsOf.2 ⟨_, hlookup _, by decide⟩) (Graph.within_kindsOf.2 ⟨_, hlookup _, by decide⟩)
  obtain ⟨r, hr, -⟩ := Graph.within_kindsOf.1 hstep
  rw [hlookup] at hr
  cases hr

/-- The check finds that the two conversions are not joined, and finds nothing in a universe that is closed. -/
theorem checkClosed_unjoined :
    (∃ m finding, (history unjoined).apply {} = .ok (m, (history unjoined).edges.length) ∧
      m.checkClosed [⟨2⟩, ⟨0⟩, ⟨1⟩, ⟨0⟩] = .ok (some finding)) ∧
    ∃ u, (buildTraced rowOfThree {} .silent 0).result = .ok u ∧
      u.manager.checkClosed u.registry.types = .ok none := by
  obtain ⟨hgraph, huniverse⟩ := checkClosed_iff_nothing_to_do
  constructor
  · obtain ⟨m, hm, hcheck⟩ := hgraph unjoined
    have hpool : ∀ t, t ∈ ([⟨2⟩, ⟨0⟩, ⟨1⟩, ⟨0⟩] : List TypeId) ↔ t ∈ (history unjoined).nodes := by
      have hnodes : (history unjoined).nodes = [⟨0⟩, ⟨1⟩, ⟨2⟩] := by decide
      intro t
      simp only [hnodes, List.mem_cons, List.not_mem_nil]
      tauto
    obtain ⟨found, hfound, hiff⟩ := hcheck _ hpool
    cases found with
    | none => exact absurd (hiff.1 rfl) not_idle_unjoined
    | some finding => exact ⟨m, finding, hm, hfound⟩
  · obtain ⟨u, hu, -⟩ := exists_result_eq_ok accepted_rowOfThree {} .silent 0
    exact ⟨u, hu, huniverse _ _ _ _ u rfl hu⟩

end Coercion.Universe
