import Coercion.Proofs.Graph.Application
import Coercion.Proofs.Registry.Lifecycle
import Coercion.Universe.Declaration

/-!
# Tables whose declarations are accepted

A table is accepted when every type and every alias is declared and every rule is taken in each of its directions.
The graph of an accepted table has the history of the directions of its rules (`Accepted.graph_eq`), so it holds for
every pair the kind of the last direction that names the pair (`Accepted.kind?_graph`).  What the declarations leave
behind are warnings (`Accepted.not_isError`).

Accepted or not, a table makes its registry by calls that declare types and then try aliases
(`Table.exists_registry_run`), so its types are numbered in order (`Table.numbered_registry`).
-/

namespace Coercion

/-! ### Directions -/

/-- The conversion that a text of kind declares for a pair; none if the text cannot be read. -/
def Kind.record (text : String) (p : Pair) : List Record :=
  match parse text with
  | .ok k => [⟨p, k⟩]
  | .error _ => []

/-- The directions of a rule whose names resolve: its own, then the way back if there is one. -/
def Registry.directions (r : Registry) (rule : Rule) : List Record :=
  match r.lookup rule.source, r.lookup rule.target with
  | .ok a, .ok b =>
    Kind.record rule.kind ⟨a, b⟩ ++ if rule.reverse = "" then [] else Kind.record rule.reverse ⟨b, a⟩
  | _, _ => []

/-- The directions of all rules of a table, in order. -/
def Table.directions (t : Table) : List Record := t.rules.flatMap t.declare.registry.directions

/-- The kind that a table declares for a pair: that of the last direction that names it. -/
def Table.declaredKind? (t : Table) (p : Pair) : Option Kind := Record.last? t.directions p

/-- Whether a rule can be declared: its names resolve, its kinds are read, and the graph refuses neither direction. -/
def Registry.Accepts (r : Registry) (rule : Rule) : Prop :=
  ∃ p k, r.pairOf rule = .ok p ∧ Kind.parse rule.kind = .ok k ∧ Graph.refusal? p k = none ∧
    (rule.reverse ≠ "" → ∃ k', Kind.parse rule.reverse = .ok k' ∧ Graph.refusal? p.reverse k' = none)

/-- Every declaration of the table is made. -/
structure Table.Accepted (t : Table) : Prop where
  types : (Registry.empty.declareTypes 0 t.types).2 = []
  aliases : ((Registry.empty.declareTypes 0 t.types).1.declareAliases t.aliases).2 = []
  rules : ∀ rule ∈ t.rules, t.declare.registry.Accepts rule

/-! ### The registry of a table -/

private theorem Registry.fst_declareTypes (r : Registry) (i : Nat) (names : List String) :
    (r.declareTypes i names).1 = r.run (names.map .declare) := by
  induction names generalizing r i with
  | nil => rfl
  | cons name names ih =>
    rw [List.map_cons, run_cons]
    cases h : r.declare name with
    | ok tr => simp only [declareTypes, perform, h, ih]
    | error e => simp only [declareTypes, perform, h, ih]

namespace Aliasing

/-- The calls that try some aliases, one after the other. -/
def calls (tried : List (String × String)) : List Registry.Call := tried.map fun a => .addAlias a.1 a.2

private theorem registry_foldl_bind (s : Aliasing) (pending : List (String × String)) :
    (pending.foldl bind s).registry = s.registry.run (calls pending) := by
  induction pending generalizing s with
  | nil => rfl
  | cons a pending ih =>
    have hone : (s.bind a).registry = (s.registry.perform (.addAlias a.1 a.2)).2 := by
      cases h : s.registry.addAlias a.1 a.2 with
      | ok r => simp only [bind, Registry.perform, h, settle]
      | error e =>
        simp only [bind, Registry.perform, h, settle]
        split
        · rfl
        · rfl
    rw [List.foldl_cons, ih, hone, calls, calls, List.map_cons, Registry.run_cons]

theorem exists_registry_run (fuel : Nat) (pending : List (String × String)) (s : Aliasing) :
    ∃ tried, (run fuel pending s).registry = s.registry.run (calls tried) := by
  induction fuel generalizing s pending with
  | zero => exact ⟨[], rfl⟩
  | succ fuel ih =>
    cases pending with
    | nil => exact ⟨[], rfl⟩
    | cons a pending =>
      have hpass := registry_foldl_bind { s with waiting := [] } (a :: pending)
      unfold run
      simp only
      split
      · exact ⟨a :: pending, hpass⟩
      · obtain ⟨tried, htried⟩ := ih ((a :: pending).foldl bind { s with waiting := [] }).waiting
          ((a :: pending).foldl bind { s with waiting := [] })
        refine ⟨a :: pending ++ tried, ?_⟩
        rw [htried, hpass, calls, calls, calls, List.map_append, Registry.run_append]

end Aliasing

/-- The registry of a table is made by calls that declare its types and then try aliases. -/
theorem Table.exists_registry_run (t : Table) :
    ∃ tried, t.declare.registry = Registry.empty.run (t.types.map .declare ++ Aliasing.calls tried) := by
  obtain ⟨tried, htried⟩ := Aliasing.exists_registry_run _ (t.aliases.mergeSort fun a b => decide (a.1 ≤ b.1))
    { registry := (Registry.empty.declareTypes 0 t.types).1, unsettled := _ }
  refine ⟨tried, ?_⟩
  rw [Registry.run_append, ← Registry.fst_declareTypes Registry.empty 0]
  exact htried

theorem Table.numbered_registry (t : Table) : t.declare.registry.Numbered := by
  obtain ⟨tried, htried⟩ := t.exists_registry_run
  rw [htried]
  exact Registry.numbered_empty.run _

theorem Table.wellFormed_registry (t : Table) : t.declare.registry.WellFormed := t.numbered_registry.toWellFormed

/-! ### The graph of a table -/

namespace Graph

/-- Declaring a direction of a rule is the action of declaring it. -/
theorem declare_fst (g : Graph) (subject : String) (p : Pair) (k : Kind) :
    (g.declare subject p k).1 = g.perform (.insert p k) := by
  simp only [declare, perform]
  rcases g.insert p k with e | ⟨g', _ | _⟩ <;> rfl

theorem not_isError_declare (g : Graph) (subject : String) {p : Pair} {k : Kind} (h : refusal? p k = none) :
    ∀ d ∈ (g.declare subject p k).2, d.severity.isError = false := by
  obtain ⟨g', hg'⟩ := exists_insert_eq_ok g h
  unfold declare
  rw [hg']
  cases g.isDeclared p with
  | true =>
    intro d hd
    rw [List.mem_singleton.1 hd]
    rfl
  | false =>
    intro d hd
    cases hd

/-- The graph after the declarations of some records. -/
def declareAll (g : Graph) (rs : List Record) : Graph := rs.foldl (fun g r => g.perform (.insert r.pair r.kind)) g

private theorem wellFormed_declareAll_empty (rs : List Record) : (Graph.empty.declareAll rs).WellFormed := by
  have h := wellFormed_history (rs.map fun r => .insert r.pair r.kind)
  rwa [history, List.foldl_map] at h

/-- Records that are not refused give every pair the kind of the last of them. -/
private theorem kind?_declareAll (g : Graph) {rs : List Record} (hrs : ∀ r ∈ rs, refusal? r.pair r.kind = none)
    (p : Pair) :
    (g.declareAll rs).kind? p = (Record.last? rs p).or (g.kind? p) := by
  unfold declareAll
  induction rs generalizing g with
  | nil => rfl
  | cons r rs ih =>
    rw [List.foldl_cons, ih _ (fun r' hr' => hrs r' (List.mem_cons_of_mem _ hr')), Record.last?_cons]
    have hkind : (g.perform (.insert r.pair r.kind)).kind? p = if r.pair = p then some r.kind else g.kind? p := by
      simp only [kind?, lookup?_perform_insert, hrs r List.mem_cons_self, true_and]
      split <;> rfl
    rw [hkind]
    cases Record.last? rs p <;> by_cases hp : r.pair = p <;> simp [hp]

end Graph

namespace Registry

variable {r : Registry} {rule : Rule}

theorem pairOf_eq_ok {p : Pair} (h : r.pairOf rule = .ok p) :
    r.lookup rule.source = .ok p.source ∧ r.lookup rule.target = .ok p.target := by
  unfold pairOf at h
  split at h
  · rename_i h₁ h₂
    cases h
    exact ⟨h₁, h₂⟩
  all_goals cases h

/-- An accepted rule has its two directions, or one if it has no way back. -/
theorem directions_eq {p : Pair} {k : Kind} (hp : r.pairOf rule = .ok p) (hk : Kind.parse rule.kind = .ok k) :
    r.directions rule = ⟨p, k⟩ :: if rule.reverse = "" then [] else Kind.record rule.reverse p.reverse := by
  obtain ⟨hs, ht⟩ := pairOf_eq_ok hp
  have hforth : Kind.record rule.kind p = [⟨p, k⟩] := by simp only [Kind.record, hk]
  unfold directions
  rw [hs, ht]
  show Kind.record rule.kind p ++ _ = _
  rw [hforth]
  rfl

/-- Declaring an accepted rule declares its directions and leaves no error behind. -/
theorem Accepts.declareRule (h : r.Accepts rule) (i : Nat) (g : Graph) :
    (r.declareRule i rule g).1 = g.declareAll (r.directions rule) ∧
      (∀ d ∈ (r.declareRule i rule g).2, d.severity.isError = false) ∧
      ∀ q ∈ r.directions rule, Graph.refusal? q.pair q.kind = none := by
  obtain ⟨p, k, hp, hk, hforth, hreverse⟩ := h
  rw [directions_eq hp hk]
  have hone := Graph.not_isError_declare g (rule.subject i) hforth
  by_cases hrev : rule.reverse = ""
  · simp only [Registry.declareRule, hp, hk, hrev, ↓reduceIte, Graph.declareAll, List.foldl_cons, List.foldl_nil]
    refine ⟨Graph.declare_fst _ _ _ _, hone, ?_⟩
    intro q hq
    rw [List.mem_singleton.1 hq]
    exact hforth
  · obtain ⟨k', hk', hback⟩ := hreverse hrev
    simp only [Registry.declareRule, hp, hk, hk', hrev, ↓reduceIte, Kind.record, Graph.declareAll, List.foldl_cons,
      List.foldl_nil, Graph.declare_fst]
    refine ⟨trivial, ?_, ?_⟩
    · intro d hd
      rcases List.mem_append.1 hd with hd | hd
      · exact hone d hd
      · exact Graph.not_isError_declare _ _ hback d hd
    · intro q hq
      rcases List.mem_cons.1 hq with rfl | hq
      · exact hforth
      · rw [List.mem_singleton.1 hq]
        exact hback

theorem declareRules_of_accepts {rules : List Rule} (h : ∀ rule ∈ rules, r.Accepts rule) (i : Nat) (g : Graph) :
    (r.declareRules i rules g).1 = g.declareAll (rules.flatMap r.directions) ∧
      (∀ d ∈ (r.declareRules i rules g).2, d.severity.isError = false) ∧
      ∀ q ∈ rules.flatMap r.directions, Graph.refusal? q.pair q.kind = none := by
  induction rules generalizing i g with
  | nil => simp [Registry.declareRules, Graph.declareAll]
  | cons rule rules ih =>
    obtain ⟨hgraph, herrors, hdirs⟩ := (h rule List.mem_cons_self).declareRule i g
    obtain ⟨hgraph', herrors', hdirs'⟩ :=
      ih (fun rule' hr' => h rule' (List.mem_cons_of_mem _ hr')) (i + 1) (r.declareRule i rule g).1
    refine ⟨?_, ?_, ?_⟩
    · simp only [Registry.declareRules]
      rw [hgraph', hgraph, List.flatMap_cons, Graph.declareAll, Graph.declareAll, Graph.declareAll, List.foldl_append]
    · intro d hd
      rcases List.mem_append.1 hd with hd | hd
      · exact herrors d hd
      · exact herrors' d hd
    · intro q hq
      rw [List.flatMap_cons] at hq
      rcases List.mem_append.1 hq with hq | hq
      · exact hdirs q hq
      · exact hdirs' q hq

end Registry

/-! ### Accepted tables -/

namespace Table.Accepted

variable {t : Table}

theorem graph_eq (h : t.Accepted) : t.declare.graph = Graph.empty.declareAll t.directions :=
  (Registry.declareRules_of_accepts h.rules 0 .empty).1

theorem wellFormed_graph (h : t.Accepted) : t.declare.graph.WellFormed := by
  rw [h.graph_eq]
  exact Graph.wellFormed_declareAll_empty _

/-- The graph of an accepted table holds what the table declares, the last direction of each pair. -/
theorem kind?_graph (h : t.Accepted) : t.declare.graph.kind? = t.declaredKind? := by
  funext p
  have hdirs : ∀ q ∈ t.directions, Graph.refusal? q.pair q.kind = none :=
    (Registry.declareRules_of_accepts h.rules 0 .empty).2.2
  rw [h.graph_eq, Graph.kind?_declareAll _ hdirs]
  simp [declaredKind?, Graph.kind?, Graph.lookup?_empty]

/-- Only the rules of an accepted table leave anything behind. -/
theorem problems_eq (h : t.Accepted) :
    t.declare.problems = (t.declare.registry.declareRules 0 t.rules .empty).2 := by
  have hproblems : t.declare.problems =
      (Registry.empty.declareTypes 0 t.types).2 ++
        ((Registry.empty.declareTypes 0 t.types).1.declareAliases t.aliases).2 ++
        (t.declare.registry.declareRules 0 t.rules .empty).2 := rfl
  rw [hproblems, h.types, h.aliases]
  rfl

theorem not_isError (h : t.Accepted) : ∀ d ∈ t.declare.problems, d.severity.isError = false := by
  rw [h.problems_eq]
  exact (Registry.declareRules_of_accepts h.rules 0 .empty).2.1

end Table.Accepted

end Coercion
