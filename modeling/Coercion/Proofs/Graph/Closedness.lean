import Coercion.Audit
import Coercion.Proofs.Graph.Application

/-!
# Closed graphs and closed tables

A closure that writes nothing changes nothing, since every change of a relation is logged (`close_of_writes_eq_nil`).
So a closure finds nothing to derive and nothing to improve exactly when the graph is closed at its types
(`WellFormed.propagate_idle_iff`).

The check of a table asks for every three types of a pool whether the third step is there and no worse than the two
before it (`Manager.exists_checkClosed_eq_ok`).  On the table of a graph, over its types, this is the question whether
the graph is closed (`WellFormed.exists_checkClosed_eq_ok`).
-/

namespace Coercion

namespace Graph

variable {g : Graph}

/-! ### Writes -/

/-- From `s` to `s'` something was logged, or nothing happened. -/
def Logged (s s' : Closing) : Prop := s' = s ∨ s.log.length < s'.log.length

private theorem Logged.trans {s s' s'' : Closing} (h : Logged s s') (h' : Logged s' s'') : Logged s s'' := by
  rcases h with rfl | h
  · exact h'
  · rcases h' with rfl | h'
    · exact Or.inr h
    · exact Or.inr (Nat.lt_trans h h')

private theorem logged_relax (s : Closing) (p : Pair) (a : Kind) : Logged s (relax s p a) := by
  unfold relax
  split
  · exact Or.inr (Nat.lt_succ_self _)
  · split
    · exact Or.inr (Nat.lt_succ_self _)
    · exact Or.inl rfl

/-- What every offer keeps, the offers of a closure keep. -/
theorem foldl_relaxThrough_induction {P : Closing → Prop} (hrelax : ∀ s p a, P s → P (relax s p a)) {s : Closing}
    (hs : P s) (nodes ks : List TypeId) : P (ks.foldl (fun s k => relaxThrough nodes k s) s) := by
  -- one induction for each of the three loops, from the outermost to the innermost
  refine List.foldlRecOn ks _ hs fun s hs k _ => List.foldlRecOn nodes _ hs fun s hs i _ => ?_
  split
  · exact hs
  · split
    · exact hs
    · refine List.foldlRecOn nodes _ hs fun s hs j _ => ?_
      split
      · exact hs
      · split
        · exact hs
        · exact hrelax _ _ _ hs

theorem close_of_writes_eq_nil (h : g.close.2 = []) : g.close.1 = g := by
  have hlogged : Logged ⟨g.relations, []⟩
      (g.sortedNodes.foldl (fun s k => relaxThrough g.sortedNodes k s) ⟨g.relations, []⟩) :=
    foldl_relaxThrough_induction (fun _ p a h => h.trans (logged_relax _ p a)) (Or.inl rfl) _ _
  rcases hlogged with hsame | hlonger
  · simp only [close, hsame]
  · have hlog := List.reverse_eq_nil_iff.1 h
    rw [hlog] at hlonger
    exact absurd hlonger (Nat.lt_irrefl 0)

private theorem propagate_idle_iff_writes :
    g.propagate.2.derived = 0 ∧ g.propagate.2.improved = 0 ↔ g.close.2 = [] := by
  show g.close.2.countP (·.fresh) = 0 ∧ g.close.2.countP (!·.fresh) = 0 ↔ _
  constructor
  · rintro ⟨hderived, himproved⟩
    have hlength := List.length_eq_countP_add_countP (l := g.close.2) (·.fresh)
    have hlater : g.close.2.countP (fun w => decide ¬w.fresh = true) = g.close.2.countP (!·.fresh) := by
      apply List.countP_congr
      intro w _
      cases w.fresh <;> simp
    rw [hlater] at hlength
    exact List.eq_nil_of_length_eq_zero (by omega)
  · intro h
    simp [h]

/-- A closure derives nothing and improves nothing if and only if the graph is closed at its types. -/
theorem WellFormed.propagate_idle_iff (hg : g.WellFormed) :
    g.propagate.2.derived = 0 ∧ g.propagate.2.improved = 0 ↔ ∀ k ∈ g.nodes, ClosedAt g.lookup? k := by
  rw [propagate_idle_iff_writes]
  constructor
  · intro h k hk
    have hsame : g.propagate.1.lookup? = g.lookup? := congrArg lookup? (close_of_writes_eq_nil h)
    rw [← hsame]
    exact hg.closedAt_propagate hk
  · intro h
    rw [close_of_closedAt fun k hk => h k (mem_sortedNodes.1 hk)]

end Graph

/-! ### The check of a table -/

namespace Manager

variable {m : Manager} {a b c : TypeId} {pool : List TypeId}

private theorem exists_firstFinding_eq_ok {α : Type} {f : α → Except Fault (Option Finding)} {P : α → Prop} {l : List α}
    (h : ∀ x ∈ l, ∃ found, f x = .ok found ∧ (found = none ↔ P x)) :
    ∃ found, firstFinding f l = .ok found ∧ (found = none ↔ ∀ x ∈ l, P x) := by
  induction l with
  | nil => exact ⟨none, rfl, by simp⟩
  | cons x l ih =>
    obtain ⟨found, hfound, hiff⟩ := h x List.mem_cons_self
    rw [firstFinding, hfound]
    cases found with
    | some finding =>
      refine ⟨some finding, rfl, ?_⟩
      have hno : ¬P x := fun hx => absurd (hiff.2 hx) (by simp)
      simp [hno]
    | none =>
      obtain ⟨found', hfound', hiff'⟩ := ih fun y hy => h y (List.mem_cons_of_mem _ hy)
      refine ⟨found', hfound', ?_⟩
      rw [hiff', List.forall_mem_cons]
      exact (and_iff_right (hiff.1 rfl)).symm

/-- Two conversions in a row through `b` make a conversion, no worse than the worse of the two. -/
def Closes (m : Manager) (a b c : TypeId) : Prop :=
  a ≠ b → c ≠ a → c ≠ b → (m.kindOf ⟨a, b⟩).isConversion → (m.kindOf ⟨b, c⟩).isConversion →
    (m.kindOf ⟨a, c⟩).isConversion ∧ (m.kindOf ⟨a, c⟩).code ≤ max (m.kindOf ⟨a, b⟩).code (m.kindOf ⟨b, c⟩).code

/-- Over valid types the check never faults, and it finds nothing exactly if all steps in a row are joined. -/
theorem exists_checkClosed_eq_ok (hpool : ∀ t ∈ pool, t.valid) :
    ∃ found, m.checkClosed pool = .ok found ∧
      (found = none ↔ ∀ a ∈ pool, ∀ b ∈ pool, ∀ c ∈ pool, m.Closes a b c) := by
  have hkind : ∀ s ∈ pool, ∀ t ∈ pool, m.compatible ⟨s, t⟩ = .ok (m.kindOf ⟨s, t⟩) :=
    fun s hs t ht => m.compatible_eq_ok (hpool s hs) (hpool t ht)
  unfold checkClosed
  apply exists_firstFinding_eq_ok
  intro a ha
  apply exists_firstFinding_eq_ok
  intro b hb
  rw [hkind a ha b hb]
  simp only [bind, Except.bind]
  split
  · rename_i hskip
    refine ⟨none, rfl, iff_of_true rfl ?_⟩
    intro c _ hab _ _ hconv
    simp [hab, hconv] at hskip
  · rename_i hab
    simp only [Bool.or_eq_true, decide_eq_true_eq, Bool.not_eq_true', not_or, Bool.not_eq_false] at hab
    apply exists_firstFinding_eq_ok
    intro c hc
    rw [hkind b hb c hc, hkind a ha c hc]
    dsimp only
    split
    · rename_i hskip
      refine ⟨none, rfl, iff_of_true rfl ?_⟩
      intro _ hca hcb _ _
      simp [hca, hcb] at hskip
    · rename_i hc
      simp only [Bool.or_eq_true, decide_eq_true_eq, not_or] at hc
      split
      · rename_i hskip
        refine ⟨none, rfl, iff_of_true rfl ?_⟩
        intro _ _ _ _ hconv
        simp [hconv] at hskip
      · rename_i hbc
        rw [Bool.not_eq_true', Bool.not_eq_false] at hbc
        split
        · rename_i hopen
          refine ⟨_, rfl, iff_of_false (by simp) ?_⟩
          intro h
          obtain ⟨hac, hle⟩ := h hab.1 hc.1 hc.2 hab.2 hbc
          simp [hac, Nat.not_lt.2 hle] at hopen
        · rename_i hjoined
          refine ⟨none, rfl, iff_of_true rfl ?_⟩
          intro _ _ _ _ _
          simp only [Bool.or_eq_true, Bool.not_eq_true', decide_eq_true_eq, not_or, Bool.not_eq_false,
            Kind.code_compose, Nat.not_lt] at hjoined
          exact hjoined

end Manager

/-! ### The table of a graph -/

namespace Graph.WellFormed

variable {g : Graph} {m : Manager} {pool : List TypeId}

theorem closes_of_closedAt (hg : g.WellFormed) (hm : m.table = .ofRecords g.registrations)
    (h : ∀ k ∈ g.nodes, ClosedAt g.lookup? k) (a b c : TypeId) : m.Closes a b c := by
  intro hab hca hcb hconv hconv'
  obtain ⟨first, hfirst⟩ := hg.exists_lookup?_of_kindOf hm hab (Kind.ne_noMatch_of_isConversion hconv)
  obtain ⟨second, hsecond⟩ := hg.exists_lookup?_of_kindOf hm (Ne.symm hcb) (Kind.ne_noMatch_of_isConversion hconv')
  rw [hg.kindOf_of_lookup? hm hfirst, hg.kindOf_of_lookup? hm hsecond]
  obtain ⟨r, hr, hle⟩ := within_kindsOf.1 <|
    h b (hg.inside _ _ hfirst).2 (max first.kind.code second.kind.code) a c (Ne.symm hca)
      (within_kindsOf.2 ⟨first, hfirst, Nat.le_max_left _ _⟩)
      (within_kindsOf.2 ⟨second, hsecond, Nat.le_max_right _ _⟩)
  rw [hg.kindOf_of_lookup? hm hr]
  exact ⟨hg.conversions _ _ hr, hle⟩

private theorem closedAt_of_closes (hg : g.WellFormed) (hm : m.table = .ofRecords g.registrations)
    (hpool : ∀ t ∈ g.nodes, t ∈ pool) (h : ∀ a ∈ pool, ∀ b ∈ pool, ∀ c ∈ pool, m.Closes a b c) {k : TypeId}
    (hk : k ∈ g.nodes) : ClosedAt g.lookup? k := by
  intro bound i j hij hik hkj
  obtain ⟨first, hfirst, hle⟩ := within_kindsOf.1 hik
  obtain ⟨second, hsecond, hle'⟩ := within_kindsOf.1 hkj
  have hi : i ∈ pool := hpool _ (hg.inside _ _ hfirst).1
  have hj : j ∈ pool := hpool _ (hg.inside _ _ hsecond).2
  have hcloses := h i hi k (hpool k hk) j hj (hg.ne_of_lookup? hfirst) (Ne.symm hij) (hg.ne_of_lookup? hsecond).symm
  rw [hg.kindOf_of_lookup? hm hfirst, hg.kindOf_of_lookup? hm hsecond] at hcloses
  obtain ⟨hconv, hcode⟩ := hcloses (hg.conversions _ _ hfirst) (hg.conversions _ _ hsecond)
  obtain ⟨r, hr⟩ := hg.exists_lookup?_of_kindOf hm hij (Kind.ne_noMatch_of_isConversion hconv)
  rw [hg.kindOf_of_lookup? hm hr] at hcode
  exact within_kindsOf.2 ⟨r, hr, by omega⟩

/-- The check of the table of a graph, over the types of the graph in whatever order and number, finds nothing exactly
if a closure of the graph has nothing to do. -/
theorem exists_checkClosed_eq_ok (hg : g.WellFormed) (hm : m.table = .ofRecords g.registrations)
    (hpool : ∀ t, t ∈ pool ↔ t ∈ g.nodes) :
    ∃ found, m.checkClosed pool = .ok found ∧
      (found = none ↔ g.propagate.2.derived = 0 ∧ g.propagate.2.improved = 0) := by
  obtain ⟨found, hfound, hiff⟩ := m.exists_checkClosed_eq_ok fun t ht => hg.valid t ((hpool t).1 ht)
  refine ⟨found, hfound, ?_⟩
  rw [hiff, hg.propagate_idle_iff]
  constructor
  · intro h k hk
    exact hg.closedAt_of_closes hm (fun t => (hpool t).2) h hk
  · intro h a _ b _ c _
    exact hg.closes_of_closedAt hm h a b c

end Graph.WellFormed

end Coercion
