import Coercion.Proofs.Graph.DeclarationOrder

/-!
# The parts of a graph stay in step

A graph keeps its types twice, as a list in the order of their appearance and as the set of those seen, and it keeps the
relations between them.  A declaration writes all three parts, a closure only the relations.  After any history they are
in step:

* the types listed are the types seen (`Listed`), and they are the ends of the relations
  (`mem_nodes_history_iff_exists_lookup?`);
* the relations tell which pairs were declared, even if a pair was derived first or has been improved since
  (`isDeclared_history_iff`), and this is what a declaration reports;
* a closure keeps every relation (`WellFormed.isSome_lookup?_propagate`).
-/

namespace Coercion

private theorem Kind.isConversion_iff {k : Kind} : k.isConversion = true ↔ k = .promote ∨ k = .safe ∨ k = .lossy := by
  cases k <;> simp [isConversion]

namespace Graph

/-- One of the actions declares the pair and is not refused at its time. -/
def DeclaredBy (actions : List Action) (p : Pair) : Prop :=
  ∃ before k after g replaced, actions = before ++ .insert p k :: after ∧
    (history before).insert p k = .ok (g, replaced)

variable {g : Graph} {actions : List Action} {p : Pair} {k : Kind} {t : TypeId}

/-! ### Refusals -/

private theorem insert_eq_error_iff {e : Refusal} : g.insert p k = .error e ↔ refusal? p k = some e := by
  unfold insert
  cases refusal? p k <;> simp

/-- A declaration is refused for its kind, for its types, or because it leads nowhere. -/
private theorem exists_insert_eq_error_iff :
    (∃ e, g.insert p k = .error e) ↔
      ¬(k = .promote ∨ k = .safe ∨ k = .lossy) ∨ ¬(p.source.valid ∧ p.target.valid) ∨ p.source = p.target := by
  simp only [insert_eq_error_iff, ← Option.ne_none_iff_exists', ne_eq, refusal?_eq_none, Kind.isConversion_iff]
  tauto

/-! ### Declarations -/

private theorem declaredBy_iff : DeclaredBy actions p ↔ p ∈ (accepted actions).map (·.pair) := by
  constructor
  · rintro ⟨before, k, after, g, replaced, rfl, h⟩
    obtain ⟨hok, -⟩ := insert_eq_ok h
    have hmem : (⟨p, k⟩ : Record) ∈ accepted (before ++ .insert p k :: after) :=
      List.mem_filterMap.2 ⟨.insert p k, by simp, if_pos hok⟩
    exact List.mem_map_of_mem hmem
  · intro h
    obtain ⟨r, hr, rfl⟩ := List.mem_map.1 h
    obtain ⟨a, ha, har⟩ := List.mem_filterMap.1 hr
    cases a with
    | propagate => cases har
    | insert q k =>
      obtain ⟨hok, heq⟩ := Option.ite_none_right_eq_some.1 har
      cases heq
      obtain ⟨before, after, rfl⟩ := List.append_of_mem ha
      obtain ⟨g, hg⟩ := exists_insert_eq_ok (history before) hok
      exact ⟨before, k, after, g, _, rfl, hg⟩

/-- A graph knows the pairs that were declared, whatever closures made of them since. -/
theorem isDeclared_history_iff : (history actions).isDeclared p = true ↔ DeclaredBy actions p := by
  have hp := remembers_history actions p
  rw [declaredBy_iff, ← inForce_isSome_iff, isDeclared_eq]
  generalize inForce actions p = last at hp ⊢
  generalize (history actions).lookup? p = held at hp ⊢
  cases hp <;> simp

/-! ### Types and relations -/

private theorem exists_lookup?_of_inForce (hk : inForce actions p = some k) :
    ∃ r, (history actions).lookup? p = some r := by
  have hp := remembers_history actions p
  rw [hk] at hp
  generalize (history actions).lookup? p = held at hp ⊢
  cases hp with
  | declared => exact ⟨_, rfl⟩
  | improved => exact ⟨_, rfl⟩

/-- The types of a graph are the ends of its relations. -/
theorem mem_nodes_history_iff_exists_lookup? :
    t ∈ (history actions).nodes ↔ ∃ p r, (history actions).lookup? p = some r ∧ (t = p.source ∨ t = p.target) := by
  constructor
  · intro ht
    -- a type is listed for a declaration, and of a pair that is declared something stays
    obtain ⟨p, ⟨k, hk⟩, hend⟩ := mem_nodes_history_iff.1 ht
    obtain ⟨r, hr⟩ := exists_lookup?_of_inForce hk
    exact ⟨p, r, hr, hend.symm⟩
  · rintro ⟨p, r, hr, hend⟩
    obtain ⟨hsource, htarget⟩ := (wellFormed_history actions).inside p r hr
    rcases hend with rfl | rfl
    · exact hsource
    · exact htarget

theorem WellFormed.isSome_lookup?_propagate (hg : g.WellFormed) (h : (g.lookup? p).isSome) :
    (g.propagate.1.lookup? p).isSome := by
  rw [hg.lookup?_propagate]
  exact foldl_detour_induction (P := fun rel => (rel p).isSome) (fun _ _ h => isSome_detour h) h _

/-- After any history the types are listed once; they are the types seen and the ends of the relations; and every
relation is a promotion, a safe or a lossy conversion between two different valid types.  A declaration is refused
exactly if it would be something else, and then changes nothing; one that is made reports that it replaces another
exactly if a declaration of its pair was made before.  A closure adds no type and removes no relation. -/
theorem history_keeps_parts_in_step (actions : List Action) :
    (history actions).nodes.Nodup ∧
    (∀ t, t ∈ (history actions).nodes ↔ t ∈ (history actions).seen) ∧
    (∀ t, t ∈ (history actions).nodes ↔
      ∃ p r, (history actions).lookup? p = some r ∧ (t = p.source ∨ t = p.target)) ∧
    (∀ p r, (history actions).lookup? p = some r →
      p.source ≠ p.target ∧ (p.source.valid ∧ p.target.valid) ∧
        (r.kind = .promote ∨ r.kind = .safe ∨ r.kind = .lossy)) ∧
    (∀ p k, (∃ e, (history actions).insert p k = .error e) ↔
      ¬(k = .promote ∨ k = .safe ∨ k = .lossy) ∨ ¬(p.source.valid ∧ p.target.valid) ∨ p.source = p.target) ∧
    (∀ p k e, (history actions).insert p k = .error e → history (actions ++ [.insert p k]) = history actions) ∧
    (∀ p k g replaced, (history actions).insert p k = .ok (g, replaced) →
      history (actions ++ [.insert p k]) = g ∧ (replaced = true ↔ DeclaredBy actions p)) ∧
    (history actions).propagate.1.nodes = (history actions).nodes ∧
    (history actions).propagate.1.seen = (history actions).seen ∧
    ∀ p, ((history actions).lookup? p).isSome → ((history actions).propagate.1.lookup? p).isSome := by
  have hg : (history actions).WellFormed := wellFormed_history actions
  refine ⟨hg.nodup, fun t => (hg.mem_seen t).symm, fun t => mem_nodes_history_iff_exists_lookup?, ?_,
    fun p k => exists_insert_eq_error_iff, ?_, ?_, rfl, rfl, fun p => hg.isSome_lookup?_propagate⟩
  · intro p r hr
    obtain ⟨hsource, htarget⟩ := hg.inside p r hr
    have hkind := Kind.isConversion_iff.1 (hg.conversions p r hr)
    exact ⟨hg.ne_of_lookup? hr, ⟨hg.valid _ hsource, hg.valid _ htarget⟩, hkind⟩
  · intro p k e he
    rw [history_append, perform_insert_of_refused]
    simp [insert_eq_error_iff.1 he]
  · intro p k g replaced h
    obtain ⟨-, -, -, rfl⟩ := insert_eq_ok h
    exact ⟨by simp only [history_append, perform, h], isDeclared_history_iff⟩

/-- Two conversions in a row, joined by a closure. -/
def joinedFirst : List Action := twoInARow ++ [.propagate]

/-- The pair that the closure has joined is declared, and improved by another closure. -/
def declaredAfterJoin : List Action := joinedFirst ++ [.insert ⟨⟨0⟩, ⟨2⟩⟩ .lossy, .propagate]

/-- The first declaration of a pair that was derived replaces none.  The second one replaces the first, although a
closure has put a better kind in its place. -/
theorem insert_joinedFirst :
    ((history joinedFirst).lookup? ⟨⟨0⟩, ⟨2⟩⟩).isSome ∧
    (∃ g, (history joinedFirst).insert ⟨⟨0⟩, ⟨2⟩⟩ .lossy = .ok (g, false)) ∧
    ∃ g, (history declaredAfterJoin).insert ⟨⟨0⟩, ⟨2⟩⟩ .safe = .ok (g, true) := by
  have hne : (⟨0⟩ : TypeId) ≠ ⟨2⟩ := by decide
  refine ⟨?_, ?_, ?_⟩
  · rw [joinedFirst, history_append_propagate, (wellFormed_history twoInARow).isSome_propagate_iff hne,
      kind?_history_of_not_mem (by decide)]
    exact ⟨[.promote, .promote], .cons (m := ⟨1⟩) (by decide) (.single (by decide))⟩
  · obtain ⟨-, -, -, -, -, -, hmade, -⟩ := history_keeps_parts_in_step joinedFirst
    have hok : refusal? ⟨⟨0⟩, ⟨2⟩⟩ .lossy = none := by decide
    obtain ⟨g, hg⟩ := exists_insert_eq_ok (history joinedFirst) hok
    have hnew : ¬DeclaredBy joinedFirst ⟨⟨0⟩, ⟨2⟩⟩ := by
      rw [declaredBy_iff]
      decide
    rw [Bool.eq_false_iff.2 (mt (hmade _ _ _ _ hg).2.1 hnew)] at hg
    exact ⟨g, hg⟩
  · obtain ⟨-, -, -, -, -, -, hmade, -⟩ := history_keeps_parts_in_step declaredAfterJoin
    have hok : refusal? ⟨⟨0⟩, ⟨2⟩⟩ .safe = none := by decide
    obtain ⟨g, hg⟩ := exists_insert_eq_ok (history declaredAfterJoin) hok
    have hold : DeclaredBy declaredAfterJoin ⟨⟨0⟩, ⟨2⟩⟩ := by
      rw [declaredBy_iff]
      decide
    rw [(hmade _ _ _ _ hg).2.2 hold] at hg
    exact ⟨g, hg⟩

end Graph

end Coercion
