import Coercion.Proofs.Graph.Propagation
import Coercion.Proofs.LastWrite
import Mathlib.Data.List.Induction

/-!
# Declaring again after a closure

A later declaration of a pair replaces the earlier one.  What was derived from the earlier one stays: a closure only
adds relations and improves them.  So after any history that ends with a closure the graph lies between two others,
both closed from declarations alone: it is at least as good as the one of the declarations in force
(`within_of_inForce`), and its relations are paths of conversions that were declared at some time
(`transGen_declaredWithin`).

It is the graph of the declarations in force if no declaration after a closure is worse than what the graph holds for
its pair (`transGen_inForce`).  Without this condition it need not be (`propagate_keeps_replaced_kind`).
-/

namespace Coercion

/-- The records that no later record of the same pair replaces. -/
def Record.latest : List Record → List Record
  | [] => []
  | r :: rs => if rs.any (·.pair == r.pair) then latest rs else r :: latest rs

private theorem Record.last?_latest (rs : List Record) (p : Pair) : last? (latest rs) p = last? rs p := by
  induction rs with
  | nil => rfl
  | cons r rs ih =>
    unfold latest
    split
    · rename_i hany
      rw [ih, last?_cons]
      by_cases hp : r.pair = p
      · -- the pair has a later record
        subst hp
        obtain ⟨k, hk⟩ := exists_last?_eq_some_iff.2 (show r.pair ∈ rs.map (·.pair) by simpa using hany)
        simp [hk]
      · simp [hp]
    · rw [last?_cons, last?_cons, ih]

private theorem Record.mem_of_last?_eq_some {rs : List Record} {p : Pair} {k : Kind} (h : last? rs p = some k) :
    ⟨p, k⟩ ∈ rs := by
  obtain ⟨r, hr, rfl⟩ := Option.map_eq_some_iff.1 h
  have hp : r.pair = p := by simpa using List.find?_some hr
  subst hp
  exact List.mem_reverse.1 (List.mem_of_find?_eq_some hr)

private theorem Record.mem_of_mem_latest {rs : List Record} {r : Record} (h : r ∈ latest rs) : r ∈ rs := by
  induction rs with
  | nil => exact h
  | cons r' rs ih =>
    unfold latest at h
    split at h
    · exact List.mem_cons_of_mem _ (ih h)
    · rcases List.mem_cons.1 h with rfl | h
      · exact List.mem_cons_self
      · exact List.mem_cons_of_mem _ (ih h)

namespace Graph

/-! ### Declarations of a history -/

/-- The declarations among some actions that are not refused, in order. -/
def accepted (actions : List Action) : List Record :=
  actions.filterMap fun
    | .insert p k => if refusal? p k = none then some ⟨p, k⟩ else none
    | .propagate => none

/-- The kind that is declared for a pair by the last of its declarations. -/
def inForce (actions : List Action) (p : Pair) : Option Kind := Record.last? (accepted actions) p

/-- The graph that is made by the last declaration of each pair, and closed once. -/
def renewed (actions : List Action) : Graph :=
  history ((Record.latest (accepted actions)).map (fun r => .insert r.pair r.kind) ++ [.propagate])

/-- A declaration of a code up to `c` leads from `i` to `j`, be it replaced later or not. -/
def DeclaredWithin (actions : List Action) (c : Nat) (i j : TypeId) : Prop :=
  ∃ r ∈ accepted actions, r.pair = ⟨i, j⟩ ∧ r.kind.code ≤ c

/-- No declaration that follows a closure is worse than what the graph holds for its pair at that time. -/
def NeverWorsens (actions : List Action) : Prop :=
  ∀ before after p k held, actions = before ++ .insert p k :: after → .propagate ∈ before → refusal? p k = none →
    (history before).kind? p = some held → k.code ≤ held.code

variable {actions : List Action} {p : Pair} {k : Kind} {c : Nat} {i j : TypeId}

theorem history_append (actions : List Action) (a : Action) :
    history (actions ++ [a]) = (history actions).perform a := by
  simp [history]

theorem history_append_propagate (actions : List Action) :
    history (actions ++ [.propagate]) = (history actions).propagate.1 := history_append _ _

private theorem kind?_history_append_insert (actions : List Action) (p : Pair) (k : Kind) (q : Pair) :
    (history (actions ++ [.insert p k])).kind? q =
      if refusal? p k = none ∧ p = q then some k else (history actions).kind? q := by
  rw [history_append, kind?, lookup?_perform_insert]
  split <;> rfl

private theorem accepted_append_insert (actions : List Action) (p : Pair) (k : Kind) :
    accepted (actions ++ [.insert p k]) = accepted actions ++ if refusal? p k = none then [⟨p, k⟩] else [] := by
  unfold accepted
  rw [List.filterMap_append]
  by_cases h : refusal? p k = none <;> simp [h]

@[simp] theorem accepted_append_propagate (actions : List Action) :
    accepted (actions ++ [.propagate]) = accepted actions := by
  simp [accepted]

theorem inForce_append_insert (actions : List Action) (p : Pair) (k : Kind) (q : Pair) :
    inForce (actions ++ [.insert p k]) q = if refusal? p k = none ∧ p = q then some k else inForce actions q := by
  unfold inForce
  rw [accepted_append_insert]
  by_cases h : refusal? p k = none
  · rw [if_pos h, Record.last?_append, Record.last?_singleton]
    simp only [h, true_and]
    by_cases hpq : p = q <;> simp [hpq]
  · simp [h]

@[simp] theorem inForce_append_propagate (actions : List Action) :
    inForce (actions ++ [.propagate]) = inForce actions := by
  funext q
  rw [inForce, accepted_append_propagate]
  rfl

/-- Until the first closure a graph holds the declarations in force, and nothing else. -/
theorem lookup?_history_of_not_mem (h : .propagate ∉ actions) (p : Pair) :
    (history actions).lookup? p = (inForce actions p).map fun k => { kind := k } := by
  induction actions using List.reverseRecOn with
  | nil => exact lookup?_empty p
  | append_singleton actions a ih =>
    rw [List.mem_append, not_or] at h
    cases a with
    | insert q k =>
      rw [history_append, lookup?_perform_insert, inForce_append_insert]
      split
      · rfl
      · exact ih h.1
    | propagate => exact absurd (List.mem_singleton_self _) h.2

theorem kind?_history_of_not_mem (h : .propagate ∉ actions) : (history actions).kind? = inForce actions := by
  funext p
  rw [kind?, lookup?_history_of_not_mem h, Option.map_map]
  exact Option.map_id'

private theorem refusal?_of_mem_accepted {r : Record} (h : r ∈ accepted actions) : refusal? r.pair r.kind = none := by
  obtain ⟨a, -, ha⟩ := List.mem_filterMap.1 h
  cases a with
  | insert p k =>
    by_cases hr : refusal? p k = none
    · simp only [hr, if_true, Option.some.injEq] at ha
      rw [← ha]
      exact hr
    · simp [hr] at ha
  | propagate => cases ha

private theorem accepted_map_insert {rs : List Record} (h : ∀ r ∈ rs, refusal? r.pair r.kind = none) :
    accepted (rs.map fun r => .insert r.pair r.kind) = rs := by
  unfold accepted
  rw [List.filterMap_map]
  conv_rhs => rw [← List.filterMap_some (l := rs)]
  apply List.filterMap_congr
  intro r hr
  simp [h r hr]

/-! ### Closures and paths -/

private theorem within_history_append_propagate_iff (hij : i ≠ j) :
    Within (history (actions ++ [.propagate])).kind? c i j ↔
      Relation.TransGen (Within (history actions).kind? c) i j := by
  rw [history_append_propagate]
  exact (wellFormed_history actions).within_propagate_iff hij c

private theorem ne_of_within_history (h : Within (history actions).kind? c i j) : i ≠ j := by
  rw [kind?_eq_kindsOf] at h
  exact (wellFormed_history actions).irreflexive.ne_of_within h

private theorem within_renewed_iff (hij : i ≠ j) :
    Within (renewed actions).kind? c i j ↔ Relation.TransGen (Within (inForce actions) c) i j := by
  have hok : ∀ r ∈ Record.latest (accepted actions), refusal? r.pair r.kind = none :=
    fun r hr => refusal?_of_mem_accepted (Record.mem_of_mem_latest hr)
  unfold renewed
  rw [within_history_append_propagate_iff hij, kind?_history_of_not_mem (by simp)]
  have hsame : inForce ((Record.latest (accepted actions)).map fun r => .insert r.pair r.kind) = inForce actions := by
    funext q
    rw [inForce, accepted_map_insert hok, Record.last?_latest]
    rfl
  rw [hsame]

/-! ### What a history keeps -/

/-- A declaration in force is held, by its own kind or by a better one. -/
theorem within_of_inForce (h : Within (inForce actions) c i j) : Within (history actions).kind? c i j := by
  induction actions using List.reverseRecOn generalizing i j with
  | nil =>
    obtain ⟨k, hk, -⟩ := h
    cases hk
  | append_singleton actions a ih =>
    cases a with
    | insert p k =>
      obtain ⟨k', hk', hle⟩ := h
      rw [inForce_append_insert] at hk'
      unfold Within
      rw [kind?_history_append_insert]
      split at hk'
      · rename_i hp
        exact ⟨k', by rw [if_pos hp, hk'], hle⟩
      · rename_i hp
        rw [if_neg hp]
        exact ih ⟨k', hk', hle⟩
    | propagate =>
      rw [inForce_append_propagate] at h
      have hheld := ih h
      exact (within_history_append_propagate_iff (ne_of_within_history hheld)).2 (.single hheld)

/-- What a graph holds is a path of conversions that were declared at some time. -/
theorem transGen_declaredWithin (h : Within (history actions).kind? c i j) :
    Relation.TransGen (DeclaredWithin actions c) i j := by
  induction actions using List.reverseRecOn generalizing i j with
  | nil =>
    obtain ⟨k, hk, -⟩ := h
    simp [history, kind?, lookup?_empty] at hk
  | append_singleton actions a ih =>
    cases a with
    | insert p k =>
      have hmono : ∀ a b, DeclaredWithin actions c a b → DeclaredWithin (actions ++ [.insert p k]) c a b := by
        rintro a b ⟨r, hr, hdeclared⟩
        exact ⟨r, by rw [accepted_append_insert]; exact List.mem_append_left _ hr, hdeclared⟩
      obtain ⟨k', hk', hle⟩ := h
      rw [kind?_history_append_insert] at hk'
      split at hk'
      · rename_i hp
        obtain ⟨hok, rfl⟩ := hp
        cases hk'
        exact .single ⟨⟨_, k⟩, by simp [accepted_append_insert, hok], rfl, hle⟩
      · exact Relation.TransGen.mono hmono _ _ (ih ⟨k', hk', hle⟩)
    | propagate =>
      have hpath := (within_history_append_propagate_iff (ne_of_within_history h)).1 h
      unfold DeclaredWithin
      rw [accepted_append_propagate]
      exact Relation.TransGen.closed (fun a b hab => ih hab) _ _ hpath

private theorem NeverWorsens.of_append {a : Action} (h : NeverWorsens (actions ++ [a])) : NeverWorsens actions := by
  intro before after p k held hsplit
  refine h before (after ++ [a]) p k held ?_
  rw [hsplit]
  simp

/-- As long as nothing is worsened after a closure, what a graph holds is a path of declarations in force. -/
theorem transGen_inForce (hworse : NeverWorsens actions) (h : Within (history actions).kind? c i j) :
    Relation.TransGen (Within (inForce actions) c) i j := by
  induction actions using List.reverseRecOn generalizing i j with
  | nil =>
    obtain ⟨k, hk, -⟩ := h
    simp [history, kind?, lookup?_empty] at hk
  | append_singleton actions a ih =>
    cases a with
    | insert p k =>
      by_cases hclosed : .propagate ∈ actions
      · -- a replaced declaration was no better than the kind held, and so no better than the new one
        have hkeep : ∀ a b, Within (inForce actions) c a b → Within (inForce (actions ++ [.insert p k])) c a b := by
          intro a b hab
          unfold Within
          rw [inForce_append_insert]
          split
          · rename_i hp
            obtain ⟨hok, rfl⟩ := hp
            obtain ⟨held, hheld, hle⟩ := within_of_inForce hab
            have hbetter := hworse actions [] _ k held rfl hclosed hok hheld
            exact ⟨k, rfl, Nat.le_trans hbetter hle⟩
          · exact hab
        obtain ⟨k', hk', hle⟩ := h
        rw [kind?_history_append_insert] at hk'
        split at hk'
        · rename_i hp
          exact .single ⟨k', by rw [inForce_append_insert, if_pos hp, hk'], hle⟩
        · exact Relation.TransGen.mono hkeep _ _ (ih hworse.of_append ⟨k', hk', hle⟩)
      · have hopen : .propagate ∉ actions ++ [.insert p k] := by simp [hclosed]
        rw [kind?_history_of_not_mem hopen] at h
        exact .single h
    | propagate =>
      have hpath := (within_history_append_propagate_iff (ne_of_within_history h)).1 h
      rw [inForce_append_propagate]
      exact Relation.TransGen.closed (fun a b hab => ih hworse.of_append hab) _ _ hpath

/-! ### Closing again -/

private theorem eq_of_within_iff {step step' : Pair → Option Kind} (h : ∀ c, Within step c i j ↔ Within step' c i j) :
    step ⟨i, j⟩ = step' ⟨i, j⟩ := by
  cases hk : step ⟨i, j⟩ with
  | none =>
    cases hk' : step' ⟨i, j⟩ with
    | none => rfl
    | some k' =>
      obtain ⟨k, hheld, -⟩ := (h _).2 ⟨k', hk', Nat.le_refl _⟩
      rw [hk] at hheld
      cases hheld
  | some k =>
    obtain ⟨k', hk', hle⟩ := (h _).1 ⟨k, hk, Nat.le_refl _⟩
    obtain ⟨k'', hk'', hle'⟩ := (h _).2 ⟨k', hk', Nat.le_refl _⟩
    rw [hk] at hk''
    obtain rfl := Option.some.inj hk''
    rw [hk', Kind.code_injective (Nat.le_antisymm hle hle')]

private theorem within_of_renewed (h : Within (renewed actions).kind? c i j) :
    Within (history (actions ++ [.propagate])).kind? c i j := by
  have hij : i ≠ j := ne_of_within_history h
  rw [within_history_append_propagate_iff hij]
  exact Relation.TransGen.mono (fun a b hab => within_of_inForce hab) _ _ ((within_renewed_iff hij).1 h)

private theorem kind?_history_eq_renewed (h : NeverWorsens actions) (p : Pair) :
    (history (actions ++ [.propagate])).kind? p = (renewed actions).kind? p := by
  obtain ⟨i, j⟩ := p
  apply eq_of_within_iff
  intro c
  refine ⟨fun hheld => ?_, within_of_renewed⟩
  have hij : i ≠ j := ne_of_within_history hheld
  rw [within_renewed_iff hij]
  rw [within_history_append_propagate_iff hij] at hheld
  exact Relation.TransGen.closed (fun a b hab => transGen_inForce h hab) _ _ hheld

/-- After a history that ends with a closure, every pair that the declarations in force join is held, by no worse a kind
than they give; what is held is a path of conversions declared at some time; and if no declaration after a closure was
worse than what the graph held for its pair, then the kinds are those of the declarations in force. -/
theorem propagate_reflects_declarations (actions : List Action) :
    (∀ p k, (renewed actions).kind? p = some k →
      ∃ held, (history (actions ++ [.propagate])).kind? p = some held ∧ held.code ≤ k.code) ∧
    (∀ i j held, (history (actions ++ [.propagate])).kind? ⟨i, j⟩ = some held →
      Relation.TransGen (DeclaredWithin actions held.code) i j) ∧
    (NeverWorsens actions → ∀ p, (history (actions ++ [.propagate])).kind? p = (renewed actions).kind? p) := by
  refine ⟨?_, ?_, kind?_history_eq_renewed⟩
  · intro p k hk
    exact within_of_renewed (i := p.source) (j := p.target) ⟨k, hk, Nat.le_refl _⟩
  · intro i j held hheld
    have hwithin : Within (history (actions ++ [.propagate])).kind? held.code i j := ⟨held, hheld, Nat.le_refl _⟩
    have hpath := transGen_declaredWithin hwithin
    unfold DeclaredWithin at hpath
    rwa [accepted_append_propagate] at hpath

/-! ### Two histories -/

private theorem eq_some_of_least {step : Pair → Option Kind} (h : Within step k.code i j)
    (hleast : ∀ c, Within step c i j → k.code ≤ c) : step ⟨i, j⟩ = some k := by
  obtain ⟨k', hk', hle⟩ := h
  have hge : k.code ≤ k'.code := hleast _ ⟨k', hk', Nat.le_refl _⟩
  rw [hk', Kind.code_injective (Nat.le_antisymm hle hge)]

private theorem code_promote_le (h : Within (history actions).kind? c i j) : Kind.promote.code ≤ c := by
  obtain ⟨k, hk, hle⟩ := h
  obtain ⟨r, hr, rfl⟩ := Option.map_eq_some_iff.1 hk
  have hconversion := (wellFormed_history actions).conversions _ _ hr
  have hpromote : ∀ k : Kind, k.isConversion → Kind.promote.code ≤ k.code := by
    intro k hk
    cases k <;> first | decide | cases hk
  exact Nat.le_trans (hpromote _ hconversion) hle

/-- A conversion improves after a closure. -/
def improvedAfterClosure : List Action :=
  [.insert ⟨⟨0⟩, ⟨1⟩⟩ .safe, .propagate, .insert ⟨⟨0⟩, ⟨1⟩⟩ .promote]

/-- Closing again after an improvement gives the graph of the declarations in force. -/
theorem propagate_improvedAfterClosure : NeverWorsens improvedAfterClosure ∧
    ∀ p, (history (improvedAfterClosure ++ [.propagate])).kind? p = (renewed improvedAfterClosure).kind? p := by
  have hworse : NeverWorsens improvedAfterClosure := by
    intro before after p k held hsplit hclosed _ hheld
    have hk : k = .promote := by
      -- the closure stands before the declaration, so it is the last one
      rcases before with _ | ⟨a, _ | ⟨b, _ | ⟨c, before⟩⟩⟩ <;> simp_all [improvedAfterClosure]
    subst hk
    exact code_promote_le (i := p.source) (j := p.target) ⟨held, hheld, Nat.le_refl _⟩
  exact ⟨hworse, (propagate_reflects_declarations improvedAfterClosure).2.2 hworse⟩

/-- Two conversions in a row. -/
def twoInARow : List Action := [.insert ⟨⟨0⟩, ⟨1⟩⟩ .promote, .insert ⟨⟨1⟩, ⟨2⟩⟩ .promote]

/-- The second of two conversions in a row worsens after a closure. -/
def worsenedAfterClosure : List Action := twoInARow ++ [.propagate] ++ [.insert ⟨⟨1⟩, ⟨2⟩⟩ .lossy]

/-- What was derived from a declaration outlives it: the two conversions in a row still count as a promotion, although
the second is lossy by now. -/
theorem propagate_keeps_replaced_kind :
    (history (worsenedAfterClosure ++ [.propagate])).kind? ⟨⟨0⟩, ⟨2⟩⟩ = some .promote ∧
      (renewed worsenedAfterClosure).kind? ⟨⟨0⟩, ⟨2⟩⟩ = some .lossy := by
  have hne : (⟨0⟩ : TypeId) ≠ ⟨2⟩ := by decide
  constructor
  · apply eq_some_of_least
    · -- joined by the first closure, untouched by the declaration, kept by the second closure
      have hfirst : Within (history (twoInARow ++ [.propagate])).kind? Kind.promote.code ⟨0⟩ ⟨2⟩ := by
        rw [within_history_append_propagate_iff hne, kind?_history_of_not_mem (by decide)]
        exact .tail (b := ⟨1⟩) (.single ⟨.promote, by decide, by decide⟩) ⟨.promote, by decide, by decide⟩
      rw [within_history_append_propagate_iff hne]
      refine .single ?_
      obtain ⟨k, hk, hle⟩ := hfirst
      refine ⟨k, ?_, hle⟩
      rw [worsenedAfterClosure, kind?_history_append_insert, if_neg (by decide), hk]
    · exact fun c => code_promote_le
  · apply eq_some_of_least
    · rw [within_renewed_iff hne]
      exact .tail (b := ⟨1⟩) (.single ⟨.promote, by decide, by decide⟩) ⟨.lossy, by decide, by decide⟩
    · intro c h
      rw [within_renewed_iff hne] at h
      -- the last step of a path ends in the third type, and only the lossy conversion does
      obtain ⟨m, -, k, hk, hle⟩ := Relation.TransGen.tail'_iff.1 h
      rw [inForce, ← Record.last?_latest] at hk
      have hlatest : Record.latest (accepted worsenedAfterClosure) =
          [⟨⟨⟨0⟩, ⟨1⟩⟩, .promote⟩, ⟨⟨⟨1⟩, ⟨2⟩⟩, .lossy⟩] := by decide
      have hmem := Record.mem_of_last?_eq_some hk
      rw [hlatest] at hmem
      rcases List.mem_pair.1 hmem with heq | heq
      · cases heq
      · cases heq
        exact hle

end Graph

end Coercion
