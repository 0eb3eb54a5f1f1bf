import Coercion.Proofs.LastWrite
import Coercion.Proofs.Selection.Cost
import Coercion.Stress.Query
import Mathlib.Data.List.Basic

/-!
# Random questions

A number drawn below a bound is below it (`Pcg.below_lt`), and a drawn order is an order (`Pcg.permutation_perm`).  So
the questions of a stress run are as many as asked for, and ask about types of the pool only (`over_of_mem_queries`).

The answer to such a question is determined by the kinds of the pairs of pool types: two managers that agree on these
give the same answer (`Query.ask_congr`), and if the types are valid, they do give one (`Query.exists_ask_eq_ok`).
-/

namespace Coercion

/-! ### Random numbers -/

namespace Number.Pcg

private theorem draw_lt (g : Pcg) : g.draw.1 < wordCount := g.next.output.toNat_lt

/-- A scaled word is below the bound. -/
private theorem scaled_lt {x n : Nat} (hx : x < wordCount) (hn : 0 < n) : x * n / wordCount < n := by
  rw [Nat.div_lt_iff_lt_mul (by decide), Nat.mul_comm n]
  exact Nat.mul_lt_mul_of_pos_right hx hn

private theorem drawScaled_lt {n : Nat} (hn : 0 < n) (limit fuel : Nat) (g : Pcg) :
    (drawScaled n limit fuel g).1 < n := by
  induction fuel generalizing g with
  | zero => exact scaled_lt g.draw_lt hn
  | succ fuel ih =>
    unfold drawScaled
    simp only
    split
    · exact ih _
    · exact scaled_lt g.draw_lt hn

theorem below_lt {n : Nat} (hn : 0 < n) (g : Pcg) : (g.below n).1 < n := by
  unfold below
  split
  · exact Nat.mod_lt _ hn
  · exact drawScaled_lt hn _ _ g

private theorem shuffle_perm (g : Pcg) (order : Array Nat) (i : Nat) : (shuffle g order i).Perm order := by
  induction i generalizing g order with
  | zero => exact .refl _
  | succ i ih =>
    unfold shuffle
    simp only
    refine (ih _ _).trans ?_
    unfold Array.swapIfInBounds
    split
    · split
      · exact Array.swap_perm _ _
      · exact .refl _
    · exact .refl _

/-- A drawn order has every number once. -/
theorem permutation_perm (g : Pcg) (n : Nat) : (g.permutation n).Perm (List.range n) := by
  have h := (shuffle_perm g (Array.range n) (n - 1)).toList
  rwa [Array.toList_range] at h

end Number.Pcg

namespace Stress

open Number (Pcg)

/-! ### Drawing -/

variable {α : Type} {one : Pcg → α × Pcg}

private theorem length_drawOnto (n : Nat) (drawn : List α) (g : Pcg) :
    (drawOnto one n drawn g).1.length = n + drawn.length := by
  induction n generalizing drawn g with
  | zero => simp [drawOnto]
  | succ n ih =>
    rw [drawOnto, ih, List.length_cons]
    omega

private theorem length_drawMany (n : Nat) (g : Pcg) : (drawMany one n g).1.length = n := length_drawOnto n [] g

private theorem forall_drawOnto {p : α → Prop} (hone : ∀ g, p (one g).1) (n : Nat) {drawn : List α}
    (hdrawn : ∀ a ∈ drawn, p a) (g : Pcg) : ∀ a ∈ (drawOnto one n drawn g).1, p a := by
  induction n generalizing drawn g with
  | zero => simpa [drawOnto] using hdrawn
  | succ n ih => exact ih (List.forall_mem_cons.2 ⟨hone g, hdrawn⟩) _

private theorem forall_drawMany {p : α → Prop} (hone : ∀ g, p (one g).1) (n : Nat) (g : Pcg) :
    ∀ a ∈ (drawMany one n g).1, p a :=
  forall_drawOnto hone n (by simp) g

private theorem drawType_mem {pool : Array TypeId} (hpool : 0 < pool.size) (g : Pcg) : (drawType pool g).1 ∈ pool := by
  have hlt : (g.below pool.size).1 < pool.size := Pcg.below_lt hpool g
  unfold drawType
  simp only [Array.getD_eq_getD_getElem?, Array.getElem?_eq_getElem hlt, Option.getD_some]
  exact Array.getElem_mem hlt

/-- All types of a question are in the pool, and its candidates have as many parameters as it has arguments. -/
def Query.Over (pool : List TypeId) : Query → Prop
  | .pair p => p.source ∈ pool ∧ p.target ∈ pool
  | .select args overloads =>
    (∀ t ∈ args, t ∈ pool) ∧ ∀ params ∈ overloads, params.length = args.length ∧ ∀ t ∈ params, t ∈ pool

private theorem over_drawQuery {pool : List TypeId} (hpool : pool ≠ []) (arity overloads : Nat) (g : Pcg) :
    (drawQuery pool.toArray arity overloads g).1.Over pool := by
  have hone : ∀ g, (drawType pool.toArray g).1 ∈ pool := fun g =>
    List.mem_toArray.1 (drawType_mem (by simpa using List.length_pos_iff.2 hpool) g)
  unfold drawQuery
  simp only
  split
  · exact ⟨hone _, hone _⟩
  · refine ⟨forall_drawMany hone _ _, fun params hparams => ?_⟩
    rw [length_drawMany]
    exact forall_drawMany (p := fun params => params.length = arity ∧ ∀ t ∈ params, t ∈ pool)
      (fun g => ⟨length_drawMany _ g, forall_drawMany hone _ g⟩) _ _ params hparams

theorem length_queries (seed : UInt64) (pool : List TypeId) (n arity overloads : Nat) :
    (queries seed pool n arity overloads).length = n := length_drawMany _ _

theorem over_of_mem_queries {pool : List TypeId} (hpool : pool ≠ []) {seed : UInt64} {n arity overloads : Nat} :
    ∀ q ∈ queries seed pool n arity overloads, q.Over pool :=
  forall_drawMany (over_drawQuery hpool arity overloads) _ _

theorem workerOrder_perm (seed : UInt64) (worker n : Nat) : (workerOrder seed worker n).Perm (List.range n) :=
  Pcg.permutation_perm _ n

/-! ### Answers -/

namespace Query

variable {pool : List TypeId} {m m' : Manager}

/-- Two managers agree on a pool: they have the same kinds for its pairs. -/
def Agree (pool : List TypeId) (m m' : Manager) : Prop :=
  ∀ p : Pair, p.source ∈ pool → p.target ∈ pool → m'.kindOf p = m.kindOf p

private theorem kinds_of_agree (h : Agree pool m m') {args params : Signature} (hargs : ∀ t ∈ args, t ∈ pool)
    (hparams : ∀ t ∈ params, t ∈ pool) : m'.kinds args params = m.kinds args params := by
  induction args generalizing params with
  | nil => rfl
  | cons a args ih =>
    obtain _ | ⟨b, params⟩ := params
    · rfl
    · obtain ⟨ha, hargs⟩ := List.forall_mem_cons.1 hargs
      obtain ⟨hb, hparams⟩ := List.forall_mem_cons.1 hparams
      rw [Manager.kinds_cons, Manager.kinds_cons, h ⟨a, b⟩ ha hb, ih hargs hparams]

private theorem eligible_of_over (hvalid : ∀ t ∈ pool, t.valid = true) {args : Signature} {overloads : List Signature}
    (hq : (select args overloads).Over pool) : args.Valid ∧ Manager.Eligible args overloads :=
  ⟨fun t ht => hvalid t (hq.1 t ht), fun params hparams =>
    ⟨fun t ht => hvalid t ((hq.2 params hparams).2 t ht), (hq.2 params hparams).1⟩⟩

/-- A question about valid types has an answer. -/
theorem exists_ask_eq_ok (hvalid : ∀ t ∈ pool, t.valid = true) (m : Manager) (allowLossy : Bool) {q : Query}
    (hq : q.Over pool) : ∃ a, q.ask m allowLossy = .ok a := by
  cases q with
  | pair p =>
    refine ⟨.kind (m.kindOf p), ?_⟩
    rw [ask, Manager.compatible_eq_ok m (hvalid _ hq.1) (hvalid _ hq.2)]
    rfl
  | select args overloads =>
    obtain ⟨hargs, hov⟩ := eligible_of_over hvalid hq
    rw [ask, Manager.select, m.selectFrom_eq_ok allowLossy hargs hov]
    exact ⟨_, rfl⟩

/-- Managers that agree on a pool give the same answer to a question over it. -/
theorem ask_congr (hvalid : ∀ t ∈ pool, t.valid = true) (h : Agree pool m m') (allowLossy : Bool) {q : Query}
    (hq : q.Over pool) : q.ask m' allowLossy = q.ask m allowLossy := by
  cases q with
  | pair p =>
    obtain ⟨hs, ht⟩ := hq
    rw [ask, ask, Manager.compatible_eq_ok m' (hvalid _ hs) (hvalid _ ht),
      Manager.compatible_eq_ok m (hvalid _ hs) (hvalid _ ht), h p hs ht]
  | select args overloads =>
    obtain ⟨hargs, hov⟩ := eligible_of_over hvalid hq
    have hratings : overloads.map (m'.ratingOf allowLossy args) = overloads.map (m.ratingOf allowLossy args) := by
      refine List.map_congr_left fun params hparams => ?_
      exact Manager.ratingOf_congr (kinds_of_agree h hq.1 (hq.2 params hparams).2) allowLossy
    rw [ask, ask, Manager.select, Manager.select, m'.selectFrom_eq_ok allowLossy hargs hov,
      m.selectFrom_eq_ok allowLossy hargs hov, hratings]

end Query

end Stress

end Coercion
