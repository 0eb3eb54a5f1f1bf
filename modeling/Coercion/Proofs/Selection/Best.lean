import Coercion.Proofs.Selection.Cost
import Mathlib.Data.List.Induction

/-!
# The first of the cheapest candidates

A selection considers one candidate after the other.  After each of them it holds the first place and the number of the
least ratings so far, rejected candidates left aside (`Selection.Chosen.consider`, `Selection.chosen_foldl`).

Ratings are costs, so the selection names the first candidate of least cost among those that are admitted, and how many
share that cost; where none is admitted, it is empty.
-/

namespace Coercion

/-! ### The running best -/

/-- What a selection holds after the candidates of the given ratings. -/
inductive Selection.Chosen (rs : List Rating) : Selection → Prop
  | none (h : ∀ r ∈ rs, r = .impossible) : Chosen rs .none
  | best {r : Rating} (hmem : r ∈ rs) (hne : r ≠ .impossible)
      (hle : ∀ r' ∈ rs, r' ≠ .impossible → r.cost ≤ r'.cost) : Chosen rs ⟨rs.idxOf r, rs.count r, r⟩

namespace Selection

/-- A rating that beats those before it stands at its first place, alone. -/
private theorem chosen_append_of_lt {rs : List Rating} {r : Rating} (hne : r ≠ .impossible)
    (hlt : ∀ r' ∈ rs, r' ≠ .impossible → r.cost < r'.cost) : Chosen (rs ++ [r]) ⟨rs.length, 1, r⟩ := by
  have hnot : r ∉ rs := fun hmem => (hlt r hmem hne).false
  have hidx : (rs ++ [r]).idxOf r = rs.length := by simp [List.idxOf_append, hnot]
  have hcount : (rs ++ [r]).count r = 1 := by simp [List.count_eq_zero_of_not_mem hnot]
  have h : Chosen (rs ++ [r]) ⟨(rs ++ [r]).idxOf r, (rs ++ [r]).count r, r⟩ := by
    refine .best (by simp) hne (fun r' hr' hne' => ?_)
    rcases List.mem_append.1 hr' with hmem | hlast
    · exact (hlt r' hmem hne').le
    · rw [List.mem_singleton.1 hlast]
  rw [hidx, hcount] at h
  exact h

/-- The best rating so far keeps its place before one that is no better. -/
private theorem chosen_append_of_le {rs : List Rating} {b r : Rating} (hmem : b ∈ rs) (hne : b ≠ .impossible)
    (hle : ∀ r' ∈ rs, r' ≠ .impossible → b.cost ≤ r'.cost) (hr : r ≠ .impossible → b.cost ≤ r.cost) :
    Chosen (rs ++ [r]) ⟨rs.idxOf b, (rs ++ [r]).count b, b⟩ := by
  have h : Chosen (rs ++ [r]) ⟨(rs ++ [r]).idxOf b, (rs ++ [r]).count b, b⟩ := by
    refine .best (List.mem_append_left _ hmem) hne ?_
    exact List.forall_mem_append.2 ⟨hle, List.forall_mem_singleton.2 hr⟩
  rw [List.idxOf_append_of_mem hmem] at h
  exact h

theorem Chosen.consider {rs : List Rating} {s : Selection} (h : Chosen rs s) (r : Rating) :
    Chosen (rs ++ [r]) (s.consider rs.length r) := by
  unfold Selection.consider
  by_cases himp : r = .impossible
  · -- a rejected candidate changes nothing
    rw [if_pos ((Rating.isImpossible_iff r).2 himp)]
    cases h with
    | none h => exact .none (List.forall_mem_append.2 ⟨h, List.forall_mem_singleton.2 himp⟩)
    | @best b hmem hne hle =>
      have hrb : r ≠ b := fun hrb => hne (hrb ▸ himp)
      have hkeep := chosen_append_of_le hmem hne hle (fun hr => absurd himp hr)
      simpa [hrb] using hkeep
  · rw [if_neg (fun hi => himp ((Rating.isImpossible_iff r).1 hi))]
    cases h with
    | none h => exact chosen_append_of_lt himp (fun r' hr' hne' => absurd (h r' hr') hne')
    | @best b hmem hne hle =>
      have hpos : 0 < rs.count b := List.count_pos_iff.2 hmem
      have hzero : ¬(rs.count b : Int) = 0 := by omega
      simp only [hzero, decide_false, Bool.false_or, Rating.less_iff]
      by_cases hlt : r.cost < b.cost
      · rw [if_pos hlt]
        exact chosen_append_of_lt himp (fun r' hr' hne' => hlt.trans_le (hle r' hr' hne'))
      · rw [if_neg hlt]
        have hkeep := chosen_append_of_le hmem hne hle (fun _ => not_lt.1 hlt)
        by_cases heq : r = b
        · rw [if_pos heq]
          simpa [heq] using hkeep
        · rw [if_neg heq]
          simpa [heq] using hkeep

theorem chosen_foldl (rs : List Rating) :
    Chosen rs (rs.zipIdx.foldl (fun s c => s.consider c.2 c.1) .none) := by
  induction rs using List.reverseRecOn with
  | nil => exact .none (by simp)
  | append_singleton rs r ih =>
    rw [List.zipIdx_append, List.foldl_append]
    simpa using ih.consider r

theorem Chosen.count_nonneg {rs : List Rating} {s : Selection} (h : Chosen rs s) : 0 ≤ s.count := by
  cases h with
  | none _ => exact le_rfl
  | best _ _ _ => exact Int.natCast_nonneg _

/-- A selection that counts a candidate names one. -/
theorem Chosen.best_lt {rs : List Rating} {s : Selection} (h : Chosen rs s) (hcount : s.count ≠ 0) :
    s.best.toNat < rs.length := by
  cases h with
  | none _ => exact absurd rfl hcount
  | best hmem _ _ => exact List.idxOf_lt_length_of_mem hmem

end Selection

/-! ### Candidates of least cost -/

private theorem findIdx_congr {α : Type} {p q : α → Bool} {l : List α} (h : ∀ a ∈ l, p a = q a) :
    l.findIdx p = l.findIdx q := by
  induction l with
  | nil => rfl
  | cons a l ih =>
    obtain ⟨ha, hl⟩ := List.forall_mem_cons.1 h
    rw [List.findIdx_cons, List.findIdx_cons, ha, ih hl]

private theorem exists_getElem?_findIdx {α : Type} {p : α → Prop} [DecidablePred p] {l : List α} {a : α} (hmem : a ∈ l)
    (ha : p a) : ∃ b, l[l.findIdx p]? = some b ∧ p b ∧ ∀ j < l.findIdx p, ∀ c, l[j]? = some c → ¬p c := by
  have hlt : l.findIdx p < l.length := List.findIdx_lt_length_of_exists ⟨a, hmem, decide_eq_true ha⟩
  refine ⟨_, List.getElem?_eq_getElem hlt, ?_, fun j hj c hc hpc => ?_⟩
  · simpa using List.findIdx_getElem (w := hlt)
  · have hnot := List.not_of_lt_findIdx hj
    rw [(List.getElem?_eq_some_iff.1 hc).2] at hnot
    exact of_decide_eq_false hnot hpc

namespace Manager

/-- A candidate admits the call, and none of those that do costs less. -/
def Optimal (m : Manager) (allowLossy : Bool) (args : Signature) (overloads : List Signature) (params : Signature) :
    Prop :=
  m.Admits allowLossy args params ∧
    ∀ params' ∈ overloads, m.Admits allowLossy args params' → m.cost args params ≤ m.cost args params'

instance (m : Manager) (allowLossy : Bool) (args : Signature) (overloads : List Signature) (params : Signature) :
    Decidable (m.Optimal allowLossy args overloads params) :=
  inferInstanceAs (Decidable (_ ∧ _))

/-- The selection that the costs of the candidates dictate. -/
inductive Selects (m : Manager) (allowLossy : Bool) (args : Signature) (overloads : List Signature) :
    Selection → Prop
  | none (h : ∀ params ∈ overloads, ¬m.Admits allowLossy args params) : Selects m allowLossy args overloads .none
  | best {params : Signature} (hmem : params ∈ overloads) (hopt : m.Optimal allowLossy args overloads params) :
      Selects m allowLossy args overloads
        ⟨overloads.findIdx (m.Optimal allowLossy args overloads),
          overloads.countP (m.Optimal allowLossy args overloads), m.ratingOf allowLossy args params⟩

section Spec

variable {m : Manager} {allowLossy : Bool} {args : Signature} {overloads : List Signature}

/-- The candidates that are rated like one of least cost are those of least cost. -/
theorem ratingOf_eq_iff_optimal (hlen : args.length < UInt32.size) {best : Signature} (hbest : best ∈ overloads)
    (hopt : m.Optimal allowLossy args overloads best) {params : Signature} (hmem : params ∈ overloads) :
    m.ratingOf allowLossy args params = m.ratingOf allowLossy args best ↔
      m.Optimal allowLossy args overloads params := by
  constructor
  · intro heq
    have hadm : m.Admits allowLossy args params := by
      rw [← ratingOf_ne_impossible_iff hlen, heq, ratingOf_ne_impossible_iff hlen]
      exact hopt.1
    have hcost : m.cost args params = m.cost args best := by
      rw [← cost_ratingOf hlen hadm, heq, cost_ratingOf hlen hopt.1]
    refine ⟨hadm, fun params' hmem' hadm' => ?_⟩
    rw [hcost]
    exact hopt.2 params' hmem' hadm'
  · intro hopt'
    apply Rating.cost_injective
    rw [cost_ratingOf hlen hopt'.1, cost_ratingOf hlen hopt.1]
    exact le_antisymm (hopt'.2 best hbest hopt.1) (hopt.2 params hmem hopt'.1)

private theorem selects_of_chosen (hlen : args.length < UInt32.size) {s : Selection}
    (h : Selection.Chosen (overloads.map (m.ratingOf allowLossy args)) s) :
    m.Selects allowLossy args overloads s := by
  cases h with
  | none h =>
    refine .none (fun params hmem => ?_)
    rw [← ratingOf_eq_impossible_iff hlen]
    exact h _ (List.mem_map_of_mem hmem)
  | @best r hmem hne hle =>
    obtain ⟨params, hparams, rfl⟩ := List.mem_map.1 hmem
    have hadm : m.Admits allowLossy args params := (ratingOf_ne_impossible_iff hlen m allowLossy params).1 hne
    have hopt : m.Optimal allowLossy args overloads params := by
      refine ⟨hadm, fun params' hmem' hadm' => ?_⟩
      rw [← cost_ratingOf hlen hadm, ← cost_ratingOf hlen hadm']
      exact hle _ (List.mem_map_of_mem hmem') ((ratingOf_ne_impossible_iff hlen m allowLossy params').2 hadm')
    -- among the candidates, having the best rating and being of least cost are one property
    have hiff (params' : Signature) (hmem' : params' ∈ overloads) :
        (m.ratingOf allowLossy args params' == m.ratingOf allowLossy args params) = true ↔
          decide (m.Optimal allowLossy args overloads params') = true := by
      rw [beq_iff_eq, decide_eq_true_iff]
      exact ratingOf_eq_iff_optimal hlen hparams hopt hmem'
    have hidx : (overloads.map (m.ratingOf allowLossy args)).idxOf (m.ratingOf allowLossy args params) =
        overloads.findIdx (m.Optimal allowLossy args overloads) := by
      rw [List.idxOf, List.findIdx_map]
      exact findIdx_congr (fun params' hmem' => Bool.eq_iff_iff.2 (hiff params' hmem'))
    have hcount : (overloads.map (m.ratingOf allowLossy args)).count (m.ratingOf allowLossy args params) =
        overloads.countP (m.Optimal allowLossy args overloads) := by
      rw [List.count, List.countP_map]
      exact List.countP_congr hiff
    rw [hidx, hcount]
    exact .best hparams hopt

theorem exists_select_eq_ok (m : Manager) (allowLossy : Bool) (hargs : args.Valid) (hlen : args.length < UInt32.size)
    (hov : Eligible args overloads) :
    ∃ s, m.select args overloads allowLossy = .ok s ∧ m.Selects allowLossy args overloads s :=
  ⟨_, m.selectFrom_eq_ok allowLossy hargs hov 0 .none, selects_of_chosen hlen (Selection.chosen_foldl _)⟩

/-- Selections among the same candidates agree if the same ones are of least cost and these are rated alike. -/
theorem Selects.eq_of_optimal_iff (hlen : args.length < UInt32.size) {m' : Manager} {allowLossy' : Bool}
    {s s' : Selection} (h : m.Selects allowLossy args overloads s) (h' : m'.Selects allowLossy' args overloads s')
    (hopt : ∀ params ∈ overloads,
      (m.Optimal allowLossy args overloads params ↔ m'.Optimal allowLossy' args overloads params))
    (hrating : ∀ params ∈ overloads, m.Optimal allowLossy args overloads params →
      m'.ratingOf allowLossy' args params = m.ratingOf allowLossy args params) : s = s' := by
  cases h with
  | none hnone =>
    cases h' with
    | none _ => rfl
    | @best params' hmem' hopt' => exact absurd ((hopt params' hmem').2 hopt').1 (hnone params' hmem')
  | @best params hmem hbest =>
    cases h' with
    | none hnone' => exact absurd ((hopt params hmem).1 hbest).1 (hnone' params hmem)
    | @best params' hmem' hbest' =>
      have hdecide : ∀ p ∈ overloads, decide (m.Optimal allowLossy args overloads p) =
          decide (m'.Optimal allowLossy' args overloads p) := fun p hp => decide_eq_decide.2 (hopt p hp)
      have hrate : m.ratingOf allowLossy args params = m'.ratingOf allowLossy' args params' := by
        have hbest₂ := (hopt params' hmem').2 hbest'
        rw [hrating params' hmem' hbest₂]
        exact (ratingOf_eq_iff_optimal hlen hmem' hbest₂ hmem).2 hbest
      rw [findIdx_congr hdecide, List.countP_congr (fun p hp => Bool.eq_iff_iff.1 (hdecide p hp)), hrate]

/-- Rating gives every candidate that is admitted its cost, and selecting finds the first of least cost. -/
theorem select_eq_first_of_least_cost (hargs : args.Valid) (hlen : args.length < UInt32.size)
    (hov : ∀ params ∈ overloads, params.Valid ∧ params.length = args.length) :
    (∃ rs, m.rate args overloads allowLossy = .ok rs ∧ rs.length = overloads.length ∧
      ∀ (k : ℕ) (params : Signature), overloads[k]? = some params → ∃ r, rs[k]? = some r ∧
        (m.Admits allowLossy args params → r.cost = m.cost args params ∧ r ≠ .impossible) ∧
        (¬m.Admits allowLossy args params → r = .impossible)) ∧
    ∃ s, m.select args overloads allowLossy = .ok s ∧
      ((s = ⟨-1, 0, .impossible⟩ ∧ ∀ params ∈ overloads, ¬m.Admits allowLossy args params) ∨
        ∃ (k : ℕ) (params : Signature), overloads[k]? = some params ∧
          m.Optimal allowLossy args overloads params ∧
          (∀ j < k, ∀ params', overloads[j]? = some params' → ¬m.Optimal allowLossy args overloads params') ∧
          s.best = k ∧ s.count = overloads.countP (m.Optimal allowLossy args overloads) ∧
          s.rating.cost = m.cost args params ∧ s.rating ≠ .impossible) := by
  constructor
  · refine ⟨_, m.rateAll_eq_ok allowLossy hargs hov 0, by simp, fun k params hk => ?_⟩
    refine ⟨m.ratingOf allowLossy args params, by simp [hk], fun hadm => ?_, fun hadm => ?_⟩
    · exact ⟨cost_ratingOf hlen hadm, (ratingOf_ne_impossible_iff hlen m allowLossy params).2 hadm⟩
    · exact (ratingOf_eq_impossible_iff hlen m allowLossy params).2 hadm
  · obtain ⟨s, hs, hsel⟩ := m.exists_select_eq_ok allowLossy hargs hlen hov
    refine ⟨s, hs, ?_⟩
    cases hsel with
    | none h => exact Or.inl ⟨rfl, h⟩
    | @best params hmem hopt =>
      obtain ⟨first, hfirst, hopt', hbefore⟩ := exists_getElem?_findIdx hmem hopt
      have hrating : m.ratingOf allowLossy args params = m.ratingOf allowLossy args first :=
        (ratingOf_eq_iff_optimal hlen (List.mem_of_getElem? hfirst) hopt' hmem).2 hopt
      refine Or.inr ⟨_, first, hfirst, hopt', hbefore, rfl, rfl, ?_, ?_⟩
      · rw [hrating, cost_ratingOf hlen hopt'.1]
      · exact (ratingOf_ne_impossible_iff hlen m allowLossy params).2 hopt.1

end Spec

/-- The first type promotes to the second and converts safely to the third. -/
def oneToTwo : Manager :=
  { table := (CompatTable.empty.insert ⟨⟨0⟩, ⟨1⟩⟩ .promote).insert ⟨⟨0⟩, ⟨2⟩⟩ .safe }

/-- Parameters that two arguments of the first type do not reach equally well, or not at all. -/
def pairsReached : List Signature := [[⟨2⟩, ⟨2⟩], [⟨1⟩, ⟨2⟩], [⟨1⟩, ⟨3⟩], [⟨2⟩, ⟨1⟩]]

/-- Of two candidates that need one promotion and one safe conversion, the earlier is named and both are counted. -/
theorem select_oneToTwo : ∃ s, oneToTwo.select [⟨0⟩, ⟨0⟩] pairsReached false = .ok s ∧ s.best = 1 ∧ s.count = 2 := by
  have hargs : Signature.Valid [⟨0⟩, ⟨0⟩] := by unfold Signature.Valid; decide
  have hov : ∀ params ∈ pairsReached, params.Valid ∧ params.length = [(⟨0⟩ : TypeId), ⟨0⟩].length := by
    unfold Signature.Valid
    decide
  obtain ⟨-, s, hs, h⟩ := select_eq_first_of_least_cost (m := oneToTwo) hargs (by decide) hov
  have hsecond : oneToTwo.Optimal false [⟨0⟩, ⟨0⟩] pairsReached [⟨1⟩, ⟨2⟩] := by decide
  have hfirst : ¬oneToTwo.Optimal false [⟨0⟩, ⟨0⟩] pairsReached [⟨2⟩, ⟨2⟩] := by decide
  refine ⟨s, hs, ?_⟩
  rcases h with ⟨-, hnone⟩ | ⟨k, params, hk, hopt, hbefore, hbest, hcount, -⟩
  · exact absurd hsecond.1 (hnone [⟨1⟩, ⟨2⟩] (by decide))
  · have hk₀ : k ≠ 0 := by
      rintro rfl
      exact hfirst (Option.some.inj hk ▸ hopt)
    have hk₁ : k ≤ 1 := by
      by_contra hlt
      exact hbefore 1 (by omega) [⟨1⟩, ⟨2⟩] rfl hsecond
    have hcountP : pairsReached.countP (oneToTwo.Optimal false [⟨0⟩, ⟨0⟩] pairsReached) = 2 := by decide
    exact ⟨by omega, by rw [hcount, hcountP]; rfl⟩

end Manager

end Coercion
