import Coercion.Proofs.Selection.Cost
import Mathlib.Data.List.Induction
import Mathlib.Data.List.Perm.Basic

/-!
# Ratings per position

Besides the rating of a whole candidate there are the ratings of its positions, one by one: `Manager.rates`, and their
costs, `Manager.weights`.  Both scans stop at the first position that rejects the candidate
(`Manager.rateArguments_eq_ok`).

The rating of a candidate is the sum of the ratings of its positions, in whatever order they are added
(`Rating.foldl_add_of_perm`).  The sum of ratings has an absorbing value and wraps around, but fewer than `UInt32.size`
positions reach neither: every partial sum is the count of the kinds so far (`Rating.add_count`).
-/

namespace Coercion

/-! ### Sums of single counts -/

namespace Rating

/-- A position sets at most one counter, and that one to one. -/
private theorem counters_zero_count_le (k : Kind) :
    (zero.count k).promote.toNat + (zero.count k).safe.toNat + (zero.count k).lossy.toNat ≤ 1 := by
  cases k <;> simp [count, zero]

/-- Adding the rating of one position counts its kind. -/
theorem add_count {r : Rating} (h : r ≠ impossible) (k : Kind) : r.add (zero.count k) = r.count k := by
  have hr : r.isImpossible = false := by rwa [Bool.eq_false_iff, ne_eq, isImpossible_iff]
  have hk : (zero.count k).isImpossible = false := by
    have hone : [k].length < UInt32.size := by simp [UInt32.size]
    rw [Bool.eq_false_iff, ne_eq, isImpossible_iff]
    exact foldl_count_ne_impossible hone
  unfold add
  rw [hr, hk, Bool.or_self, if_neg Bool.false_ne_true]
  cases k <;> simp [count, zero]

private theorem foldl_add_map_count {ks : List Kind} (h : ks.length < UInt32.size) :
    (ks.map zero.count).foldl add zero = ks.foldl count zero := by
  induction ks using List.reverseRecOn with
  | nil => rfl
  | append_singleton ks k ih =>
    rw [List.length_append, List.length_singleton] at h
    have hks : ks.length < UInt32.size := by omega
    -- the partial sum is a count of fewer positions, and so not the absorbing rating
    rw [List.map_append, List.foldl_append, List.foldl_append, ih hks]
    exact add_count (foldl_count_ne_impossible hks) k

private theorem count_right_comm (r : Rating) (k l : Kind) : (r.count k).count l = (r.count l).count k := by
  cases k <;> cases l <;> rfl

theorem foldl_add_of_perm {ks : List Kind} (h : ks.length < UInt32.size) {rs : List Rating}
    (hperm : rs.Perm (ks.map zero.count)) : rs.foldl add zero = ks.foldl count zero := by
  have hcomp : Relation.Comp (fun rs ks => rs = List.map zero.count ks) List.Perm rs ks := by
    rwa [List.eq_map_comp_perm]
  obtain ⟨ks', rfl, hks'⟩ := hcomp
  have hlen : ks'.length < UInt32.size := by rwa [hks'.length_eq]
  rw [foldl_add_map_count hlen]
  exact hks'.foldl_eq' (fun k _ l _ r => count_right_comm r k l) zero

end Rating

/-! ### Positions of a candidate -/

namespace Manager

/-- The costs of the positions of a call, one by one. -/
def weights (m : Manager) (args params : Signature) : List Cost :=
  (m.kinds args params).map fun k => Kind.cost [k]

/-- The ratings of the positions of a call, one by one. -/
def rates (m : Manager) (args params : Signature) : List Rating :=
  (m.kinds args params).map Rating.zero.count

theorem map_cost_rates (m : Manager) (args params : Signature) :
    (m.rates args params).map Rating.cost = m.weights args params := by
  unfold rates weights
  rw [List.map_map]
  refine List.map_congr_left (fun k _ => ?_)
  have hlen : [k].length < UInt32.size := by simp [UInt32.size]
  exact Rating.cost_foldl_count hlen

private theorem ratePositions_eq_ok (m : Manager) (allowLossy : Bool) {args params : Signature} (hargs : args.Valid)
    (hparams : params.Valid) (hlen : params.length = args.length) :
    m.ratePositions allowLossy args params =
      .ok (if m.Admits allowLossy args params then some (m.rates args params) else none) := by
  unfold Admits
  simp only [← Kind.all_admissible_iff]
  induction args generalizing params with
  | nil => simp [ratePositions, kinds, rates]
  | cons a args ih =>
    obtain _ | ⟨p, params⟩ := params
    · simp at hlen
    · obtain ⟨ha, hargs⟩ := Signature.valid_cons.1 hargs
      obtain ⟨hp, hparams⟩ := Signature.valid_cons.1 hparams
      have hih := ih hargs hparams (by simpa using hlen)
      rw [ratePositions, compatible_eq_ok (p := ⟨a, p⟩) m ha hp, kinds_cons, List.all_cons]
      change (if (m.kindOf ⟨a, p⟩).admissible allowLossy = true then _ else _) = _
      by_cases hk : (m.kindOf ⟨a, p⟩).admissible allowLossy = true
      · rw [if_pos hk, hih, hk, Bool.true_and]
        split <;> rfl
      · rw [if_neg hk, if_neg (by simp [hk])]
        rfl

theorem rateArguments_eq_ok (m : Manager) (allowLossy : Bool) {args params : Signature} (hargs : args.Valid)
    (hparams : params.Valid) (hlen : params.length = args.length) :
    m.rateArguments args params allowLossy =
      .ok (if m.Admits allowLossy args params then some (m.rates args params) else none) := by
  unfold rateArguments
  rw [requireArity_eq_ok hlen]
  exact m.ratePositions_eq_ok allowLossy hargs hparams hlen

theorem length_rates {args params : Signature} (hlen : params.length = args.length) (m : Manager) :
    (m.rates args params).length = args.length := by
  simp [rates, kinds, hlen]

private theorem foldl_add_rates {args params : Signature} (h : args.length < UInt32.size) {m : Manager}
    {allowLossy : Bool}
    (hadm : m.Admits allowLossy args params) {rs : List Rating} (hperm : rs.Perm (m.rates args params)) :
    rs.foldl Rating.add .zero = m.ratingOf allowLossy args params := by
  rw [ratingOf, if_pos hadm]
  exact Rating.foldl_add_of_perm (length_kinds_lt h m params) hperm

/-- Rating position by position rejects the candidates that rating as a whole finds impossible.  Of the others it gives
one rating for each argument, which counts at most one conversion, and their sum is the rating as a whole. -/
theorem rateArguments_adds_up_to_rate (m : Manager) (allowLossy : Bool) {args : Signature} (hargs : args.Valid)
    (hlen : args.length < UInt32.size) {overloads : List Signature}
    (hov : ∀ params ∈ overloads, params.Valid ∧ params.length = args.length) {k : Nat} {params : Signature}
    (hk : overloads[k]? = some params) :
    ∃ ratings r positions, m.rate args overloads allowLossy = .ok ratings ∧ ratings[k]? = some r ∧
      m.rateArguments args params allowLossy = .ok positions ∧
      (positions.isSome ↔ r ≠ .impossible) ∧
      ∀ rs, positions = some rs →
        rs.length = args.length ∧
        (∀ x ∈ rs, x.promote.toNat + x.safe.toNat + x.lossy.toNat ≤ 1) ∧
        ∀ rs' : List Rating, rs'.Perm rs → rs'.foldl Rating.add .zero = r := by
  obtain ⟨hparams, hsame⟩ := hov params (List.mem_of_getElem? hk)
  refine ⟨_, m.ratingOf allowLossy args params, _, m.rateAll_eq_ok allowLossy hargs hov 0, by simp [hk],
    m.rateArguments_eq_ok allowLossy hargs hparams hsame, ?_, ?_⟩
  · rw [ratingOf_ne_impossible_iff hlen]
    split <;> simp_all
  · intro rs hrs
    split at hrs
    · rename_i hadm
      cases hrs
      refine ⟨length_rates hsame m, fun x hx => ?_, fun rs' hperm => foldl_add_rates hlen hadm hperm⟩
      obtain ⟨kind, -, rfl⟩ := List.mem_map.1 hx
      exact Rating.counters_zero_count_le kind
    · cases hrs

/-- The first type promotes to the second, converts safely to the third and lossily to the fourth. -/
def threeWays : Manager :=
  { table := CompatTable.empty.insert ⟨⟨0⟩, ⟨1⟩⟩ .promote |>.insert ⟨⟨0⟩, ⟨2⟩⟩ .safe |>.insert ⟨⟨0⟩, ⟨3⟩⟩ .lossy }

/-- One position of every kind, and one that needs no conversion: the ratings of the positions, added backwards, give
the rating of the candidate. -/
theorem rateArguments_threeWays :
    threeWays.rateArguments [⟨0⟩, ⟨0⟩, ⟨0⟩, ⟨0⟩] [⟨0⟩, ⟨1⟩, ⟨2⟩, ⟨3⟩] true =
        .ok (some [.zero, ⟨1, 0, 0⟩, ⟨0, 1, 0⟩, ⟨0, 0, 1⟩]) ∧
      threeWays.rate [⟨0⟩, ⟨0⟩, ⟨0⟩, ⟨0⟩] [[⟨0⟩, ⟨1⟩, ⟨2⟩, ⟨3⟩]] true = .ok [⟨1, 1, 1⟩] ∧
      [⟨0, 0, 1⟩, ⟨0, 1, 0⟩, ⟨1, 0, 0⟩, .zero].foldl Rating.add .zero = ⟨1, 1, 1⟩ := by
  have hargs : Signature.Valid [⟨0⟩, ⟨0⟩, ⟨0⟩, ⟨0⟩] := by unfold Signature.Valid; decide
  have hov : ∀ params ∈ ([[⟨0⟩, ⟨1⟩, ⟨2⟩, ⟨3⟩]] : List Signature),
      params.Valid ∧ params.length = [(⟨0⟩ : TypeId), ⟨0⟩, ⟨0⟩, ⟨0⟩].length := by
    unfold Signature.Valid
    decide
  obtain ⟨ratings, r, positions, hrate, hr, hpositions, -, hsum⟩ :=
    rateArguments_adds_up_to_rate threeWays true hargs (by decide) hov (k := 0) rfl
  obtain rfl : [⟨1, 1, 1⟩] = ratings := Except.ok.inj hrate
  obtain rfl : ⟨1, 1, 1⟩ = r := Option.some.inj hr
  obtain rfl : some [.zero, ⟨1, 0, 0⟩, ⟨0, 1, 0⟩, ⟨0, 0, 1⟩] = positions := Except.ok.inj hpositions
  obtain ⟨-, -, hperm⟩ := hsum _ rfl
  exact ⟨hpositions, hrate, hperm _ (by decide)⟩

end Manager

end Coercion
