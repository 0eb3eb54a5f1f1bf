import Coercion.Proofs.Resolver.Classification

/-!
# Relaxing the policy

Allowing lossy conversions lets new candidates take part in a call, but each of them needs a lossy position, so it costs
more than every candidate that was admitted before (`Manager.cost_lt_of_not_admits`).  Where some candidate was
admitted, the cheapest ones stay the same (`Manager.optimal_true_iff`), and with them the selection and the tied
overloads (`Manager.exists_select_relaxed`, `tied_relaxed`).

So a policy that allows more never changes a resolution, and allowing lossy conversions never changes a tie that is left
open.
-/

namespace Coercion

/-! ### Selections -/

namespace Manager

variable {m : Manager} {args params params' : Signature} {overloads : List Signature}

private theorem admits_false_iff :
    m.Admits false args params ↔ m.Admits true args params ∧ .lossy ∉ m.kinds args params := by
  simp [Admits, Kind.Admitted]

theorem cost_lt_of_not_admits (h : m.Admits false args params) (h' : m.Admits true args params')
    (hnot : ¬m.Admits false args params') : m.cost args params < m.cost args params' := by
  have hnone : (m.kinds args params).count .lossy = 0 := List.count_eq_zero_of_not_mem (admits_false_iff.1 h).2
  have hsome : .lossy ∈ m.kinds args params' := by
    by_contra hmem
    exact hnot (admits_false_iff.2 ⟨h', hmem⟩)
  have hpos : 0 < (m.kinds args params').count .lossy := List.count_pos_iff.2 hsome
  refine Prod.Lex.toLex_lt_toLex.2 (Or.inl ?_)
  dsimp only
  omega

/-- Where a candidate is admitted without lossy conversions, allowing them does not change which ones are cheapest. -/
theorem optimal_true_iff (hmem : params ∈ overloads) (hadm : m.Admits false args params) :
    m.Optimal true args overloads params' ↔ m.Optimal false args overloads params' := by
  constructor
  · rintro ⟨hadm', hle⟩
    have hstrict : m.Admits false args params' := by
      by_contra hnot
      exact (cost_lt_of_not_admits hadm hadm' hnot).not_ge (hle params hmem (admits_false_iff.1 hadm).1)
    exact ⟨hstrict, fun p hp hadmp => hle p hp (admits_false_iff.1 hadmp).1⟩
  · rintro ⟨hstrict, hle⟩
    refine ⟨(admits_false_iff.1 hstrict).1, fun p hp hadmp => ?_⟩
    by_cases hp' : m.Admits false args p
    · exact hle p hp hp'
    · exact (cost_lt_of_not_admits hstrict hadmp hp').le

private theorem ratingOf_true (h : m.Admits false args params) :
    m.ratingOf true args params = m.ratingOf false args params := by
  unfold ratingOf
  rw [if_pos h, if_pos (admits_false_iff.1 h).1]

/-- A selection that finds a candidate without lossy conversions is the selection with them. -/
theorem exists_select_relaxed (m : Manager) (hargs : args.Valid) (hlen : args.length < UInt32.size)
    (hov : Eligible args overloads) :
    ∃ s, m.select args overloads false = .ok s ∧ (0 < s.count → m.select args overloads true = .ok s) := by
  obtain ⟨s, hs, hsel⟩ := m.exists_select_eq_ok false hargs hlen hov
  obtain ⟨s', hs', hsel'⟩ := m.exists_select_eq_ok true hargs hlen hov
  refine ⟨s, hs, fun hpos => ?_⟩
  have hsome : ∃ params ∈ overloads, m.Admits false args params := by
    cases hsel with
    | none _ => exact absurd hpos (by decide)
    | best hmem hopt => exact ⟨_, hmem, hopt.1⟩
  obtain ⟨params, hmem, hadm⟩ := hsome
  have heq : s = s' := by
    refine hsel.eq_of_optimal_iff hlen hsel' (fun p _ => (optimal_true_iff hmem hadm).symm) (fun p _ hopt => ?_)
    exact ratingOf_true hopt.1
  rw [hs', heq]

end Manager

/-! ### Resolutions -/

/-- The policy `p'` allows what `p` allows. -/
structure Policy.Relaxes (p' p : Policy) : Prop where
  allowLossy : p.allowLossy = true → p'.allowLossy = true
  asymmetric : p.asymmetric = true → p'.asymmetric = true

namespace Resolver

variable {r : Resolver} {m : Manager} {name : String} {args : Signature} {overloads : List Signature}

private theorem tied_true {c : Candidate} (hc : c ∈ tied m false args overloads) :
    tied m true args overloads = tied m false args overloads := by
  obtain ⟨hmem, hopt⟩ := mem_ofArity_of_mem_tied hc
  unfold tied
  refine List.filter_congr (fun c' _ => decide_eq_decide.2 ?_)
  rw [Manager.optimal_true_iff hmem hopt.1]

/-- Tied overloads stay tied, at the same rating, when lossy conversions are allowed. -/
theorem tied_relaxed {allowLossy allowLossy' : Bool} (hrelax : allowLossy = true → allowLossy' = true) {c : Candidate}
    (hc : c ∈ tied m allowLossy args overloads) :
    tied m allowLossy' args overloads = tied m allowLossy args overloads ∧
      m.ratingOf allowLossy' args c.1 = m.ratingOf allowLossy args c.1 := by
  cases allowLossy with
  | true => rw [hrelax rfl]; exact ⟨rfl, rfl⟩
  | false =>
    cases allowLossy' with
    | false => exact ⟨rfl, rfl⟩
    | true => exact ⟨tied_true hc, Manager.ratingOf_true (mem_ofArity_of_mem_tied hc).2.1⟩

/-- An answer that rests on tied overloads: a resolution, or a tie that is left open. -/
def Matched : Except Failure Resolution → Prop
  | .ok _ => True
  | .error (.ambiguous _ _ _) => True
  | .error _ => False

section Relaxed

variable (hr : r.OfValidTypes) (hargs : args.Valid) (hlen : args.length < UInt32.size)

include hr hargs hlen

private theorem exists_tied_of_matched {a : Except Failure Resolution} (h : r.resolve m name args = .ok a)
    (ha : Matched a) :
    ∃ overloads c rest, r.overloads? name = some overloads ∧
      tied m r.policy.allowLossy args overloads = c :: rest := by
  cases hover : r.overloads? name with
  | none =>
    rw [resolve_of_undefined hover] at h
    cases h
    exact ha.elim
  | some overloads =>
    by_cases hC : ofArity overloads args.length = []
    · rw [resolve_of_ofArity_eq_nil hover hC] at h
      cases h
      exact ha.elim
    · cases hT : tied m r.policy.allowLossy args overloads with
      | nil =>
        rw [resolve_of_tied_eq_nil hover hargs hlen (hr.valid_of_mem hover) hC hT] at h
        cases h
        exact ha.elim
      | cons c rest => exact ⟨overloads, c, rest, rfl, hT⟩

/-- A resolution stays what it is under a policy that allows more, and so does an open tie if no more ties are
broken. -/
private theorem resolve_of_relaxes {p' : Policy} (hp' : p'.Relaxes r.policy) {a : Except Failure Resolution}
    (h : r.resolve m name args = .ok a) (ha : Matched a)
    (hasym : p'.asymmetric = r.policy.asymmetric ∨ ∃ res, a = .ok res) :
    { r with policy := p' }.resolve m name args = .ok a := by
  obtain ⟨overloads, c, rest, hover, hT⟩ := exists_tied_of_matched hr hargs hlen h ha
  have hov := hr.valid_of_mem hover
  have hT' : tied m p'.allowLossy args overloads = c :: rest :=
    ((tied_relaxed hp'.allowLossy (mem_tied_of_eq_cons hT)).1).trans hT
  have hrating : ∀ d ∈ c :: rest, m.ratingOf p'.allowLossy args d.1 = m.ratingOf r.policy.allowLossy args d.1 :=
    fun d hd => (tied_relaxed hp'.allowLossy (hT ▸ hd)).2
  have hover' : { r with policy := p' }.overloads? name = some overloads := hover
  by_cases huni : Uniform (c :: rest)
  · rw [← h, resolve_of_uniform hover hargs hlen hov hT huni, resolve_of_uniform hover' hargs hlen hov hT' huni,
      hrating c List.mem_cons_self]
  · by_cases hsole : r.policy.asymmetric = true ∧ ∃ d, OnlyCostliest m args (c :: rest) d
    · obtain ⟨hon, d, hd⟩ := hsole
      rw [← h, resolve_of_onlyCostliest hover hargs hlen hov hT huni hon hd,
        resolve_of_onlyCostliest hover' hargs hlen hov hT' huni (hp'.asymmetric hon) hd, hrating d ((hd d).2 rfl).1]
    · -- the tie is left open, so the answer is no resolution
      have hopen := resolve_of_ambiguous hover hargs hlen hov hT huni hsole
      obtain rfl : a = .error (.ambiguous name args (c :: rest)) := Except.ok.inj (h.symm.trans hopen)
      obtain hasym | ⟨res, hres⟩ := hasym
      · refine resolve_of_ambiguous hover' hargs hlen hov hT' huni ?_
        rwa [hasym]
      · cases hres

end Relaxed

/-- A selection that finds a candidate, and so a resolution, stays what it is under a policy that allows more; and a tie
that is left open stays open, between the same candidates, when lossy conversions are allowed. -/
theorem resolve_of_relaxed_policy (m : Manager) {args : Signature} (hargs : args.Valid)
    (hlen : args.length < UInt32.size) :
    (∀ overloads : List Signature, (∀ params ∈ overloads, params.Valid ∧ params.length = args.length) →
      ∃ s, m.select args overloads false = .ok s ∧ (0 < s.count → m.select args overloads true = .ok s)) ∧
    ∀ r : Resolver, r.OfValidTypes → ∀ name,
      (∀ p' : Policy, p'.Relaxes r.policy → ∀ res, r.resolve m name args = .ok (.ok res) →
        { r with policy := p' }.resolve m name args = .ok (.ok res)) ∧
      (r.policy.allowLossy = false → ∀ name' args' cs,
        r.resolve m name args = .ok (.error (.ambiguous name' args' cs)) →
        { r with policy := { r.policy with allowLossy := true } }.resolve m name args =
          .ok (.error (.ambiguous name' args' cs))) := by
  refine ⟨fun overloads hov => m.exists_select_relaxed hargs hlen hov, fun r hr name => ⟨?_, ?_⟩⟩
  · intro p' hp' res h
    exact resolve_of_relaxes hr hargs hlen hp' h trivial (Or.inr ⟨res, rfl⟩)
  · intro _ name' args' cs h
    have hrelaxes : Policy.Relaxes { r.policy with allowLossy := true } r.policy := ⟨fun _ => rfl, id⟩
    exact resolve_of_relaxes hr hargs hlen hrelaxes h trivial (Or.inl rfl)

/-- The first type promotes to the second, converts safely to the third and lossily to the fourth. -/
def threeWays : Manager :=
  { table := CompatTable.empty.insert ⟨⟨0⟩, ⟨1⟩⟩ .promote |>.insert ⟨⟨0⟩, ⟨2⟩⟩ .safe |>.insert ⟨⟨0⟩, ⟨3⟩⟩ .lossy }

/-- Three overloads, the first of which needs a lossy conversion. -/
def lossyFirst : Resolver :=
  { policy := { asymmetric := true }, functions := [("f", [[⟨3⟩, ⟨1⟩], [⟨1⟩, ⟨2⟩], [⟨2⟩, ⟨1⟩]])] }

/-- The overload that lossy conversions add comes first and is admitted, but leaves the selection and the winner of the
tie as they were. -/
theorem resolve_lossyFirst :
    ¬threeWays.Admits false [⟨0⟩, ⟨0⟩] [⟨3⟩, ⟨1⟩] ∧ threeWays.Admits true [⟨0⟩, ⟨0⟩] [⟨3⟩, ⟨1⟩] ∧
      threeWays.select [⟨0⟩, ⟨0⟩] [[⟨3⟩, ⟨1⟩], [⟨1⟩, ⟨2⟩], [⟨2⟩, ⟨1⟩]] true = .ok ⟨1, 2, ⟨1, 1, 0⟩⟩ ∧
      { lossyFirst with policy := ⟨true, true⟩ }.resolve threeWays "f" [⟨0⟩, ⟨0⟩] =
        .ok (.ok ⟨"f", 2, [⟨2⟩, ⟨1⟩], ⟨1, 1, 0⟩, true⟩) := by
  have hargs : Signature.Valid [⟨0⟩, ⟨0⟩] := by unfold Signature.Valid; decide
  have hov : ∀ params ∈ ([[⟨3⟩, ⟨1⟩], [⟨1⟩, ⟨2⟩], [⟨2⟩, ⟨1⟩]] : List Signature),
      params.Valid ∧ params.length = [(⟨0⟩ : TypeId), ⟨0⟩].length := by
    unfold Signature.Valid
    decide
  have hr : lossyFirst.OfValidTypes := by
    intro f hf params hparams
    obtain rfl := List.mem_singleton.1 hf
    exact (hov params hparams).1
  obtain ⟨hselect, hresolve⟩ := resolve_of_relaxed_policy threeWays hargs (by decide)
  refine ⟨by decide, by decide, ?_, ?_⟩
  · obtain ⟨s, hs, hsame⟩ := hselect _ hov
    obtain rfl : Selection.mk 1 2 ⟨1, 1, 0⟩ = s := Except.ok.inj hs
    exact hsame (by decide)
  · exact (hresolve lossyFirst hr "f").1 ⟨true, true⟩ ⟨fun _ => rfl, fun _ => rfl⟩ _ rfl

end Resolver

end Coercion
