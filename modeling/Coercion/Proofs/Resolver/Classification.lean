import Coercion.Proofs.Resolver.Overloads

/-!
# What a call resolves to

A call of a known name is decided by its overloads of the right arity and by the tied ones among them.  Each answer has
its own lemma: without tied overloads the call has no match (`resolve_of_tied_eq_nil`), tied overloads of one signature
do not compete (`resolve_of_uniform`), and those of different signatures are told apart by the policy or not at all
(`resolve_of_onlyCostliest`, `resolve_of_ambiguous`).

`resolve_classification` puts them together: seven answers, each exactly under its own condition.
-/

namespace Coercion

namespace Resolver

/-! ### Answers -/

section Answers

variable {r : Resolver} {m : Manager} {name : String} {args : Signature} {overloads : List Signature}

theorem resolve_of_undefined (h : r.overloads? name = none) :
    r.resolve m name args = .ok (.error (.unknownFunction name args)) := by
  unfold resolve resolveAt
  rw [h]
  rfl

theorem resolve_of_ofArity_eq_nil (h : r.overloads? name = some overloads)
    (hC : ofArity overloads args.length = []) :
    r.resolve m name args = .ok (.error (.arity name args)) := by
  have hempty : (candidates overloads args.length).isEmpty = true := by rw [isEmpty_candidates, hC]; rfl
  unfold resolve resolveAt
  rw [h]
  simp only [hempty, if_true]
  rfl

variable (h : r.overloads? name = some overloads) (hargs : args.Valid) (hlen : args.length < UInt32.size)
  (hov : ∀ params ∈ overloads, params.Valid)

include h hargs hlen hov

theorem resolve_of_tied_eq_nil (hC : ofArity overloads args.length ≠ [])
    (hT : tied m r.policy.allowLossy args overloads = []) :
    r.resolve m name args = .ok (.error (.noMatch name args (decide (r.policy.allowLossy = false ∧
      ∃ params ∈ ofArity overloads args.length, m.Admits true args params)))) := by
  have hsel := select_of_tied_eq_nil hargs hlen hov hT
  obtain ⟨s, hs, hpos⟩ := exists_select_count_pos_iff hargs hlen hov m true
  unfold resolve resolveAt
  rw [h]
  simp only [isEmpty_candidates, List.isEmpty_eq_false_iff.2 hC, map_fst_candidates, hsel, hs]
  cases hl : r.policy.allowLossy with
  | true => rfl
  | false =>
    simp only [true_and, ← hpos]
    rfl

private theorem resolve_of_tied_eq_singleton {c : Candidate} (hT : tied m r.policy.allowLossy args overloads = [c]) :
    r.resolve m name args = .ok (.ok ⟨name, c.2, c.1, m.ratingOf r.policy.allowLossy args c.1, false⟩) := by
  obtain ⟨k, hsel, hk⟩ := select_of_tied_eq_cons hargs hlen hov hT
  have houtcome : Selection.outcome ⟨k, (([] : List Candidate).length : Int) + 1,
      m.ratingOf r.policy.allowLossy args c.1⟩ = .unique := rfl
  unfold resolve resolveAt
  rw [h]
  simp only [isEmpty_candidates, isEmpty_ofArity_of_tied hT, map_fst_candidates, hsel]
  simp only [Bool.false_eq_true, if_false, bind, Except.bind, houtcome, Int.toNat_natCast, hk]
  rfl

private theorem resolve_eq_resolveTie {c : Candidate} {rest : List Candidate}
    (hT : tied m r.policy.allowLossy args overloads = c :: rest) (hrest : rest ≠ []) :
    r.resolve m name args = r.resolveTie (fun _ => m) name args (candidates overloads args.length)
      (m.ratingOf r.policy.allowLossy args c.1) := by
  obtain ⟨k, hsel, -⟩ := select_of_tied_eq_cons hargs hlen hov hT
  have hpos : 0 < rest.length := List.length_pos_iff.2 hrest
  have houtcome : Selection.outcome ⟨k, (rest.length : Int) + 1, m.ratingOf r.policy.allowLossy args c.1⟩ =
      .ambiguous := by
    unfold Selection.outcome
    dsimp only
    rw [if_neg (by omega), if_neg (by omega)]
  unfold resolve resolveAt
  rw [h]
  simp only [isEmpty_candidates, isEmpty_ofArity_of_tied hT, map_fst_candidates, hsel]
  simp only [Bool.false_eq_true, if_false, bind, Except.bind, houtcome]

omit h in
private theorem resolveTie_of_uniform {c : Candidate} {rest : List Candidate}
    (hT : tied m r.policy.allowLossy args overloads = c :: rest) (huni : Uniform (c :: rest)) :
    r.resolveTie (fun _ => m) name args (candidates overloads args.length)
        (m.ratingOf r.policy.allowLossy args c.1) =
      .ok (.ok ⟨name, c.2, c.1, m.ratingOf r.policy.allowLossy args c.1, false⟩) := by
  have hc := mem_tied_of_eq_cons hT
  unfold resolveTie
  rw [map_fst_candidates]
  simp only [rate_ofArity hargs hov, bind, Except.bind, filter_rating_candidates hlen hc, hT,
    (all_beq_iff_uniform c rest).2 huni, if_true]
  rfl

/-- Candidates of one signature do not compete: the first of them is taken. -/
theorem resolve_of_uniform {c : Candidate} {rest : List Candidate}
    (hT : tied m r.policy.allowLossy args overloads = c :: rest) (huni : Uniform (c :: rest)) :
    r.resolve m name args = .ok (.ok ⟨name, c.2, c.1, m.ratingOf r.policy.allowLossy args c.1, false⟩) := by
  by_cases hrest : rest = []
  · subst hrest
    exact resolve_of_tied_eq_singleton h hargs hlen hov hT
  · rw [resolve_eq_resolveTie h hargs hlen hov hT hrest]
    exact resolveTie_of_uniform hargs hlen hov hT huni

/-- Candidates of different signatures compete, and the winner, if there is one, is the only costliest of them. -/
private theorem resolve_of_not_uniform {c : Candidate} {rest : List Candidate}
    (hT : tied m r.policy.allowLossy args overloads = c :: rest) (huni : ¬Uniform (c :: rest)) :
    ∃ w : Option Candidate,
      (∀ d, w = some d ↔ r.policy.asymmetric = true ∧ OnlyCostliest m args (c :: rest) d) ∧
      r.resolve m name args = .ok (match w with
        | some d => .ok ⟨name, d.2, d.1, m.ratingOf r.policy.allowLossy args c.1, true⟩
        | none => .error (.ambiguous name args (c :: rest))) := by
  have hc := mem_tied_of_eq_cons hT
  have hrest : rest ≠ [] := fun hrest => huni (hrest ▸ uniform_singleton c)
  obtain ⟨w, hw, hwin⟩ := breakTie_eq_ok hargs (reached_tied m r.policy.allowLossy hov) (List.ne_nil_of_mem hc)
    (nodup_tied _ _ _ _)
  rw [hT] at hw hwin
  refine ⟨if r.policy.asymmetric = true then w else none, fun d => ?_, ?_⟩
  · by_cases hasym : r.policy.asymmetric = true <;> simp [hasym, hwin]
  · rw [resolve_eq_resolveTie h hargs hlen hov hT hrest]
    unfold resolveTie
    rw [map_fst_candidates]
    simp only [rate_ofArity hargs hov, bind, Except.bind, filter_rating_candidates hlen hc, hT,
      mt (all_beq_iff_uniform c rest).1 huni]
    by_cases hasym : r.policy.asymmetric = true
    · simp only [hasym, if_true, hw]
      cases w <;> rfl
    · simp only [hasym]
      rfl

theorem resolve_of_onlyCostliest {c d : Candidate} {rest : List Candidate}
    (hT : tied m r.policy.allowLossy args overloads = c :: rest) (huni : ¬Uniform (c :: rest))
    (hasym : r.policy.asymmetric = true) (hd : OnlyCostliest m args (c :: rest) d) :
    r.resolve m name args = .ok (.ok ⟨name, d.2, d.1, m.ratingOf r.policy.allowLossy args d.1, true⟩) := by
  obtain ⟨w, hw, hanswer⟩ := resolve_of_not_uniform h hargs hlen hov hT huni
  have hmem : d ∈ c :: rest := ((hd d).2 rfl).1
  have hrating : m.ratingOf r.policy.allowLossy args c.1 = m.ratingOf r.policy.allowLossy args d.1 := by
    rw [← hT] at hmem
    exact ratingOf_eq_of_mem_tied hlen hmem (mem_tied_of_eq_cons hT)
  rw [hanswer, (hw d).2 ⟨hasym, hd⟩, hrating]

theorem resolve_of_ambiguous {c : Candidate} {rest : List Candidate}
    (hT : tied m r.policy.allowLossy args overloads = c :: rest) (huni : ¬Uniform (c :: rest))
    (hnone : ¬(r.policy.asymmetric = true ∧ ∃ d, OnlyCostliest m args (c :: rest) d)) :
    r.resolve m name args = .ok (.error (.ambiguous name args (c :: rest))) := by
  obtain ⟨w, hw, hanswer⟩ := resolve_of_not_uniform h hargs hlen hov hT huni
  rw [hanswer]
  cases w with
  | none => rfl
  | some d =>
    obtain ⟨hasym, hd⟩ := (hw d).1 rfl
    exact absurd ⟨hasym, d, hd⟩ hnone

end Answers

/-! ### The classification -/

/-- Among candidates listed by their places, the head is the first one. -/
private theorem exists_first_iff {c : Candidate} {rest : List Candidate}
    (hpair : (c :: rest).Pairwise (fun c c' => c.2 < c'.2)) (P : Candidate → Prop) :
    (∃ d ∈ c :: rest, (∀ c' ∈ c :: rest, d.2 ≤ c'.2) ∧ P d) ↔ P c := by
  obtain ⟨hhead, -⟩ := List.pairwise_cons.1 hpair
  constructor
  · rintro ⟨d, hd, hall, hP⟩
    have hle := hall c List.mem_cons_self
    rcases List.mem_cons.1 hd with rfl | hd
    · exact hP
    · exact absurd hle (hhead d hd).not_ge
  · intro hP
    exact ⟨c, List.mem_cons_self, List.forall_mem_cons.2 ⟨le_rfl, fun c' hc' => (hhead c' hc').le⟩, hP⟩

private theorem eq_and_tieBroken_iff {res : Resolution} {b : Bool} (h : res.tieBroken = b) (res' : Resolution) :
    res = res' ∧ res'.tieBroken = b ↔ res' = res := by
  constructor
  · exact fun hres => hres.1.symm
  · rintro rfl
    exact ⟨rfl, h⟩

/-- What a call resolves to, under which condition. -/
theorem resolve_classification (policy : Policy) (names : Option Registry) (defs : List (String × List Signature))
    (hdefs : ∀ d ∈ defs, ∀ params ∈ d.2, params.Valid) (m : Manager) (name : String) (args : Signature)
    (hargs : args.Valid) (hlen : args.length < UInt32.size) :
    let answer := (build policy names defs).resolve m name args
    let C := ofArity (overloadsOf defs name) args.length
    let T := tied m policy.allowLossy args (overloadsOf defs name)
    let resolution (c : Candidate) (tieBroken : Bool) : Resolution :=
      ⟨name, c.2, c.1, m.ratingOf policy.allowLossy args c.1, tieBroken⟩
    (answer = .ok (.error (.unknownFunction name args)) ∨ answer = .ok (.error (.arity name args)) ∨
      (∃ lossyOnly, answer = .ok (.error (.noMatch name args lossyOnly))) ∨ (∃ res, answer = .ok (.ok res)) ∨
      ∃ cs, answer = .ok (.error (.ambiguous name args cs))) ∧
    (answer = .ok (.error (.unknownFunction name args)) ↔ ¬Defined defs name) ∧
    (answer = .ok (.error (.arity name args)) ↔ Defined defs name ∧ C = []) ∧
    (answer = .ok (.error (.noMatch name args true)) ↔
      C ≠ [] ∧ T = [] ∧ policy.allowLossy = false ∧ ∃ params ∈ C, m.Admits true args params) ∧
    (answer = .ok (.error (.noMatch name args false)) ↔
      C ≠ [] ∧ T = [] ∧ ¬(policy.allowLossy = false ∧ ∃ params ∈ C, m.Admits true args params)) ∧
    (∀ res, answer = .ok (.ok res) ∧ res.tieBroken = false ↔
      ∃ c ∈ T, (∀ c' ∈ T, c.2 ≤ c'.2) ∧ Uniform T ∧ res = resolution c false) ∧
    (∀ res, answer = .ok (.ok res) ∧ res.tieBroken = true ↔
      ¬Uniform T ∧ policy.asymmetric = true ∧ ∃ c, OnlyCostliest m args T c ∧ res = resolution c true) ∧
    (∀ cs, answer = .ok (.error (.ambiguous name args cs)) ↔
      ¬Uniform T ∧ ¬(policy.asymmetric = true ∧ ∃ c, OnlyCostliest m args T c) ∧ cs = T) := by
  intro answer C T resolution
  have hover := overloads?_build policy names defs name
  have hpolicy := policy_build policy names defs
  have hT₀ : tied m policy.allowLossy args (overloadsOf defs name) = T := rfl
  by_cases hdef : Defined defs name
  · rw [if_pos hdef] at hover
    have hov := overloadsOf_valid hdefs name
    by_cases hC : C = []
    · have hanswer : answer = .ok (.error (.arity name args)) := resolve_of_ofArity_eq_nil hover hC
      have hT : T = [] := tied_eq_nil hC
      simp [hanswer, hC, hT, hdef, uniform_nil]
    · rw [← hpolicy] at hT₀
      cases hT : T with
      | nil =>
        have hanswer : answer = .ok (.error (.noMatch name args
            (decide (policy.allowLossy = false ∧ ∃ params ∈ C, m.Admits true args params)))) := by
          have := resolve_of_tied_eq_nil hover hargs hlen hov hC (hT₀.trans hT)
          rwa [hpolicy] at this
        simp [hanswer, hC, hdef, uniform_nil]
      | cons c rest =>
        have hpair : (c :: rest).Pairwise (fun c c' => c.2 < c'.2) := hT ▸ pairwise_tied _ _ _ _
        simp only [exists_first_iff hpair]
        by_cases huni : Uniform (c :: rest)
        · have hanswer : answer = .ok (.ok (resolution c false)) := by
            have := resolve_of_uniform hover hargs hlen hov (hT₀.trans hT) huni
            rwa [hpolicy] at this
          have hbroken : (resolution c false).tieBroken = false := rfl
          simp [hanswer, hC, hdef, huni, eq_and_tieBroken_iff hbroken, hbroken]
        · by_cases hsole : policy.asymmetric = true ∧ ∃ d, OnlyCostliest m args (c :: rest) d
          · obtain ⟨hasym, d, hd⟩ := hsole
            have hanswer : answer = .ok (.ok (resolution d true)) := by
              have := resolve_of_onlyCostliest hover hargs hlen hov (hT₀.trans hT) huni (hpolicy.symm ▸ hasym) hd
              rwa [hpolicy] at this
            have hex : ∃ c', OnlyCostliest m args (c :: rest) c' := ⟨d, hd⟩
            simp only [hd.exists_and_iff, hex, hasym]
            have hbroken : (resolution d true).tieBroken = true := rfl
            simp [hanswer, hC, hdef, huni, eq_and_tieBroken_iff hbroken, hbroken]
          · have hanswer : answer = .ok (.error (.ambiguous name args (c :: rest))) := by
              refine resolve_of_ambiguous hover hargs hlen hov (hT₀.trans hT) huni ?_
              rwa [hpolicy]
            have hlost (P : Candidate → Prop) :
                ¬(policy.asymmetric = true ∧ ∃ d, OnlyCostliest m args (c :: rest) d ∧ P d) := by
              rintro ⟨hasym, d, hd, -⟩
              exact hsole ⟨hasym, d, hd⟩
            simp only [hlost, hsole]
            have hcs (cs : List Candidate) : c :: rest = cs ↔ cs = c :: rest := eq_comm
            simpa [hanswer, hC, hdef, huni] using hcs
  · rw [if_neg hdef] at hover
    have hanswer : answer = .ok (.error (.unknownFunction name args)) := resolve_of_undefined hover
    have hover' : overloadsOf defs name = [] := overloadsOf_eq_nil hdef
    have hC : C = [] := by simp only [C, hover']; rfl
    have hT : T = [] := tied_eq_nil hC
    simp [hanswer, hC, hT, hdef, uniform_nil]

/-- Two definitions of one name, with one for another name between them. -/
def definedTwice : List (String × List Signature) :=
  [("f", [[⟨1⟩], [⟨1⟩, ⟨2⟩]]), ("g", []), ("f", [[⟨2⟩, ⟨1⟩]])]

/-- The overload with the costlier first argument wins a tie, and is named by its place among all three. -/
theorem resolve_definedTwice :
    ∃ res, (build { asymmetric := true } none definedTwice).resolve Manager.oneToTwo "f" [⟨0⟩, ⟨0⟩] = .ok (.ok res) ∧
      res.index = 2 ∧ res.signature = [⟨2⟩, ⟨1⟩] ∧ res.tieBroken = true := by
  have hdefs : ∀ d ∈ definedTwice, ∀ params ∈ d.2, params.Valid := by
    unfold Signature.Valid
    decide
  have hargs : Signature.Valid [⟨0⟩, ⟨0⟩] := by unfold Signature.Valid; decide
  have hT : tied Manager.oneToTwo false [⟨0⟩, ⟨0⟩] (overloadsOf definedTwice "f") =
      [([⟨1⟩, ⟨2⟩], 1), ([⟨2⟩, ⟨1⟩], 2)] := by decide
  -- the answer with a broken tie is the seventh component
  obtain ⟨-, -, -, -, -, -, hbroken, -⟩ :=
    resolve_classification { asymmetric := true } none definedTwice hdefs Manager.oneToTwo "f" _ hargs (by decide)
  simp only [hT] at hbroken
  have huni : ¬Uniform [([⟨1⟩, ⟨2⟩], 1), ([⟨2⟩, ⟨1⟩], 2)] := by unfold Uniform; decide
  have honly : OnlyCostliest Manager.oneToTwo [⟨0⟩, ⟨0⟩] [([⟨1⟩, ⟨2⟩], 1), ([⟨2⟩, ⟨1⟩], 2)] ([⟨2⟩, ⟨1⟩], 2) := by
    intro c'
    constructor
    · rintro ⟨hmem, hmax⟩
      rcases List.mem_pair.1 hmem with rfl | rfl
      · exact absurd (hmax ([⟨2⟩, ⟨1⟩], 2) (by simp)) (by decide)
      · rfl
    · rintro rfl
      unfold Costliest
      decide
  obtain ⟨hres, -⟩ := (hbroken _).2 ⟨huni, trivial, _, honly, rfl⟩
  exact ⟨_, hres, rfl, rfl, rfl⟩

end Resolver

end Coercion
