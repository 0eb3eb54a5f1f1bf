import Coercion.Proofs.Resolver.Overloads

/-!
# Resolving while others register

A resolution reads its manager several times: it selects, and in a tie it rates the candidates again and then the
arguments of each tied candidate.  As long as the manager is open, other clients may register between two reads
(`Manager.Interleaved`), so that the reads see different tables.

Each read by itself is total, and what the later reads see can only change which answer is given.  The ratings of the
second read are compared with the rating that the first one found: if registrations have taken that rating from all
candidates, the tie is lost (`LosesTie`), and only then resolution fails, on the first of no tied candidates
(`resolveAt_cases`).  A tie is not lost as long as no pair of one of its candidates is registered anew between the two
reads (`not_losesTie_of_untouched`).
-/

namespace Coercion

/-! ### Registrations between reads -/

namespace Manager

/-- What the reads of a resolution see when other clients make the registrations `between n` before read `n`. -/
structure Interleaved (m : Manager) (between : ℕ → List Record) (view : ℕ → Manager) : Prop where
  first : m.addAll (between 0) = .ok (view 0)
  next (n : ℕ) : (view n).addAll (between (n + 1)) = .ok (view (n + 1))

/-- An open manager takes registrations of valid types at any time. -/
private theorem exists_interleaved {m : Manager} (hm : m.frozen = false) {between : ℕ → List Record}
    (hbetween : ∀ n, ∀ r ∈ between n, r.pair.source.valid = true ∧ r.pair.target.valid = true) :
    ∃ view, m.Interleaved between view := by
  let seen (n : ℕ) : Manager :=
    { m with table := ((List.range (n + 1)).flatMap between).foldl (fun t r => t.insert r.pair r.kind) m.table }
  refine ⟨seen, ?_, fun n => ?_⟩
  · rw [addAll_eq_ok hm (hbetween 0)]
    simp [seen]
  · rw [addAll_eq_ok (m := seen n) hm (hbetween (n + 1))]
    simp [seen, List.range_succ]

/-- Registrations for other pairs than those of a call leave its rating as it was. -/
private theorem ratingOf_of_addAll_eq_ok {m m' : Manager} {rs : List Record} (h : m.addAll rs = .ok m')
    (allowLossy : Bool) {args params : Signature} (hrs : ∀ r ∈ rs, r.pair ∉ List.zipWith Pair.mk args params) :
    m'.ratingOf allowLossy args params = m.ratingOf allowLossy args params := by
  have hkinds (m : Manager) : m.kinds args params = (List.zipWith Pair.mk args params).map m.kindOf := by
    rw [List.map_zipWith]
    rfl
  refine ratingOf_congr ?_ allowLossy
  rw [hkinds, hkinds]
  refine List.map_congr_left (fun p hp => kindOf_of_addAll_eq_ok h (fun r hr hrp => ?_))
  exact hrs r hr (hrp ▸ hp)

end Manager

namespace Resolver

variable {r : Resolver} {view : ℕ → Manager} {name : String} {args : Signature} {overloads : List Signature}

/-- The first read finds a tie, and to the second read no candidate has the rating of the tied ones. -/
def LosesTie (r : Resolver) (view : ℕ → Manager) (name : String) (args : Signature) : Prop :=
  ∃ overloads s, r.overloads? name = some overloads ∧
    (view 0).select args (ofArity overloads args.length) r.policy.allowLossy = .ok s ∧ 1 < s.count ∧
    ∀ params ∈ ofArity overloads args.length, (view 1).ratingOf r.policy.allowLossy args params ≠ s.rating

/-- An answer that names the tied candidates, if there are any, names two of them at least. -/
def NamesTwo : Except Failure Resolution → Prop
  | .error (.ambiguous _ _ cs) => 2 ≤ cs.length
  | _ => True

/-! ### Reads never fail -/

section Reads

variable (hargs : args.Valid) (hov : ∀ params ∈ overloads, params.Valid)

include hargs

private theorem exists_leaderOf_eq_ok (view : ℕ → Manager) (allowLossy : Bool) {cs : List Candidate}
    (hcs : ∀ c ∈ cs, c.1.Valid ∧ c.1.length = args.length) (n : ℕ) (leader : Option Leader) :
    ∃ leader', leaderOf view allowLossy args n leader cs = .ok leader' := by
  induction cs generalizing n leader with
  | nil => exact ⟨leader, rfl⟩
  | cons c cs ih =>
    obtain ⟨⟨hvalid, hlen⟩, hrest⟩ := List.forall_mem_cons.1 hcs
    rw [leaderOf, (view n).rateArguments_eq_ok allowLossy hargs hvalid hlen]
    -- a candidate that is no longer admitted is passed over
    split_ifs
    · exact ih hrest (n + 1) _
    · exact ih hrest (n + 1) leader

private theorem exists_breakTie_eq_ok (view : ℕ → Manager) (allowLossy : Bool) {cs : List Candidate}
    (hcs : ∀ c ∈ cs, c.1.Valid ∧ c.1.length = args.length) : ∃ w, breakTie view allowLossy args cs = .ok w := by
  obtain ⟨leader, hleader⟩ := exists_leaderOf_eq_ok hargs view allowLossy hcs 2 none
  unfold breakTie
  rw [hleader]
  cases leader with
  | none => exact ⟨none, rfl⟩
  | some l => exact ⟨_, rfl⟩

include hov

private theorem exists_select_chosen (m : Manager) (allowLossy : Bool) :
    ∃ s, m.select args (ofArity overloads args.length) allowLossy = .ok s ∧
      Selection.Chosen ((ofArity overloads args.length).map (m.ratingOf allowLossy args)) s :=
  ⟨_, m.selectFrom_eq_ok allowLossy hargs (eligible_ofArity hov) 0 .none, Selection.chosen_foldl _⟩

/-- A tie is decided unless no candidate has the rating that the first read found. -/
private theorem resolveTie_cases (r : Resolver) (view : ℕ → Manager) (name : String) (best : Rating) :
    ((∀ params ∈ ofArity overloads args.length, (view 1).ratingOf r.policy.allowLossy args params ≠ best) ∧
      r.resolveTie view name args (candidates overloads args.length) best = .error .outOfBounds) ∨
    ((∃ params ∈ ofArity overloads args.length, (view 1).ratingOf r.policy.allowLossy args params = best) ∧
      ∃ answer, r.resolveTie view name args (candidates overloads args.length) best = .ok answer ∧
        NamesTwo answer) := by
  unfold resolveTie
  rw [map_fst_candidates]
  simp only [rate_ofArity hargs hov, bind, Except.bind, map_filter_zip_candidates]
  cases hT : (candidates overloads args.length).filter
      fun c => (view 1).ratingOf r.policy.allowLossy args c.1 == best with
  | nil =>
    refine Or.inl ⟨fun params hmem heq => ?_, rfl⟩
    obtain ⟨c, hc, rfl⟩ := mem_ofArity_iff.1 hmem
    exact List.filter_eq_nil_iff.1 hT c hc (beq_iff_eq.2 heq)
  | cons c rest =>
    have hmem : ∀ d ∈ c :: rest, d ∈ candidates overloads args.length ∧
        (view 1).ratingOf r.policy.allowLossy args d.1 = best := by
      intro d hd
      rw [← hT, List.mem_filter, beq_iff_eq] at hd
      exact hd
    refine Or.inr ⟨⟨c.1, mem_ofArity_iff.2 ⟨c, (hmem c List.mem_cons_self).1, rfl⟩, (hmem c List.mem_cons_self).2⟩, ?_⟩
    by_cases huni : (rest.all fun d => d.1 == c.1) = true
    · simp only [huni, if_true]
      exact ⟨_, rfl, trivial⟩
    · -- candidates of different signatures are two at least
      have hlen : 2 ≤ (c :: rest).length := by
        cases rest with
        | nil => exact absurd rfl huni
        | cons d rest => simp
      have heligible : ∀ d ∈ c :: rest, d.1.Valid ∧ d.1.length = args.length := by
        intro d hd
        exact eligible_ofArity hov d.1 (mem_ofArity_iff.2 ⟨d, (hmem d hd).1, rfl⟩)
      obtain ⟨w, hw⟩ := exists_breakTie_eq_ok hargs view r.policy.allowLossy heligible
      simp only [huni]
      by_cases hasym : r.policy.asymmetric = true
      · simp only [hasym, if_true, hw]
        cases w with
        | none => exact ⟨_, rfl, hlen⟩
        | some d => exact ⟨_, rfl, trivial⟩
      · simp only [hasym]
        exact ⟨_, rfl, hlen⟩

end Reads

/-! ### Resolution -/

section Resolution

variable (hover : r.overloads? name = some overloads) {s : Selection}
  (hs : (view 0).select args (ofArity overloads args.length) r.policy.allowLossy = .ok s)
  (hchosen : Selection.Chosen ((ofArity overloads args.length).map ((view 0).ratingOf r.policy.allowLossy args)) s)

include hover hs hchosen

/-- A tie is decided on the rating that the first read found. -/
private theorem resolveAt_eq_resolveTie (hcount : 1 < s.count) :
    r.resolveAt view name args = r.resolveTie view name args (candidates overloads args.length) s.rating := by
  have hlt := hchosen.best_lt (by omega)
  have hne : (ofArity overloads args.length).isEmpty = false := by
    rw [List.isEmpty_eq_false_iff, ← List.length_pos_iff, ← List.length_map]
    exact Nat.zero_lt_of_lt hlt
  have houtcome : s.outcome = .ambiguous := by
    unfold Selection.outcome
    rw [if_neg (by omega), if_neg (by omega)]
  unfold resolveAt
  rw [hover]
  simp only [isEmpty_candidates, hne, map_fst_candidates, hs]
  simp only [Bool.false_eq_true, if_false, bind, Except.bind, houtcome]

/-- A call with one candidate of least cost, or none, is answered without another look at the ratings. -/
private theorem exists_resolveAt_eq_ok (hargs : args.Valid) (hov : ∀ params ∈ overloads, params.Valid)
    (hcount : ¬1 < s.count) : ∃ answer, r.resolveAt view name args = .ok answer ∧ NamesTwo answer := by
  unfold resolveAt
  rw [hover]
  simp only [isEmpty_candidates, map_fst_candidates, hs, bind, Except.bind]
  cases hempty : (ofArity overloads args.length).isEmpty with
  | true => exact ⟨_, rfl, trivial⟩
  | false =>
    by_cases hzero : s.count = 0
    · -- nothing is admitted, and the second read is asked what lossy conversions would add
      have houtcome : s.outcome = .noMatch := if_pos hzero
      obtain ⟨s', hs', -⟩ := exists_select_chosen hargs hov (view 1) true
      simp only [Bool.false_eq_true, if_false, houtcome, hs']
      cases r.policy.allowLossy with
      | true => exact ⟨_, rfl, trivial⟩
      | false => exact ⟨_, rfl, trivial⟩
    · have hnonneg := hchosen.count_nonneg
      have houtcome : s.outcome = .unique := by
        unfold Selection.outcome
        rw [if_neg hzero, if_pos (by omega)]
      have hlt := hchosen.best_lt hzero
      rw [List.length_map, ← map_fst_candidates, List.length_map] at hlt
      simp only [Bool.false_eq_true, if_false, houtcome, List.getElem?_eq_getElem hlt]
      exact ⟨_, rfl, trivial⟩

end Resolution

/-- A resolution answers unless it loses a tie, whatever the reads see. -/
theorem resolveAt_cases (hr : r.OfValidTypes) (hargs : args.Valid) (view : ℕ → Manager) (name : String) :
    (LosesTie r view name args ∧ r.resolveAt view name args = .error .outOfBounds) ∨
    (¬LosesTie r view name args ∧ ∃ answer, r.resolveAt view name args = .ok answer ∧ NamesTwo answer) := by
  cases hover : r.overloads? name with
  | none =>
    refine Or.inr ⟨?_, .error (.unknownFunction name args), ?_, trivial⟩
    · rintro ⟨overloads, s, h, -⟩
      rw [hover] at h
      cases h
    · unfold resolveAt
      rw [hover]
      rfl
  | some overloads =>
    have hov := hr.valid_of_mem hover
    obtain ⟨s, hs, hchosen⟩ := exists_select_chosen hargs hov (view 0) r.policy.allowLossy
    have hloses : LosesTie r view name args ↔ 1 < s.count ∧
        ∀ params ∈ ofArity overloads args.length, (view 1).ratingOf r.policy.allowLossy args params ≠ s.rating := by
      constructor
      · rintro ⟨overloads', s', h, hs', hlost⟩
        obtain rfl : overloads = overloads' := Option.some.inj (hover.symm.trans h)
        obtain rfl : s = s' := Except.ok.inj (hs.symm.trans hs')
        exact hlost
      · exact fun hlost => ⟨overloads, s, hover, hs, hlost⟩
    rw [hloses]
    by_cases hcount : 1 < s.count
    · rw [resolveAt_eq_resolveTie hover hs hchosen hcount]
      obtain ⟨hlost, hfault⟩ | ⟨⟨params, hmem, hrating⟩, hanswer⟩ := resolveTie_cases hargs hov r view name s.rating
      · exact Or.inl ⟨⟨hcount, hlost⟩, hfault⟩
      · exact Or.inr ⟨fun hlost => hlost.2 params hmem hrating, hanswer⟩
    · exact Or.inr ⟨fun hlost => hcount hlost.1, exists_resolveAt_eq_ok hover hs hchosen hargs hov hcount⟩

/-- One tied candidate whose pairs are not registered anew keeps the tie. -/
theorem not_losesTie_of_untouched {m : Manager} {between : ℕ → List Record} (hview : m.Interleaved between view)
    (hover : r.overloads? name = some overloads) {s : Selection}
    (hs : (view 0).select args (ofArity overloads args.length) r.policy.allowLossy = .ok s) {params : Signature}
    (hmem : params ∈ ofArity overloads args.length)
    (hrating : (view 0).ratingOf r.policy.allowLossy args params = s.rating)
    (huntouched : ∀ rec ∈ between 1, rec.pair ∉ List.zipWith Pair.mk args params) :
    ¬LosesTie r view name args := by
  rintro ⟨overloads', s', hover', hs', -, hlost⟩
  obtain rfl : overloads = overloads' := Option.some.inj (hover.symm.trans hover')
  obtain rfl : s = s' := Except.ok.inj (hs.symm.trans hs')
  refine hlost params hmem ?_
  rw [Manager.ratingOf_of_addAll_eq_ok (hview.next 0) r.policy.allowLossy huntouched]
  exact hrating

/-- Whatever is registered between the reads of a resolution, it answers, and names two candidates at least where it
leaves a tie open, unless the registrations between its first two reads lose the tie; they do not as long as one of the
tied candidates is left alone. -/
theorem resolve_while_registering (hr : r.OfValidTypes) (hargs : args.Valid) (name : String) {m : Manager}
    (hm : m.frozen = false) {between : ℕ → List Record}
    (hbetween : ∀ n, ∀ rec ∈ between n, rec.pair.source.valid = true ∧ rec.pair.target.valid = true) :
    ∃ view, m.Interleaved between view ∧
      ((LosesTie r view name args ∧ r.resolveAt view name args = .error .outOfBounds) ∨
        (¬LosesTie r view name args ∧ ∃ answer, r.resolveAt view name args = .ok answer ∧ NamesTwo answer)) ∧
      ∀ overloads s params, r.overloads? name = some overloads →
        (view 0).select args (ofArity overloads args.length) r.policy.allowLossy = .ok s →
        params ∈ ofArity overloads args.length → (view 0).ratingOf r.policy.allowLossy args params = s.rating →
        (∀ rec ∈ between 1, rec.pair ∉ List.zipWith Pair.mk args params) → ¬LosesTie r view name args := by
  obtain ⟨view, hview⟩ := Manager.exists_interleaved hm hbetween
  refine ⟨view, hview, resolveAt_cases hr hargs view name, ?_⟩
  intro overloads s params hover hs hmem hrating huntouched
  exact not_losesTie_of_untouched hview hover hs hmem hrating huntouched

/-- The first type promotes to all others. -/
def promotions : Manager :=
  { table := CompatTable.empty.insert ⟨⟨0⟩, ⟨1⟩⟩ .promote |>.insert ⟨⟨0⟩, ⟨2⟩⟩ .promote |>.insert ⟨⟨0⟩, ⟨3⟩⟩ .promote }

/-- Two overloads that tie on the first type. -/
def twoPromotions : Resolver := { functions := [("f", [[⟨1⟩, ⟨2⟩], [⟨1⟩, ⟨3⟩]])] }

private theorem ofValidTypes_twoPromotions : twoPromotions.OfValidTypes := by
  unfold OfValidTypes Signature.Valid
  decide

/-- One registration, between the first two reads. -/
def beforeSecond (rec : Record) (n : ℕ) : List Record := if n = 1 then [rec] else []

/-- A registration for the second of two tied overloads leaves the first one in the tie. -/
theorem resolve_twoPromotions :
    ∃ view, promotions.Interleaved (beforeSecond ⟨⟨⟨0⟩, ⟨3⟩⟩, .safe⟩) view ∧
      ¬LosesTie twoPromotions view "f" [⟨0⟩, ⟨0⟩] ∧
      ∃ answer, twoPromotions.resolveAt view "f" [⟨0⟩, ⟨0⟩] = .ok answer ∧ NamesTwo answer := by
  have hargs : Signature.Valid [⟨0⟩, ⟨0⟩] := by unfold Signature.Valid; decide
  have hbetween : ∀ n, ∀ rec ∈ beforeSecond ⟨⟨⟨0⟩, ⟨3⟩⟩, .safe⟩ n,
      rec.pair.source.valid = true ∧ rec.pair.target.valid = true := by
    intro n
    unfold beforeSecond
    split <;> decide
  obtain ⟨view, hview, hcases, huntouched⟩ :=
    resolve_while_registering ofValidTypes_twoPromotions hargs "f" (m := promotions) rfl hbetween
  have hfirst : view 0 = promotions := Except.ok.inj (hview.first.symm.trans rfl)
  have hkept : ¬LosesTie twoPromotions view "f" [⟨0⟩, ⟨0⟩] := by
    refine huntouched [[⟨1⟩, ⟨2⟩], [⟨1⟩, ⟨3⟩]] ⟨0, 2, ⟨2, 0, 0⟩⟩ [⟨1⟩, ⟨2⟩] rfl ?_ (by decide) ?_ (by decide)
    · rw [hfirst]; rfl
    · rw [hfirst]; decide
  obtain ⟨hlost, -⟩ | ⟨-, hanswer⟩ := hcases
  · exact absurd hlost hkept
  · exact ⟨view, hview, hkept, hanswer⟩

/-- The manager of `promotions` after the pair that both overloads use is registered anew. -/
def demoted : Manager := { promotions with table := promotions.table.insert ⟨⟨0⟩, ⟨1⟩⟩ .safe }

/-- A registration for a pair that both tied overloads use makes the resolution fail, which on the manager before it and
on the manager after it reports a tie. -/
theorem resolveAt_demoted :
    promotions.frozen = false ∧ twoPromotions.OfValidTypes ∧
      promotions.Interleaved (beforeSecond ⟨⟨⟨0⟩, ⟨1⟩⟩, .safe⟩) (fun n => if n = 0 then promotions else demoted) ∧
      twoPromotions.resolveAt (fun n => if n = 0 then promotions else demoted) "f" [⟨0⟩, ⟨0⟩] = .error .outOfBounds ∧
      ∀ m ∈ [promotions, demoted], twoPromotions.resolve m "f" [⟨0⟩, ⟨0⟩] =
        .ok (.error (.ambiguous "f" [⟨0⟩, ⟨0⟩] [([⟨1⟩, ⟨2⟩], 0), ([⟨1⟩, ⟨3⟩], 1)])) := by
  refine ⟨rfl, ofValidTypes_twoPromotions, ⟨rfl, fun n => ?_⟩, rfl, ?_⟩
  · cases n <;> rfl
  · exact List.forall_mem_cons.2 ⟨rfl, List.forall_mem_singleton.2 rfl⟩

end Resolver

end Coercion
