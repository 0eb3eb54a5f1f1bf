import Coercion.Proofs.Resolver.TieBreak
import Coercion.Proofs.Selection.Best

/-!
# Overload sets

A resolver is built by definitions, which add to the overload set of a name: the name is known if one of them is for
it, and its overloads are those of all its definitions in order (`overloads?_build`).

A call is decided by the overloads with as many parameters as it has arguments, `ofArity`, and by those of them that
are admitted at the least cost, `tied`, each with its place among all overloads of the name.  Selecting among the former
finds the first of the latter and their number (`select_of_tied_eq_nil`, `select_of_tied_eq_cons`), and comparing
ratings finds all of them (`filter_rating_candidates`).
-/

namespace Coercion

namespace Resolver

/-! ### Overload sets -/

/-- The resolver that a list of definitions builds. -/
def build (policy : Policy) (names : Option Registry) (defs : List (String × List Signature)) : Resolver :=
  defs.foldl (fun r d => r.define d.1 d.2) { policy, names }

/-- Some definition is for the name. -/
def Defined (defs : List (String × List Signature)) (name : String) : Prop := ∃ d ∈ defs, d.1 = name

instance (defs : List (String × List Signature)) (name : String) : Decidable (Defined defs name) :=
  inferInstanceAs (Decidable (∃ d ∈ defs, d.1 = name))

/-- The overloads that a list of definitions gives to a name. -/
def overloadsOf (defs : List (String × List Signature)) (name : String) : List Signature :=
  (defs.filter (·.1 = name)).flatMap (·.2)

private theorem lookup_cons_ite (f : String × List Signature) (fs : List (String × List Signature)) (name : String) :
    (f :: fs).lookup name = if f.1 = name then some f.2 else fs.lookup name := by
  obtain ⟨name', overloads⟩ := f
  by_cases h : name' = name
  · simp [h]
  · have hne : (name == name') = false := by simpa using Ne.symm h
    simp [List.lookup_cons, h, hne]

private theorem lookup_defineIn (name : String) (overloads : List Signature) (fs : List (String × List Signature))
    (name' : String) :
    (defineIn name overloads fs).lookup name' =
      if name = name' then some ((fs.lookup name').getD [] ++ overloads) else fs.lookup name' := by
  induction fs with
  | nil => rw [defineIn, lookup_cons_ite]; rfl
  | cons f fs ih =>
    unfold defineIn
    by_cases hf : f.1 = name
    · rw [if_pos hf, lookup_cons_ite, lookup_cons_ite, hf]
      by_cases h : name = name' <;> simp [h]
    · rw [if_neg hf, lookup_cons_ite, lookup_cons_ite, ih]
      by_cases h : name = name'
      · have hf' : f.1 ≠ name' := h ▸ hf
        simp [h, hf']
      · simp [h]

private theorem overloads?_define (r : Resolver) (name : String) (overloads : List Signature) (name' : String) :
    (r.define name overloads).overloads? name' =
      if name = name' then some ((r.overloads? name').getD [] ++ overloads) else r.overloads? name' :=
  lookup_defineIn name overloads r.functions name'

theorem overloadsOf_eq_nil {defs : List (String × List Signature)} {name : String} (h : ¬Defined defs name) :
    overloadsOf defs name = [] := by
  have hfilter : defs.filter (·.1 = name) = [] := by
    rw [List.filter_eq_nil_iff]
    intro d hd hname
    exact h ⟨d, hd, of_decide_eq_true hname⟩
  unfold overloadsOf
  rw [hfilter]
  rfl

private theorem overloads?_foldl_define (defs : List (String × List Signature)) (r : Resolver) (name : String) :
    (defs.foldl (fun r d => r.define d.1 d.2) r).overloads? name =
      if Defined defs name then some ((r.overloads? name).getD [] ++ overloadsOf defs name)
      else r.overloads? name := by
  induction defs generalizing r with
  | nil => rfl
  | cons d defs ih =>
    rw [List.foldl_cons, ih, overloads?_define]
    have hof : overloadsOf (d :: defs) name = (if d.1 = name then d.2 else []) ++ overloadsOf defs name := by
      by_cases hd : d.1 = name <;> simp [overloadsOf, hd]
    have hdefined : Defined (d :: defs) name ↔ d.1 = name ∨ Defined defs name := List.exists_mem_cons_iff _ _ _
    simp only [hdefined, hof]
    by_cases hd : d.1 = name
    · simp only [hd, true_or, if_true]
      split
      next => simp
      next hnone => simp [overloadsOf_eq_nil hnone]
    · simp only [hd, false_or, if_false, List.nil_append]

theorem overloads?_build (policy : Policy) (names : Option Registry) (defs : List (String × List Signature))
    (name : String) :
    (build policy names defs).overloads? name =
      if Defined defs name then some (overloadsOf defs name) else none :=
  overloads?_foldl_define defs _ name

theorem overloadsOf_valid {defs : List (String × List Signature)} (h : ∀ d ∈ defs, ∀ params ∈ d.2, params.Valid)
    (name : String) : ∀ params ∈ overloadsOf defs name, params.Valid := by
  intro params hmem
  obtain ⟨d, hd, hparams⟩ := List.mem_flatMap.1 hmem
  exact h d (List.mem_of_mem_filter hd) params hparams

/-- All overloads of a resolver have valid types. -/
def OfValidTypes (r : Resolver) : Prop := ∀ f ∈ r.functions, ∀ params ∈ f.2, params.Valid

theorem OfValidTypes.valid_of_mem {r : Resolver} (hr : r.OfValidTypes) {name : String} {overloads : List Signature}
    (h : r.overloads? name = some overloads) : ∀ params ∈ overloads, params.Valid := by
  intro params hmem
  obtain ⟨before, after, hsplit, -⟩ := List.lookup_eq_some_iff.1 h
  have hf : (name, overloads) ∈ r.functions := by
    rw [hsplit]
    simp
  exact hr _ hf params hmem

private theorem policy_foldl_define (defs : List (String × List Signature)) (r : Resolver) :
    (defs.foldl (fun r d => r.define d.1 d.2) r).policy = r.policy := by
  induction defs generalizing r with
  | nil => rfl
  | cons d defs ih => exact ih (r.define d.1 d.2)

theorem policy_build (policy : Policy) (names : Option Registry) (defs : List (String × List Signature)) :
    (build policy names defs).policy = policy := policy_foldl_define defs _

/-! ### Overloads for a call -/

/-- The overloads with a number of parameters. -/
def ofArity (overloads : List Signature) (arity : Nat) : List Signature := overloads.filter (·.length = arity)

/-- The overloads for a call that are admitted at the least cost, with their places among all overloads. -/
def tied (m : Manager) (allowLossy : Bool) (args : Signature) (overloads : List Signature) : List Candidate :=
  overloads.zipIdx.filter fun c =>
    c.1.length = args.length ∧ m.Optimal allowLossy args (ofArity overloads args.length) c.1

/-- All candidates of a list have one signature. -/
def Uniform (cs : List Candidate) : Prop := ∀ c ∈ cs, ∀ c' ∈ cs, c.1 = c'.1

theorem uniform_nil : Uniform [] := fun _ hc => absurd hc List.not_mem_nil

theorem uniform_singleton (c : Candidate) : Uniform [c] := by
  intro c₁ h₁ c₂ h₂
  rw [List.mem_singleton.1 h₁, List.mem_singleton.1 h₂]

theorem all_beq_iff_uniform (c : Candidate) (rest : List Candidate) :
    (rest.all fun c' => c'.1 == c.1) = true ↔ Uniform (c :: rest) := by
  simp only [List.all_eq_true, beq_iff_eq]
  constructor
  · intro h
    have hall : ∀ c' ∈ c :: rest, c'.1 = c.1 := List.forall_mem_cons.2 ⟨rfl, h⟩
    exact fun c₁ h₁ c₂ h₂ => (hall c₁ h₁).trans (hall c₂ h₂).symm
  · intro h c' hc'
    exact h c' (List.mem_cons_of_mem _ hc') c List.mem_cons_self

section Tied

variable {m : Manager} {allowLossy : Bool} {args : Signature} {overloads : List Signature}

theorem map_fst_candidates (overloads : List Signature) (arity : Nat) :
    (candidates overloads arity).map (·.1) = ofArity overloads arity := by
  unfold candidates ofArity
  rw [← List.zipIdx_map_fst 0 overloads, List.filter_map, List.zipIdx_map_fst]
  rfl

theorem mem_ofArity_iff {overloads : List Signature} {arity : Nat} {params : Signature} :
    params ∈ ofArity overloads arity ↔ ∃ c ∈ candidates overloads arity, c.1 = params := by
  rw [← map_fst_candidates, List.mem_map]

theorem isEmpty_candidates (overloads : List Signature) (arity : Nat) :
    (candidates overloads arity).isEmpty = (ofArity overloads arity).isEmpty := by
  rw [← map_fst_candidates, List.isEmpty_map]

private theorem tied_eq_filter_candidates (m : Manager) (allowLossy : Bool) (args : Signature)
    (overloads : List Signature) :
    tied m allowLossy args overloads =
      (candidates overloads args.length).filter fun c =>
        m.Optimal allowLossy args (ofArity overloads args.length) c.1 := by
  unfold tied candidates
  rw [List.filter_filter]
  refine List.filter_congr (fun c _ => ?_)
  rw [Bool.decide_and, Bool.and_comm]

theorem pairwise_zipIdx (overloads : List Signature) : overloads.zipIdx.Pairwise (fun c c' => c.2 < c'.2) := by
  rw [← List.pairwise_map, List.zipIdx_map_snd]
  exact List.pairwise_lt_range'

/-- Tied candidates are listed by their places. -/
theorem pairwise_tied (m : Manager) (allowLossy : Bool) (args : Signature) (overloads : List Signature) :
    (tied m allowLossy args overloads).Pairwise (fun c c' => c.2 < c'.2) :=
  (pairwise_zipIdx overloads).filter _

theorem nodup_tied (m : Manager) (allowLossy : Bool) (args : Signature) (overloads : List Signature) :
    (tied m allowLossy args overloads).Nodup :=
  (pairwise_tied m allowLossy args overloads).imp (fun hlt heq => hlt.ne (congrArg Prod.snd heq))

theorem eligible_ofArity (hov : ∀ params ∈ overloads, params.Valid) :
    Manager.Eligible args (ofArity overloads args.length) := by
  intro params hmem
  obtain ⟨hmem, hlen⟩ := List.mem_filter.1 hmem
  exact ⟨hov params hmem, of_decide_eq_true hlen⟩

theorem mem_tied_of_eq_cons {c : Candidate} {rest : List Candidate}
    (hT : tied m allowLossy args overloads = c :: rest) : c ∈ tied m allowLossy args overloads := by
  rw [hT]
  exact List.mem_cons_self

theorem mem_ofArity_of_mem_tied {c : Candidate} (hc : c ∈ tied m allowLossy args overloads) :
    c.1 ∈ ofArity overloads args.length ∧ m.Optimal allowLossy args (ofArity overloads args.length) c.1 := by
  obtain ⟨hmem, hc⟩ := List.mem_filter.1 hc
  obtain ⟨hlen, hopt⟩ := of_decide_eq_true hc
  exact ⟨List.mem_filter.2 ⟨List.fst_mem_of_mem_zipIdx hmem, decide_eq_true hlen⟩, hopt⟩

theorem reached_tied (m : Manager) (allowLossy : Bool) (hov : ∀ params ∈ overloads, params.Valid) :
    Reached m allowLossy args (tied m allowLossy args overloads) := by
  intro c hc
  obtain ⟨hmem, hopt⟩ := mem_ofArity_of_mem_tied hc
  obtain ⟨hvalid, hlen⟩ := eligible_ofArity hov c.1 hmem
  exact ⟨hvalid, hlen, hopt.1⟩

/-- The tied candidates are as many as the overloads of least cost. -/
private theorem length_tied (m : Manager) (allowLossy : Bool) (args : Signature) (overloads : List Signature) :
    (tied m allowLossy args overloads).length = (ofArity overloads args.length).countP
      (m.Optimal allowLossy args (ofArity overloads args.length)) := by
  have hcount (p : Signature → Bool) :
      (ofArity overloads args.length).countP p = (candidates overloads args.length).countP (p ∘ (·.1)) := by
    rw [← map_fst_candidates, List.countP_map]
  rw [tied_eq_filter_candidates, ← List.countP_eq_length_filter, hcount]
  rfl

/-- The first overload of least cost is the first tied candidate. -/
private theorem head?_tied (m : Manager) (allowLossy : Bool) (args : Signature) (overloads : List Signature) :
    (tied m allowLossy args overloads).head? =
      (candidates overloads args.length)[(ofArity overloads args.length).findIdx
        (m.Optimal allowLossy args (ofArity overloads args.length))]? := by
  have hidx (p : Signature → Bool) :
      (ofArity overloads args.length).findIdx p = (candidates overloads args.length).findIdx (p ∘ (·.1)) := by
    rw [← map_fst_candidates, List.findIdx_map]
  rw [tied_eq_filter_candidates, List.head?_filter, List.find?_eq_getElem?_findIdx, hidx]
  rfl

section Select

variable (hargs : args.Valid) (hlen : args.length < UInt32.size) (hov : ∀ params ∈ overloads, params.Valid)

include hargs hlen hov

theorem select_of_tied_eq_nil (hT : tied m allowLossy args overloads = []) :
    m.select args (ofArity overloads args.length) allowLossy = .ok .none := by
  obtain ⟨s, hs, hsel⟩ := m.exists_select_eq_ok allowLossy hargs hlen (eligible_ofArity hov)
  cases hsel with
  | none _ => exact hs
  | @best params hmem hopt =>
    have hzero : (tied m allowLossy args overloads).length = 0 := by rw [hT]; rfl
    rw [length_tied, List.countP_eq_zero] at hzero
    exact absurd (decide_eq_true hopt) (hzero params hmem)

/-- A selection counts no candidate exactly if none is admitted. -/
theorem exists_select_count_pos_iff (m : Manager) (allowLossy : Bool) :
    ∃ s, m.select args (ofArity overloads args.length) allowLossy = .ok s ∧
      (0 < s.count ↔ ∃ params ∈ ofArity overloads args.length, m.Admits allowLossy args params) := by
  obtain ⟨s, hs, hsel⟩ := m.exists_select_eq_ok allowLossy hargs hlen (eligible_ofArity hov)
  refine ⟨s, hs, ?_⟩
  cases hsel with
  | none h =>
    refine iff_of_false (by decide) ?_
    rintro ⟨params, hmem, hadm⟩
    exact h params hmem hadm
  | @best params hmem hopt =>
    refine iff_of_true ?_ ⟨params, hmem, hopt.1⟩
    exact Int.natCast_pos.2 (List.countP_pos_iff.2 ⟨params, hmem, decide_eq_true hopt⟩)

theorem select_of_tied_eq_cons {c : Candidate} {rest : List Candidate}
    (hT : tied m allowLossy args overloads = c :: rest) :
    ∃ k : ℕ, m.select args (ofArity overloads args.length) allowLossy =
        .ok ⟨k, rest.length + 1, m.ratingOf allowLossy args c.1⟩ ∧
      (candidates overloads args.length)[k]? = some c := by
  obtain ⟨hmem, hopt⟩ := mem_ofArity_of_mem_tied (mem_tied_of_eq_cons hT)
  obtain ⟨s, hs, hsel⟩ := m.exists_select_eq_ok allowLossy hargs hlen (eligible_ofArity hov)
  cases hsel with
  | none h => exact absurd hopt.1 (h c.1 hmem)
  | @best params hmem' hopt' =>
    rw [← length_tied, hT, (Manager.ratingOf_eq_iff_optimal hlen hmem hopt hmem').2 hopt'] at hs
    refine ⟨_, hs, ?_⟩
    rw [← head?_tied, hT]
    rfl

omit hlen in
theorem rate_ofArity (m : Manager) (allowLossy : Bool) :
    m.rate args (ofArity overloads args.length) allowLossy =
      .ok ((ofArity overloads args.length).map (m.ratingOf allowLossy args)) :=
  m.rateAll_eq_ok allowLossy hargs (eligible_ofArity hov) 0

end Select

private theorem map_filter_zip_map {α β : Type} [BEq β] (l : List α) (f : α → β) (b : β) :
    ((l.zip (l.map f)).filter fun c => c.2 == b).map (·.1) = l.filter fun a => f a == b := by
  induction l with
  | nil => rfl
  | cons a l ih =>
    rw [List.map_cons, List.zip_cons_cons, List.filter_cons, List.filter_cons, ← ih]
    split <;> rfl

/-- Keeping the candidates that are listed with a rating keeps those that have it. -/
theorem map_filter_zip_candidates (overloads : List Signature) (arity : Nat) (f : Signature → Rating) (b : Rating) :
    (((candidates overloads arity).zip ((ofArity overloads arity).map f)).filter fun c => c.2 == b).map (·.1) =
      (candidates overloads arity).filter fun c => f c.1 == b := by
  rw [← map_fst_candidates, List.map_map, map_filter_zip_map]
  rfl

theorem isEmpty_ofArity_of_tied {c : Candidate} {rest : List Candidate}
    (hT : tied m allowLossy args overloads = c :: rest) : (ofArity overloads args.length).isEmpty = false := by
  rw [List.isEmpty_eq_false_iff]
  exact List.ne_nil_of_mem (mem_ofArity_of_mem_tied (mem_tied_of_eq_cons hT)).1

theorem ratingOf_eq_of_mem_tied (hlen : args.length < UInt32.size) {c c' : Candidate}
    (hc : c ∈ tied m allowLossy args overloads) (hc' : c' ∈ tied m allowLossy args overloads) :
    m.ratingOf allowLossy args c'.1 = m.ratingOf allowLossy args c.1 := by
  obtain ⟨hmem, hopt⟩ := mem_ofArity_of_mem_tied hc
  obtain ⟨hmem', hopt'⟩ := mem_ofArity_of_mem_tied hc'
  exact (Manager.ratingOf_eq_iff_optimal hlen hmem hopt hmem').2 hopt'

theorem tied_eq_nil (hC : ofArity overloads args.length = []) : tied m allowLossy args overloads = [] := by
  rw [List.eq_nil_iff_forall_not_mem]
  intro c hc
  have hmem := (mem_ofArity_of_mem_tied hc).1
  rw [hC] at hmem
  exact List.not_mem_nil hmem

/-- The candidates with the rating of a tied one are the tied ones. -/
theorem filter_rating_candidates (hlen : args.length < UInt32.size) {c : Candidate}
    (hc : c ∈ tied m allowLossy args overloads) :
    ((((candidates overloads args.length).zip
        ((ofArity overloads args.length).map (m.ratingOf allowLossy args))).filter
      fun c' => c'.2 == m.ratingOf allowLossy args c.1).map (·.1)) = tied m allowLossy args overloads := by
  obtain ⟨hmem, hopt⟩ := mem_ofArity_of_mem_tied hc
  rw [tied_eq_filter_candidates, map_filter_zip_candidates]
  refine List.filter_congr (fun c' hc' => ?_)
  have hmem' : c'.1 ∈ ofArity overloads args.length := mem_ofArity_iff.2 ⟨c', hc', rfl⟩
  rw [Bool.eq_iff_iff, beq_iff_eq, decide_eq_true_iff]
  exact Manager.ratingOf_eq_iff_optimal hlen hmem hopt hmem'

end Tied

end Resolver

end Coercion
