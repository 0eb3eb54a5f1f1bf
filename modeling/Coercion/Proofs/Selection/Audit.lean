import Coercion.Audit
import Coercion.Proofs.Selection.Best

/-!
# What the check of a selection checks

The plain ranking of candidates rejects a position whose kind has no meaning, while rating admits it at no cost.  So the
ranking is the selection of another manager, the one that takes kinds without a meaning for no match
(`Manager.plainRank_eq_ok`), and the check accepts that selection and no other (`Manager.exists_checkSelection_eq_ok`).

It is the selection under check exactly if no candidate of least cost owes its place to a kind without a meaning
(`Manager.checkSelection_accepts_iff`).
-/

namespace Coercion

/-! ### Kinds without a meaning -/

namespace Kind

/-- Whether a kind has a meaning of its own. -/
def known : Kind → Bool
  | .other _ => false
  | _ => true

/-- A kind, or no match where it has no meaning. -/
def understood (k : Kind) : Kind := if k.known then k else .noMatch

private theorem understood_of_known {k : Kind} (h : k.known = true) : k.understood = k := if_pos h

private theorem admissible_understood (allowLossy : Bool) (k : Kind) :
    k.understood.admissible allowLossy = (k.admissible allowLossy && k.known) := by
  cases k <;> simp [understood, known, admissible]

end Kind

/-- The table with other kinds for the same pairs. -/
def CompatTable.mapKinds (f : Kind → Kind) (t : CompatTable) : CompatTable :=
  ⟨t.bins.map fun b => b.map fun r => ⟨r.pair, f r.kind⟩⟩

private theorem CompatTable.lookup?_mapKinds (f : Kind → Kind) (t : CompatTable) (p : Pair) :
    (t.mapKinds f).lookup? p = (t.lookup? p).map f := by
  have hbin : (t.mapKinds f).bins.get p.bin = (t.bins.get p.bin).map fun r => ⟨r.pair, f r.kind⟩ :=
    Vector.getElem_map _ _
  unfold lookup?
  rw [hbin, List.find?_map, Option.map_map, Option.map_map]
  rfl

namespace Manager

/-- The manager that takes kinds without a meaning for no match. -/
def understood (m : Manager) : Manager := { m with table := m.table.mapKinds Kind.understood }

/-- No position of a call has a kind without a meaning. -/
def Understands (m : Manager) (args params : Signature) : Prop := ∀ k ∈ m.kinds args params, k.known = true

instance (m : Manager) (args params : Signature) : Decidable (m.Understands args params) :=
  inferInstanceAs (Decidable (∀ k ∈ m.kinds args params, k.known = true))

section Understood

variable {m : Manager} {allowLossy : Bool} {args params : Signature} {overloads : List Signature}

private theorem kindOf_understood (m : Manager) (p : Pair) : m.understood.kindOf p = (m.kindOf p).understood := by
  unfold kindOf
  split
  · rfl
  · simp only [understood, CompatTable.find, CompatTable.lookup?_mapKinds]
    cases m.table.lookup? p <;> rfl

private theorem kinds_understood (m : Manager) (args params : Signature) :
    m.understood.kinds args params = (m.kinds args params).map Kind.understood := by
  unfold kinds
  simp only [kindOf_understood, List.map_zipWith]

private theorem Understands.kinds_eq (h : m.Understands args params) :
    m.understood.kinds args params = m.kinds args params := by
  rw [kinds_understood]
  exact List.map_congr_left (fun k hk => Kind.understood_of_known (h k hk)) |>.trans (List.map_id _)

private theorem admits_understood_iff :
    m.understood.Admits allowLossy args params ↔ m.Admits allowLossy args params ∧ m.Understands args params := by
  unfold Admits Understands
  rw [kinds_understood, ← Kind.all_admissible_iff, ← Kind.all_admissible_iff, List.all_map]
  simp only [List.all_eq_true, Function.comp, Kind.admissible_understood, Bool.and_eq_true, forall_and]

private theorem Understands.cost_eq (h : m.Understands args params) :
    m.understood.cost args params = m.cost args params := by
  unfold cost
  rw [h.kinds_eq]

private theorem Understands.ratingOf_eq (h : m.Understands args params) :
    m.understood.ratingOf allowLossy args params = m.ratingOf allowLossy args params :=
  ratingOf_congr h.kinds_eq allowLossy

end Understood

/-! ### The plain ranking -/

/-- One position of the plain rating: what is understood of its kind decides and counts. -/
private theorem plainRate_cons (m : Manager) (allowLossy : Bool) (r : Rating) {a p : TypeId} (ha : a.valid)
    (hp : p.valid) (args params : Signature) :
    m.plainRate allowLossy r (a :: args) (p :: params) =
      if (m.understood.kindOf ⟨a, p⟩).admissible allowLossy then
        m.plainRate allowLossy (r.count (m.understood.kindOf ⟨a, p⟩)) args params
      else .ok none := by
  rw [plainRate, compatible_eq_ok (p := ⟨a, p⟩) m ha hp, kindOf_understood]
  cases m.kindOf ⟨a, p⟩ <;> cases allowLossy <;> rfl

private theorem plainRate_eq_ok (m : Manager) (allowLossy : Bool) {args params : Signature} (hargs : args.Valid)
    (hparams : params.Valid) (hlen : params.length = args.length) (r : Rating) :
    m.plainRate allowLossy r args params =
      .ok (if m.understood.Admits allowLossy args params then
        some ((m.understood.kinds args params).foldl Rating.count r) else none) := by
  unfold Admits
  simp only [← Kind.all_admissible_iff]
  induction args generalizing params r with
  | nil => simp [plainRate, kinds]
  | cons a args ih =>
    obtain _ | ⟨p, params⟩ := params
    · simp at hlen
    · obtain ⟨ha, hargs⟩ := Signature.valid_cons.1 hargs
      obtain ⟨hp, hparams⟩ := Signature.valid_cons.1 hparams
      rw [plainRate_cons m allowLossy r ha hp, kinds_cons, List.all_cons, List.foldl_cons]
      by_cases hk : (m.understood.kindOf ⟨a, p⟩).admissible allowLossy = true
      · rw [if_pos hk, ih hargs hparams (by simpa using hlen), hk, Bool.true_and]
      · rw [if_neg hk, if_neg (by simp [hk])]

end Manager

/-- A selection names a candidate exactly if it counts one. -/
structure Selection.Coherent (s : Selection) : Prop where
  count_nonneg : 0 ≤ s.count
  best_neg_iff : s.best < 0 ↔ s.count = 0

private theorem Selection.coherent_none : Selection.none.Coherent := ⟨by decide, by decide⟩

private theorem Selection.Coherent.consider {s : Selection} (hs : s.Coherent) (k : Nat) (r : Rating) :
    (s.consider k r).Coherent := by
  obtain ⟨hcount, hbest⟩ := hs
  unfold Selection.consider
  split
  · exact ⟨hcount, hbest⟩
  · split
    · exact ⟨Int.one_nonneg, by simp⟩
    · rename_i hnew
      have hne : s.count ≠ 0 := fun h => hnew (by simp [h])
      split
      · refine ⟨by dsimp only; omega, ?_⟩
        dsimp only
        omega
      · exact ⟨hcount, hbest⟩

private theorem Rating.compare_eq_iff (r s : Rating) : r.compare s = .eq ↔ r = s := by
  rw [(compares_cost r s).eq_eq]
  exact cost_injective.eq_iff

/-- The plain ranking takes a rating into account as a selection does. -/
private theorem Selection.Coherent.consider_eq {s : Selection} (hs : s.Coherent) (k : Nat) {r : Rating}
    (hr : r ≠ .impossible) :
    (if s.best < 0 || r.compare s.rating == .lt then ⟨k, 1, r⟩
      else if r.compare s.rating == .eq then { s with count := s.count + 1 } else s) = s.consider k r := by
  unfold Selection.consider
  have hbest : decide (s.best < 0) = decide (s.count = 0) := decide_eq_decide.2 hs.best_neg_iff
  rw [if_neg (fun h => hr ((Rating.isImpossible_iff r).1 h)), hbest]
  have heq : (r.compare s.rating == .eq) = true ↔ r = s.rating := by rw [beq_iff_eq, Rating.compare_eq_iff]
  exact if_congr Iff.rfl rfl (if_congr heq rfl rfl)

namespace Manager

section Check

variable {args : Signature} {overloads : List Signature}

private theorem plainRank_eq_foldl (m : Manager) (allowLossy : Bool) (hargs : args.Valid)
    (hlen : args.length < UInt32.size) (hov : Eligible args overloads) (k : Nat) {s : Selection} (hs : s.Coherent) :
    m.plainRank allowLossy args k s overloads =
      .ok (.ok (((overloads.map (m.understood.ratingOf allowLossy args)).zipIdx k).foldl
        (fun s c => s.consider c.2 c.1) s)) := by
  induction overloads generalizing k s with
  | nil => rfl
  | cons params rest ih =>
    obtain ⟨⟨hparams, harity⟩, hrest⟩ := List.forall_mem_cons.1 hov
    have hnext := ih hrest (k + 1) (hs.consider k (m.understood.ratingOf allowLossy args params))
    rw [plainRank, if_neg (not_not.2 harity), m.plainRate_eq_ok allowLossy hargs hparams harity]
    rw [List.map_cons, List.zipIdx_cons, List.foldl_cons, ← hnext]
    by_cases hadm : m.understood.Admits allowLossy args params
    · have hne := Rating.foldl_count_ne_impossible (length_kinds_lt hlen m.understood params)
      have hrating : m.understood.ratingOf allowLossy args params =
          (m.understood.kinds args params).foldl Rating.count .zero := if_pos hadm
      rw [if_pos hadm, hrating, ← hs.consider_eq k hne]
      rfl
    · have hrating : m.understood.ratingOf allowLossy args params = .impossible := if_neg hadm
      rw [if_neg hadm, hrating]
      rfl

/-- The plain ranking is the selection of the manager that takes kinds without a meaning for no match. -/
theorem plainRank_eq_ok (m : Manager) (allowLossy : Bool) (hargs : args.Valid) (hlen : args.length < UInt32.size)
    (hov : Eligible args overloads) {want : Selection}
    (hwant : m.understood.select args overloads allowLossy = .ok want) :
    m.plainRank allowLossy args 0 .none overloads = .ok (.ok want) := by
  rw [m.plainRank_eq_foldl allowLossy hargs hlen hov 0 Selection.coherent_none]
  have hselect := m.understood.selectFrom_eq_ok allowLossy hargs hov 0 .none
  rw [Except.ok.inj (hselect.symm.trans hwant)]

/-- The check accepts the ranked selection and no other. -/
theorem exists_checkSelection_eq_ok (m : Manager) (allowLossy : Bool) (hargs : args.Valid)
    (hlen : args.length < UInt32.size) (hov : Eligible args overloads) {want : Selection}
    (hwant : m.understood.select args overloads allowLossy = .ok want) (sel : Selection) :
    ∃ finding, m.checkSelection args overloads allowLossy sel = .ok finding ∧ (finding = none ↔ sel = want) := by
  unfold checkSelection
  rw [m.plainRank_eq_ok allowLossy hargs hlen hov hwant]
  simp only [bind, Except.bind]
  obtain ⟨best, count, rating⟩ := sel
  obtain ⟨best', count', rating'⟩ := want
  by_cases hcount : count = count'
  · by_cases hbest : best = best'
    · by_cases hrating : rating = rating'
      · exact ⟨none, by simp [hcount, hbest, hrating]; rfl, by simp [hcount, hbest, hrating]⟩
      · exact ⟨some (.rating rating rating'), by simp [hcount, hbest, hrating]; rfl, by simp [hrating]⟩
    · exact ⟨some (.best best best'), by simp [hcount, hbest]; rfl, by simp [hbest]⟩
  · exact ⟨some (.count count count'), by simp [hcount]; rfl, by simp [hcount]⟩

end Check

/-! ### When the check agrees -/

private theorem of_countP_eq {α : Type} {p q : α → Bool} {l : List α} (himp : ∀ a ∈ l, p a = true → q a = true)
    (hcount : l.countP p = l.countP q) : ∀ a ∈ l, q a = true → p a = true := by
  induction l with
  | nil => simp
  | cons a l ih =>
    obtain ⟨ha, hl⟩ := List.forall_mem_cons.1 himp
    have hle : l.countP p ≤ l.countP q := List.countP_mono_left hl
    rw [List.countP_cons, List.countP_cons] at hcount
    have hhead : q a = true → p a = true := by
      intro hq
      by_contra hp
      simp only [hq, hp, if_true, if_false] at hcount
      omega
    refine List.forall_mem_cons.2 ⟨hhead, ih hl ?_⟩
    have hsame : p a = q a := Bool.eq_iff_iff.2 ⟨ha, hhead⟩
    rw [hsame] at hcount
    omega

section Agreement

variable {m : Manager} {allowLossy : Bool} {args : Signature} {overloads : List Signature} {s want : Selection}

/-- If the candidates of least cost are understood, they are those of least cost among what is understood. -/
private theorem optimal_understood_iff (hs : m.Selects allowLossy args overloads s)
    (hall : ∀ params ∈ overloads, m.Optimal allowLossy args overloads params → m.Understands args params)
    {params : Signature} (hmem : params ∈ overloads) :
    m.Optimal allowLossy args overloads params ↔ m.understood.Optimal allowLossy args overloads params := by
  constructor
  · intro hopt
    have hund := hall params hmem hopt
    refine ⟨admits_understood_iff.2 ⟨hopt.1, hund⟩, fun p hp hadm => ?_⟩
    obtain ⟨hadm', hund'⟩ := admits_understood_iff.1 hadm
    rw [hund.cost_eq, hund'.cost_eq]
    exact hopt.2 p hp hadm'
  · intro hopt
    obtain ⟨hadm, hund⟩ := admits_understood_iff.1 hopt.1
    refine ⟨hadm, fun p hp hadmp => ?_⟩
    cases hs with
    | none hnone => exact absurd hadm (hnone params hmem)
    | @best best hbest hleast =>
      have hundb := hall best hbest hleast
      have hle := hopt.2 best hbest (admits_understood_iff.2 ⟨hleast.1, hundb⟩)
      rw [hund.cost_eq, hundb.cost_eq] at hle
      exact hle.trans (hleast.2 p hp hadmp)

private theorem eq_of_understands (hlen : args.length < UInt32.size) (hs : m.Selects allowLossy args overloads s)
    (hwant : m.understood.Selects allowLossy args overloads want)
    (hall : ∀ params ∈ overloads, m.Optimal allowLossy args overloads params → m.Understands args params) :
    want = s := by
  refine (hs.eq_of_optimal_iff hlen hwant (fun p hp => optimal_understood_iff hs hall hp) (fun p hp hopt => ?_)).symm
  exact (hall p hp hopt).ratingOf_eq

/-- Equal selections count the same candidates, and those that are counted by both are understood. -/
private theorem understands_of_eq (hlen : args.length < UInt32.size) (hs : m.Selects allowLossy args overloads s)
    (hwant : m.understood.Selects allowLossy args overloads s) {params : Signature} (hmem : params ∈ overloads)
    (hopt : m.Optimal allowLossy args overloads params) : m.Understands args params := by
  generalize hs' : s = s' at hwant
  cases hs with
  | none hnone => exact absurd hopt.1 (hnone params hmem)
  | @best p hp hbest =>
    cases hwant with
    | none _ =>
      have hpos : 0 < overloads.countP (m.Optimal allowLossy args overloads) :=
        List.countP_pos_iff.2 ⟨params, hmem, decide_eq_true hopt⟩
      have hzero := Int.ofNat_eq_zero.1 (congrArg Selection.count hs')
      omega
    | @best q hq hbest' =>
      have hcount := Int.ofNat_inj.1 (congrArg Selection.count hs')
      have hrating : m.ratingOf allowLossy args p = m.understood.ratingOf allowLossy args q :=
        congrArg Selection.rating hs'
      have himp : ∀ o ∈ overloads, decide (m.understood.Optimal allowLossy args overloads o) = true →
          decide (m.Optimal allowLossy args overloads o) = true := by
        intro o ho ho'
        have hopt' := of_decide_eq_true ho'
        have hund := (admits_understood_iff.1 hopt'.1).2
        rw [decide_eq_true_iff, ← ratingOf_eq_iff_optimal hlen hp hbest ho, hrating, ← hund.ratingOf_eq]
        exact (ratingOf_eq_iff_optimal hlen hq hbest' ho).2 hopt'
      have hopt' := of_decide_eq_true (of_countP_eq himp hcount.symm params hmem (decide_eq_true hopt))
      exact (admits_understood_iff.1 hopt'.1).2

end Agreement

/-- The check accepts one selection, that of the manager to which kinds without a meaning are no match.  It is the
selection under check exactly if all candidates of least cost are understood. -/
theorem checkSelection_accepts_iff (m : Manager) (allowLossy : Bool) {args : Signature} (hargs : args.Valid)
    (hlen : args.length < UInt32.size) {overloads : List Signature}
    (hov : ∀ params ∈ overloads, params.Valid ∧ params.length = args.length) :
    ∃ s want, m.select args overloads allowLossy = .ok s ∧ m.understood.select args overloads allowLossy = .ok want ∧
      (∀ sel, ∃ finding, m.checkSelection args overloads allowLossy sel = .ok finding ∧
        (finding = none ↔ sel = want)) ∧
      (want = s ↔
        ∀ params ∈ overloads, m.Optimal allowLossy args overloads params → m.Understands args params) := by
  obtain ⟨s, hs, hsel⟩ := m.exists_select_eq_ok allowLossy hargs hlen hov
  obtain ⟨want, hwant, hwantSel⟩ := m.understood.exists_select_eq_ok allowLossy hargs hlen hov
  refine ⟨s, want, hs, hwant, m.exists_checkSelection_eq_ok allowLossy hargs hlen hov hwant, ?_, ?_⟩
  · rintro rfl params hmem hopt
    exact understands_of_eq hlen hsel hwantSel hmem hopt
  · exact eq_of_understands hlen hsel hwantSel

/-- The first type promotes to the second, converts safely to the third, and is related to the fourth by a kind without
a meaning. -/
def halfUnderstood : Manager :=
  { table := CompatTable.empty.insert ⟨⟨0⟩, ⟨1⟩⟩ .promote |>.insert ⟨⟨0⟩, ⟨2⟩⟩ .safe |>.insert ⟨⟨0⟩, ⟨3⟩⟩ (.ofCode 9) }

/-- A candidate that is not understood but too costly to be selected leaves the check in agreement. -/
theorem checkSelection_halfUnderstood :
    halfUnderstood.Admits false [⟨0⟩, ⟨0⟩] [⟨3⟩, ⟨2⟩] ∧ ¬halfUnderstood.Understands [⟨0⟩, ⟨0⟩] [⟨3⟩, ⟨2⟩] ∧
      ∀ sel, halfUnderstood.checkSelection [⟨0⟩, ⟨0⟩] [[⟨3⟩, ⟨2⟩], [⟨1⟩, ⟨1⟩]] false sel = .ok none ↔
        sel = ⟨1, 1, ⟨2, 0, 0⟩⟩ := by
  have hargs : Signature.Valid [⟨0⟩, ⟨0⟩] := by unfold Signature.Valid; decide
  have hov : ∀ params ∈ ([[⟨3⟩, ⟨2⟩], [⟨1⟩, ⟨1⟩]] : List Signature),
      params.Valid ∧ params.length = [(⟨0⟩ : TypeId), ⟨0⟩].length := by
    unfold Signature.Valid
    decide
  obtain ⟨s, want, hs, -, hcheck, hagree⟩ := checkSelection_accepts_iff halfUnderstood false hargs (by decide) hov
  obtain rfl : Selection.mk 1 1 ⟨2, 0, 0⟩ = s := Except.ok.inj hs
  obtain rfl := hagree.2 (by decide)
  refine ⟨by decide, by decide, fun sel => ?_⟩
  obtain ⟨finding, hfinding, hiff⟩ := hcheck sel
  rw [hfinding, Except.ok.injEq, hiff]

/-- A kind without a meaning is selected at no cost, and the check finds fault with the selection. -/
theorem checkSelection_rejects_selected :
    ∃ m, ({} : Manager).add ⟨⟨0⟩, ⟨1⟩⟩ (.ofCode 6) = .ok m ∧ m.select [⟨0⟩] [[⟨1⟩]] false = .ok ⟨0, 1, .zero⟩ ∧
      m.checkSelection [⟨0⟩] [[⟨1⟩]] false ⟨0, 1, .zero⟩ = .ok (some (.count 1 0)) :=
  ⟨_, rfl, rfl, rfl⟩

end Manager

end Coercion
