import Coercion.Proofs.LastWrite
import Coercion.Proofs.Order
import Coercion.Selection
import Mathlib.Data.List.Count

/-!
# The cost of a call

The cost of a call counts its lossy, its safe and its promoting positions, and costs are compared in this order.  A
candidate is admitted when no position lacks a conversion and, unless lossy conversions are allowed, none is lossy.

* Ratings compare as their costs do (`Rating.compares_cost`), and a rating is determined by its cost
  (`Rating.cost_injective`).
* The rating of a candidate is its cost if it is admitted and impossible otherwise; with fewer than `UInt32.size`
  positions no counter wraps around, and the cost of an admitted candidate is never that of the impossible rating
  (`Manager.cost_ratingOf`, `Manager.ratingOf_eq_impossible_iff`).
-/

namespace Coercion

/-- The number of lossy, of safe and of promoting positions, compared in this order. -/
abbrev Cost := ℕ ×ₗ ℕ ×ₗ ℕ

/-- The cost of positions of the given kinds. -/
def Kind.cost (ks : List Kind) : Cost := toLex (ks.count .lossy, toLex (ks.count .safe, ks.count .promote))

private theorem count_add_count_le {k l : Kind} (h : k ≠ l) (ks : List Kind) : ks.count k + ks.count l ≤ ks.length := by
  induction ks with
  | nil => simp
  | cons a ks ih =>
    simp only [List.count_cons, List.length_cons, beq_iff_eq]
    by_cases hk : a = k
    · have hl : a ≠ l := hk ▸ h
      simp only [if_pos hk, if_neg hl]
      omega
    · simp only [if_neg hk]
      split <;> omega

/-! ### Ratings as costs -/

private theorem compares_compare (a b : UInt32) : (Ord.compare a b).Compares a.toNat b.toNat := by
  cases h : Ord.compare a b with
  | lt => exact UInt32.lt_iff_toNat_lt.1 (Std.compare_eq_lt.1 h)
  | eq => exact congrArg UInt32.toNat (Std.compare_eq_iff_eq.1 h)
  | gt => exact UInt32.lt_iff_toNat_lt.1 (Std.compare_eq_gt.1 h)

namespace Rating

/-- The counters of a rating as a cost. -/
def cost (r : Rating) : Cost := toLex (r.lossy.toNat, toLex (r.safe.toNat, r.promote.toNat))

theorem cost_injective : Function.Injective cost := by
  intro r s h
  have h₁ := congrArg (fun c => (ofLex c).1) h
  have h₂ := congrArg (fun c => (ofLex (ofLex c).2).1) h
  have h₃ := congrArg (fun c => (ofLex (ofLex c).2).2) h
  obtain ⟨_, _, _⟩ := r
  obtain ⟨_, _, _⟩ := s
  congr
  · exact UInt32.toNat_inj.1 h₃
  · exact UInt32.toNat_inj.1 h₂
  · exact UInt32.toNat_inj.1 h₁

/-- Ratings compare as their costs do. -/
theorem compares_cost (r s : Rating) : (r.compare s).Compares r.cost s.cost := by
  unfold compare cost
  rw [Ordering.then_assoc]
  exact compares_then (compares_compare _ _) (compares_then (compares_compare _ _) (compares_compare _ _))

theorem less_iff (r s : Rating) : r.less s = true ↔ r.cost < s.cost := by
  unfold less
  rw [beq_iff_eq]
  exact (compares_cost r s).eq_lt

theorem isImpossible_iff (r : Rating) : r.isImpossible = true ↔ r = impossible := beq_iff_eq

/-- Counting adds to a counter the number of positions of its kind, as words. -/
private theorem counter_foldl_count (f : Rating → UInt32) (k₀ : Kind)
    (hf : ∀ r k, f (r.count k) = if k = k₀ then f r + 1 else f r) (ks : List Kind) (r : Rating) :
    f (ks.foldl count r) = f r + .ofNat (ks.count k₀) := by
  induction ks generalizing r with
  | nil => simp
  | cons k ks ih =>
    rw [List.foldl_cons, ih, hf, List.count_cons]
    by_cases h : k = k₀
    · simp [h, UInt32.add_assoc, UInt32.add_comm]
    · simp [h]

theorem cost_foldl_count {ks : List Kind} (h : ks.length < UInt32.size) :
    (ks.foldl count .zero).cost = Kind.cost ks := by
  have hcount (k : Kind) : (0 + UInt32.ofNat (ks.count k)).toNat = ks.count k := by
    have hlt : ks.count k < UInt32.size := Nat.lt_of_le_of_lt List.count_le_length h
    rw [UInt32.zero_add]
    exact UInt32.toNat_ofNat_of_lt' hlt
  unfold cost Kind.cost
  rw [counter_foldl_count lossy .lossy (by rintro r (_ | _) <;> rfl),
    counter_foldl_count safe .safe (by rintro r (_ | _) <;> rfl),
    counter_foldl_count promote .promote (by rintro r (_ | _) <;> rfl)]
  simp only [zero, hcount]

/-- The counters of fewer than `UInt32.size` positions are not all full. -/
theorem foldl_count_ne_impossible {ks : List Kind} (h : ks.length < UInt32.size) :
    ks.foldl count .zero ≠ impossible := by
  intro heq
  have hcost : Kind.cost ks = impossible.cost := by rw [← cost_foldl_count h, heq]
  have hlossy : ks.count .lossy = UInt32.size - 1 := congrArg (fun c => (ofLex c).1) hcost
  have hsafe : ks.count .safe = UInt32.size - 1 := congrArg (fun c => (ofLex (ofLex c).2).1) hcost
  have hsum : ks.count .lossy + ks.count .safe ≤ ks.length := count_add_count_le (by decide) ks
  unfold UInt32.size at h hlossy hsafe
  omega

end Rating

/-! ### Admission -/

/-- Positions of these kinds admit a candidate: all of them convert, and none lossily unless that is allowed. -/
def Kind.Admitted (allowLossy : Bool) (ks : List Kind) : Prop :=
  .noMatch ∉ ks ∧ (allowLossy = false → .lossy ∉ ks)

instance (allowLossy : Bool) (ks : List Kind) : Decidable (Kind.Admitted allowLossy ks) :=
  inferInstanceAs (Decidable (_ ∧ _))

theorem Kind.all_admissible_iff (allowLossy : Bool) (ks : List Kind) :
    ks.all (admissible allowLossy) = true ↔ Admitted allowLossy ks := by
  have hkind (k : Kind) : k.admissible allowLossy = true ↔ k ≠ .noMatch ∧ (allowLossy = false → k ≠ .lossy) := by
    cases k <;> cases allowLossy <;> simp [admissible]
  simp only [List.all_eq_true, hkind]
  constructor
  · intro h
    exact ⟨fun hk => (h _ hk).1 rfl, fun hl hk => (h _ hk).2 hl rfl⟩
  · rintro ⟨h₁, h₂⟩ k hk
    exact ⟨fun h => h₁ (h ▸ hk), fun hl h => h₂ hl (h ▸ hk)⟩

/-- All types of a signature are valid. -/
def Signature.Valid (sig : Signature) : Prop := ∀ t ∈ sig, t.valid = true

theorem Signature.valid_cons {t : TypeId} {sig : Signature} :
    Signature.Valid (t :: sig) ↔ t.valid = true ∧ sig.Valid := List.forall_mem_cons

namespace Manager

/-- The kinds of the positions of a call. -/
def kinds (m : Manager) (args params : Signature) : List Kind :=
  List.zipWith (fun a p => m.kindOf ⟨a, p⟩) args params

@[simp] theorem kinds_cons (m : Manager) (a p : TypeId) (args params : Signature) :
    m.kinds (a :: args) (p :: params) = m.kindOf ⟨a, p⟩ :: m.kinds args params := rfl

/-- A candidate admits a call. -/
def Admits (m : Manager) (allowLossy : Bool) (args params : Signature) : Prop :=
  Kind.Admitted allowLossy (m.kinds args params)

instance (m : Manager) (allowLossy : Bool) (args params : Signature) : Decidable (m.Admits allowLossy args params) :=
  inferInstanceAs (Decidable (Kind.Admitted _ _))

/-- The cost of a call with a candidate. -/
def cost (m : Manager) (args params : Signature) : Cost := Kind.cost (m.kinds args params)

/-- The rating of a candidate: the count of its kinds, if it is admitted. -/
def ratingOf (m : Manager) (allowLossy : Bool) (args params : Signature) : Rating :=
  if m.Admits allowLossy args params then (m.kinds args params).foldl Rating.count .zero else .impossible

theorem ratingOf_congr {m m' : Manager} {args params : Signature} (h : m'.kinds args params = m.kinds args params)
    (allowLossy : Bool) : m'.ratingOf allowLossy args params = m.ratingOf allowLossy args params := by
  have hadmits : m'.Admits allowLossy args params ↔ m.Admits allowLossy args params := by
    unfold Admits
    rw [h]
  exact if_congr hadmits (by rw [h]) rfl

theorem length_kinds_lt {args : Signature} (h : args.length < UInt32.size) (m : Manager) (params : Signature) :
    (m.kinds args params).length < UInt32.size := by
  unfold kinds
  rw [List.length_zipWith]
  omega

theorem ratingOf_eq_impossible_iff {args : Signature} (h : args.length < UInt32.size) (m : Manager) (allowLossy : Bool)
    (params : Signature) : m.ratingOf allowLossy args params = .impossible ↔ ¬m.Admits allowLossy args params := by
  unfold ratingOf
  split
  next hadm =>
    have hne := Rating.foldl_count_ne_impossible (length_kinds_lt h m params)
    simp [hne, hadm]
  next hadm => simp [hadm]

theorem ratingOf_ne_impossible_iff {args : Signature} (h : args.length < UInt32.size) (m : Manager) (allowLossy : Bool)
    (params : Signature) : m.ratingOf allowLossy args params ≠ .impossible ↔ m.Admits allowLossy args params := by
  rw [ne_eq, ratingOf_eq_impossible_iff h, not_not]

theorem cost_ratingOf {args params : Signature} (h : args.length < UInt32.size) {m : Manager} {allowLossy : Bool}
    (hadm : m.Admits allowLossy args params) : (m.ratingOf allowLossy args params).cost = m.cost args params := by
  unfold ratingOf
  rw [if_pos hadm, Rating.cost_foldl_count (length_kinds_lt h m params)]
  rfl

/-! ### What the scans return -/

private theorem rateFrom_eq_ok (m : Manager) (allowLossy : Bool) {args params : Signature} (hargs : args.Valid)
    (hparams : params.Valid) (hlen : params.length = args.length) (r : Rating) :
    m.rateFrom allowLossy r args params =
      .ok (if m.Admits allowLossy args params then (m.kinds args params).foldl Rating.count r else .impossible) := by
  unfold Admits
  simp only [← Kind.all_admissible_iff]
  -- the scan stops at the first position that is not admissible, as `List.all` does
  induction args generalizing params r with
  | nil => simp [rateFrom, kinds]
  | cons a args ih =>
    obtain _ | ⟨p, params⟩ := params
    · simp at hlen
    · obtain ⟨ha, hargs⟩ := Signature.valid_cons.1 hargs
      obtain ⟨hp, hparams⟩ := Signature.valid_cons.1 hparams
      have hih := ih hargs hparams (by simpa using hlen) (r.count (m.kindOf ⟨a, p⟩))
      rw [rateFrom, compatible_eq_ok (p := ⟨a, p⟩) m ha hp, kinds_cons, List.all_cons, List.foldl_cons]
      change (if (m.kindOf ⟨a, p⟩).admissible allowLossy = true then _ else _) = _
      by_cases hk : (m.kindOf ⟨a, p⟩).admissible allowLossy = true
      · rw [if_pos hk, hih, hk, Bool.true_and]
      · rw [if_neg hk, if_neg (by simp [hk])]
        rfl

theorem rateOne_eq_ok (m : Manager) (allowLossy : Bool) {args params : Signature} (hargs : args.Valid)
    (hparams : params.Valid) (hlen : params.length = args.length) :
    m.rateOne allowLossy args params = .ok (m.ratingOf allowLossy args params) :=
  m.rateFrom_eq_ok allowLossy hargs hparams hlen .zero

/-- Candidates of valid types, as many as there are arguments. -/
def Eligible (args : Signature) (overloads : List Signature) : Prop :=
  ∀ params ∈ overloads, params.Valid ∧ params.length = args.length

theorem requireArity_eq_ok {args params : Signature} (hlen : params.length = args.length) (k : Nat) :
    requireArity args params k = .ok () := if_pos hlen

theorem rateAll_eq_ok (m : Manager) (allowLossy : Bool) {args : Signature} (hargs : args.Valid)
    {overloads : List Signature} (hov : Eligible args overloads) (k : Nat) :
    m.rateAll allowLossy args k overloads = .ok (overloads.map (m.ratingOf allowLossy args)) := by
  induction overloads generalizing k with
  | nil => rfl
  | cons params rest ih =>
    obtain ⟨⟨hparams, hlen⟩, hrest⟩ := List.forall_mem_cons.1 hov
    rw [rateAll, requireArity_eq_ok hlen, m.rateOne_eq_ok allowLossy hargs hparams hlen, ih hrest]
    rfl

theorem selectFrom_eq_ok (m : Manager) (allowLossy : Bool) {args : Signature} (hargs : args.Valid)
    {overloads : List Signature} (hov : Eligible args overloads) (k : Nat) (s : Selection) :
    m.selectFrom allowLossy args k s overloads =
      .ok (((overloads.map (m.ratingOf allowLossy args)).zipIdx k).foldl (fun s c => s.consider c.2 c.1) s) := by
  induction overloads generalizing k s with
  | nil => rfl
  | cons params rest ih =>
    obtain ⟨⟨hparams, hlen⟩, hrest⟩ := List.forall_mem_cons.1 hov
    rw [selectFrom, requireArity_eq_ok hlen, m.rateOne_eq_ok allowLossy hargs hparams hlen]
    exact ih hrest (k + 1) _

end Manager

end Coercion
