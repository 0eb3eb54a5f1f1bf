import Coercion.Proofs.Selection.Cost

/-!
# Candidates laid out back to back

A flat list of types holds candidates one after the other, each as long as the call: candidate `k` is its slice from
`k * arity` to `(k + 1) * arity`.  Cutting candidates that were laid out so gives them back (`slices_flatten`).

* A flat selection that finds all its slices within the list is the selection among the slices
  (`Manager.selectFlatFrom_eq_selectFrom`); one that does not runs out of types (`Manager.selectFlatFrom_of_lt`).
* The check of the size is made in words of 64 bits.  A product that fits is the length of the list
  (`SizeAgrees.length_eq`), and the slices lie within it.  A product that does not fit may wrap around to the length,
  and is then larger than it (`SizeAgrees.length_lt`).
* Where candidates are as long as the call, a selection meets no fault but an invalid type
  (`Manager.onlyInvalid_selectFrom`).
-/

namespace Coercion

/-! ### Slices -/

/-- Candidate `k` of a flat list of candidates of `arity` types each. -/
def slice (arity : Nat) (flat : List TypeId) (k : Nat) : Signature := flat.extract (k * arity) ((k + 1) * arity)

/-- The first `count` candidates of a flat list. -/
def slices (arity count : Nat) (flat : List TypeId) : List Signature := (List.range count).map (slice arity flat)

variable {arity count : Nat} {flat : List TypeId}

private theorem slice_eq_take_drop (arity : Nat) (flat : List TypeId) (k : Nat) :
    slice arity flat k = (flat.drop (k * arity)).take arity := by
  rw [slice, List.extract_eq_take_drop, Nat.succ_mul, Nat.add_sub_cancel_left]

private theorem slice_succ (arity : Nat) (flat : List TypeId) (k : Nat) :
    slice arity flat (k + 1) = slice arity (flat.drop arity) k := by
  rw [slice_eq_take_drop, slice_eq_take_drop, List.drop_drop, Nat.succ_mul, Nat.add_comm]

private theorem slices_succ (arity count : Nat) (flat : List TypeId) :
    slices arity (count + 1) flat = flat.take arity :: slices arity count (flat.drop arity) := by
  have hfirst : slice arity flat 0 = flat.take arity := by simp [slice_eq_take_drop]
  have hrest : slice arity flat ∘ Nat.succ = slice arity (flat.drop arity) := funext (slice_succ arity flat)
  rw [slices, List.range_succ_eq_map, List.map_cons, List.map_map, hfirst, hrest]
  rfl

private theorem length_of_mem_slices (h : count * arity ≤ flat.length) {params : Signature}
    (hmem : params ∈ slices arity count flat) : params.length = arity := by
  obtain ⟨k, hk, rfl⟩ := List.mem_map.1 hmem
  have hle : (k + 1) * arity ≤ count * arity := Nat.mul_le_mul_right _ (List.mem_range.1 hk)
  rw [Nat.succ_mul] at hle
  rw [slice_eq_take_drop, List.length_take, List.length_drop]
  omega

private theorem mem_of_mem_slices {params : Signature} (hmem : params ∈ slices arity count flat) {t : TypeId}
    (ht : t ∈ params) : t ∈ flat := by
  obtain ⟨k, -, rfl⟩ := List.mem_map.1 hmem
  rw [slice_eq_take_drop] at ht
  exact List.mem_of_mem_drop (List.mem_of_mem_take ht)

private theorem length_flatten_of_forall {overloads : List Signature}
    (h : ∀ params ∈ overloads, params.length = arity) :
    overloads.flatten.length = overloads.length * arity := by
  rw [List.length_flatten, List.map_congr_left h]
  simp

theorem slices_flatten {overloads : List Signature} (h : ∀ params ∈ overloads, params.length = arity) :
    slices arity overloads.length overloads.flatten = overloads := by
  induction overloads with
  | nil => rfl
  | cons params rest ih =>
    obtain ⟨hlen, hrest⟩ := List.forall_mem_cons.1 h
    rw [List.length_cons, slices_succ, List.flatten_cons, List.take_left' hlen, List.drop_left' hlen, ih hrest]

/-! ### The size of a flat list -/

/-- The length of a flat list is the product of the number of candidates and their arity, as 64-bit words. -/
def SizeAgrees (arity : Nat) (flat : List TypeId) (count : Int) : Prop :=
  0 ≤ count ∧ (flat.length : Int) = (count * arity).bmod Number.wordCount

/-- The product of the number of candidates and their arity does not fit into 64 bits with a sign. -/
def Overflows (arity : Nat) (count : Int) : Prop := Number.signedLimit ≤ count * arity

namespace SizeAgrees

variable {count : Int}

theorem length_eq (h : SizeAgrees arity flat count) (hfits : ¬Overflows arity count) :
    (flat.length : Int) = count * arity := by
  obtain ⟨hcount, hlen⟩ := h
  have hpos : 0 ≤ count * arity := Int.mul_nonneg hcount (Int.natCast_nonneg _)
  have htwice : Number.wordCount = 2 * Number.signedLimit := rfl
  unfold Overflows at hfits
  rw [hlen]
  apply Int.bmod_eq_of_le_mul_two <;> omega

/-- A product that wraps around to the length of the list is larger than it. -/
theorem length_lt (h : SizeAgrees arity flat count) (hover : Overflows arity count) :
    (flat.length : Int) < count * arity := by
  have hhalf : (count * arity).bmod Number.wordCount < Number.signedLimit := Int.bmod_lt (by decide)
  rw [← h.2] at hhalf
  exact hhalf.trans_le hover

private theorem toNat_mul_eq (h : SizeAgrees arity flat count) (hfits : ¬Overflows arity count) :
    count.toNat * arity = flat.length := by
  have hlen := h.length_eq hfits
  rw [← Int.toNat_of_nonneg h.1] at hlen
  exact_mod_cast hlen.symm

private theorem count_eq_div_iff (h : SizeAgrees arity flat count) (harity : arity ≠ 0) :
    count = flat.length / arity ↔ ¬Overflows arity count := by
  have hpos : (0 : Int) < arity := by omega
  constructor
  · intro hcount hover
    have hle : count * arity ≤ flat.length := by
      rw [hcount]
      exact Int.ediv_mul_le _ hpos.ne'
    exact absurd (h.length_lt hover) (not_lt.2 hle)
  · intro hfits
    rw [h.length_eq hfits, Int.mul_ediv_cancel _ hpos.ne']

end SizeAgrees

/-! ### Faults of a selection -/

/-- A computation returns, unless it meets an invalid type among `ts`. -/
def OnlyInvalid {α : Type} (ts : List TypeId) (x : Except Fault α) : Prop :=
  (∃ a, x = .ok a) ∨ ∃ t ∈ ts, t.valid = false ∧ x = .error (.invalidType t)

private theorem OnlyInvalid.bind {α β : Type} {ts : List TypeId} {x : Except Fault α} {f : α → Except Fault β}
    (h : OnlyInvalid ts x) (hf : ∀ a, OnlyInvalid ts (f a)) : OnlyInvalid ts (x >>= f) := by
  rcases h with ⟨a, rfl⟩ | ⟨t, ht, hinvalid, rfl⟩
  · exact hf a
  · exact Or.inr ⟨t, ht, hinvalid, rfl⟩

private theorem OnlyInvalid.mono {α : Type} {ts ts' : List TypeId} {x : Except Fault α} (h : OnlyInvalid ts x)
    (hsub : ts ⊆ ts') : OnlyInvalid ts' x :=
  h.imp_right fun ⟨t, ht, hinvalid⟩ => ⟨t, hsub ht, hinvalid⟩

namespace Manager

private theorem onlyInvalid_compatible (m : Manager) (s t : TypeId) : OnlyInvalid [s, t] (m.compatible ⟨s, t⟩) := by
  cases hs : s.valid with
  | false => exact Or.inr ⟨s, by simp, hs, by simp [compatible, requireValid, hs, bind, Except.bind]⟩
  | true =>
    cases ht : t.valid with
    | false => exact Or.inr ⟨t, by simp, ht, by simp [compatible, requireValid, hs, ht, bind, Except.bind]⟩
    | true => exact Or.inl ⟨_, m.compatible_eq_ok hs ht⟩

private theorem onlyInvalid_rateFrom (m : Manager) (allowLossy : Bool) {args params : Signature}
    (hlen : params.length = args.length) (r : Rating) :
    OnlyInvalid (args ++ params) (m.rateFrom allowLossy r args params) := by
  induction args generalizing params r with
  | nil => exact Or.inl ⟨r, by simp [rateFrom]⟩
  | cons a args ih =>
    obtain _ | ⟨p, params⟩ := params
    · simp at hlen
    · rw [rateFrom]
      refine ((m.onlyInvalid_compatible a p).mono (by simp)).bind fun k => ?_
      split
      · refine (ih (by simpa using hlen) (r.count k)).mono ?_
        grind
      · exact Or.inl ⟨_, rfl⟩

theorem onlyInvalid_selectFrom (m : Manager) (allowLossy : Bool) {args : Signature} {overloads : List Signature}
    (hov : ∀ params ∈ overloads, params.length = args.length) (k : Nat) (s : Selection) :
    OnlyInvalid (args ++ overloads.flatten) (m.selectFrom allowLossy args k s overloads) := by
  induction overloads generalizing k s with
  | nil => exact Or.inl ⟨s, rfl⟩
  | cons params rest ih =>
    obtain ⟨hlen, hrest⟩ := List.forall_mem_cons.1 hov
    rw [selectFrom, requireArity_eq_ok hlen, List.flatten_cons]
    have hrate : OnlyInvalid (args ++ (params ++ rest.flatten)) (m.rateOne allowLossy args params) :=
      (m.onlyInvalid_rateFrom allowLossy hlen .zero).mono (by grind)
    exact hrate.bind fun r => (ih hrest (k + 1) _).mono (by grind)

/-! ### Selecting from a flat list -/

/-- Where all slices lie within the flat list, the candidates are the slices. -/
theorem selectFlatFrom_eq_selectFrom (m : Manager) (allowLossy : Bool) {args : Signature} {flat : List TypeId}
    {count : Nat} (h : count * args.length ≤ flat.length) (k : Nat) (s : Selection) :
    m.selectFlatFrom allowLossy args count k s flat =
      m.selectFrom allowLossy args k s (slices args.length count flat) := by
  induction count generalizing flat k s with
  | zero => rfl
  | succ count ih =>
    rw [Nat.succ_mul] at h
    have hfirst : (flat.take args.length).length = args.length := List.length_take_of_le (by omega)
    have hrest : count * args.length ≤ (flat.drop args.length).length := by
      rw [List.length_drop]
      omega
    rw [selectFlatFrom, slices_succ, selectFrom, requireArity_eq_ok hfirst, if_neg (by omega)]
    simp only [ih hrest]
    rfl

/-- A flat list of valid types that is too short for its candidates runs out. -/
theorem selectFlatFrom_of_lt (m : Manager) (allowLossy : Bool) {args flat : Signature} (hargs : args.Valid)
    (hflat : flat.Valid) {count : Nat} (h : flat.length < count * args.length) (k : Nat) (s : Selection) :
    m.selectFlatFrom allowLossy args count k s flat = .error .outOfBounds := by
  induction count generalizing flat k s with
  | zero => omega
  | succ count ih =>
    rw [selectFlatFrom]
    by_cases hshort : flat.length < args.length
    · rw [if_pos hshort]
      rfl
    · have hfirst : (flat.take args.length).length = args.length := List.length_take_of_le (by omega)
      have htake : Signature.Valid (flat.take args.length) := fun t ht => hflat t (List.mem_of_mem_take ht)
      have hdrop : Signature.Valid (flat.drop args.length) := fun t ht => hflat t (List.mem_of_mem_drop ht)
      have hlt : (flat.drop args.length).length < count * args.length := by
        rw [Nat.succ_mul] at h
        rw [List.length_drop]
        omega
      rw [if_neg hshort, m.rateOne_eq_ok allowLossy hargs htake hfirst]
      exact ih hdrop hlt (k + 1) _

section Size

variable {m : Manager} {allowLossy : Bool} {args flat : Signature} {count : Int}

private theorem selectFlat_of_sizeAgrees (h : SizeAgrees args.length flat count) :
    m.selectFlat args flat count allowLossy = m.selectFlatFrom allowLossy args count.toNat 0 .none flat :=
  if_neg (by rintro (hneg | hne); exacts [absurd h.1 (by omega), hne h.2])

private theorem selectFlat_of_not_sizeAgrees (h : ¬SizeAgrees args.length flat count) :
    m.selectFlat args flat count allowLossy = .error (.flatSize flat.length count args.length) := by
  refine if_pos ?_
  by_contra hno
  rw [not_or, not_lt, not_not] at hno
  exact h hno

private theorem selectFlat_eq_select (h : SizeAgrees args.length flat count) (hfits : ¬Overflows args.length count) :
    m.selectFlat args flat count allowLossy = m.select args (slices args.length count.toNat flat) allowLossy := by
  rw [selectFlat_of_sizeAgrees h]
  exact m.selectFlatFrom_eq_selectFrom allowLossy (h.toNat_mul_eq hfits).le 0 .none

private theorem selectFlat_of_overflows (hargs : args.Valid) (hflat : flat.Valid)
    (h : SizeAgrees args.length flat count)
    (hover : Overflows args.length count) : m.selectFlat args flat count allowLossy = .error .outOfBounds := by
  rw [selectFlat_of_sizeAgrees h]
  apply m.selectFlatFrom_of_lt allowLossy hargs hflat
  have hlt := h.length_lt hover
  rw [← Int.toNat_of_nonneg h.1] at hlt
  exact_mod_cast hlt

private theorem eligible_slices (hflat : flat.Valid) {n : Nat} (h : n * args.length ≤ flat.length) :
    Eligible args (slices args.length n flat) := fun _ hmem =>
  ⟨fun _ ht => hflat _ (mem_of_mem_slices hmem ht), length_of_mem_slices h hmem⟩

end Size

/-- A flat selection refuses the sizes that do not agree.  Of the others, those whose product fits into 64 bits have all
slices within the list and select among them, and those whose product wraps around run out of types; the number of
candidates is the length divided by the arity for the former only. -/
theorem selectFlat_runs_out_iff_overflows (m : Manager) (allowLossy : Bool) {args flat : Signature}
    (hargs : args.Valid) (hflat : flat.Valid) (count : Int) :
    (m.selectFlat args flat count allowLossy = .error (.flatSize flat.length count args.length) ↔
      ¬SizeAgrees args.length flat count) ∧
    (m.selectFlat args flat count allowLossy = .error .outOfBounds ↔
      SizeAgrees args.length flat count ∧ Overflows args.length count) ∧
    (SizeAgrees args.length flat count → ¬Overflows args.length count →
      (∀ k < count.toNat, (k + 1) * args.length ≤ flat.length) ∧
      ∃ s, m.selectFlat args flat count allowLossy = .ok s ∧
        m.select args (slices args.length count.toNat flat) allowLossy = .ok s) ∧
    (SizeAgrees args.length flat count → args ≠ [] →
      (count = flat.length / args.length ↔ ¬Overflows args.length count)) := by
  have hselected (hagrees : SizeAgrees args.length flat count) (hfits : ¬Overflows args.length count) :
      ∃ s, m.selectFlat args flat count allowLossy = .ok s ∧
        m.select args (slices args.length count.toNat flat) allowLossy = .ok s := by
    rw [selectFlat_eq_select hagrees hfits]
    have hov := eligible_slices hflat (h := (hagrees.toNat_mul_eq hfits).le)
    exact ⟨_, m.selectFrom_eq_ok allowLossy hargs hov 0 .none, m.selectFrom_eq_ok allowLossy hargs hov 0 .none⟩
  refine ⟨⟨?_, selectFlat_of_not_sizeAgrees⟩, ⟨?_, fun h => selectFlat_of_overflows hargs hflat h.1 h.2⟩, ?_, ?_⟩
  · intro heq hagrees
    by_cases hover : Overflows args.length count
    · rw [selectFlat_of_overflows hargs hflat hagrees hover] at heq
      cases heq
    · obtain ⟨s, hs, -⟩ := hselected hagrees hover
      rw [hs] at heq
      cases heq
  · intro heq
    by_cases hagrees : SizeAgrees args.length flat count
    · by_contra hno
      obtain ⟨s, hs, -⟩ := hselected hagrees fun hover => hno ⟨hagrees, hover⟩
      rw [hs] at heq
      cases heq
    · rw [selectFlat_of_not_sizeAgrees hagrees] at heq
      cases heq
  · intro hagrees hfits
    refine ⟨fun k hk => ?_, hselected hagrees hfits⟩
    rw [← hagrees.toNat_mul_eq hfits]
    exact Nat.mul_le_mul_right _ hk
  · intro hagrees hargs
    exact hagrees.count_eq_div_iff (fun h => hargs (List.length_eq_zero_iff.1 h))

/-- Three candidates of two types each fill a list of six types. -/
theorem selectFlat_threePairs :
    ∃ s, ({} : Manager).selectFlat [⟨0⟩, ⟨1⟩] [⟨0⟩, ⟨2⟩, ⟨0⟩, ⟨1⟩, ⟨0⟩, ⟨1⟩] 3 false = .ok s ∧
      ({} : Manager).select [⟨0⟩, ⟨1⟩] [[⟨0⟩, ⟨2⟩], [⟨0⟩, ⟨1⟩], [⟨0⟩, ⟨1⟩]] false = .ok s := by
  have hargs : Signature.Valid [⟨0⟩, ⟨1⟩] := by unfold Signature.Valid; decide
  have hflat : Signature.Valid [⟨0⟩, ⟨2⟩, ⟨0⟩, ⟨1⟩, ⟨0⟩, ⟨1⟩] := by unfold Signature.Valid; decide
  exact ((selectFlat_runs_out_iff_overflows {} false hargs hflat 3).2.2.1 ⟨by decide, by decide⟩
    (by unfold Overflows; decide)).2

/-- A number of candidates whose product with the arity wraps around to zero passes for an empty list, and the selection
looks for the first candidate outside of it. -/
theorem selectFlat_wraps_to_empty :
    (4611686018427387904 : Int) < Number.signedLimit ∧ Signature.Valid [⟨0⟩, ⟨0⟩, ⟨0⟩, ⟨0⟩] ∧
      SizeAgrees 4 [] 4611686018427387904 ∧
      ({} : Manager).selectFlat [⟨0⟩, ⟨0⟩, ⟨0⟩, ⟨0⟩] [] 4611686018427387904 false = .error .outOfBounds := by
  have hargs : Signature.Valid [⟨0⟩, ⟨0⟩, ⟨0⟩, ⟨0⟩] := by unfold Signature.Valid; decide
  have hagrees : SizeAgrees 4 [] 4611686018427387904 := ⟨by decide, by decide⟩
  exact ⟨by decide, hargs, hagrees, selectFlat_of_overflows hargs (by simp [Signature.Valid]) hagrees
    (by unfold Overflows; decide)⟩

/-! ### Nested and flat candidates -/

/-- Selecting among candidates laid out back to back is selecting among the candidates, whatever the types: either both
return, or both meet the same invalid type. -/
theorem selectFlat_flatten_eq_select (m : Manager) (allowLossy : Bool) {args : Signature} {overloads : List Signature}
    (hov : ∀ params ∈ overloads, params.length = args.length) (hsize : overloads.flatten.length < Number.signedLimit) :
    m.selectFlat args overloads.flatten overloads.length allowLossy = m.select args overloads allowLossy ∧
      OnlyInvalid (args ++ overloads.flatten) (m.select args overloads allowLossy) := by
  have hproduct : (overloads.flatten.length : Int) = (overloads.length : Int) * args.length := by
    exact_mod_cast length_flatten_of_forall hov
  have hfits : ¬Overflows args.length overloads.length := by
    unfold Overflows
    omega
  have hagrees : SizeAgrees args.length overloads.flatten overloads.length := by
    refine ⟨Int.natCast_nonneg _, ?_⟩
    have htwice : Number.wordCount = 2 * Number.signedLimit := rfl
    rw [← hproduct, eq_comm]
    apply Int.bmod_eq_of_le_mul_two <;> omega
  constructor
  · rw [selectFlat_eq_select hagrees hfits, Int.toNat_natCast, slices_flatten hov]
  · exact m.onlyInvalid_selectFrom allowLossy hov 0 .none

/-- An invalid type behind a position without a conversion is not met. -/
theorem selectFlat_hiddenInvalid :
    TypeId.valid ⟨-1⟩ = false ∧
      ({} : Manager).selectFlat [⟨0⟩, ⟨1⟩] [⟨2⟩, ⟨-1⟩, ⟨0⟩, ⟨1⟩] 2 false = .ok ⟨1, 1, .zero⟩ := by
  have hov : ∀ params ∈ ([[⟨2⟩, ⟨-1⟩], [⟨0⟩, ⟨1⟩]] : List Signature), params.length = [(⟨0⟩ : TypeId), ⟨1⟩].length := by
    decide
  exact ⟨by decide, (selectFlat_flatten_eq_select {} false hov (by decide)).1⟩

end Manager

end Coercion
