import Coercion.Registry
import Mathlib.Data.List.Basic

/-!
# The numbering of declared types

Types are numbered in the order of their declaration, and a name resolves to a number that was given out before
(`Registry.WellFormed`).  Declarations and aliases keep this (`WellFormed.declare`, `WellFormed.addAlias`), so every
name that resolves has a valid type (`WellFormed.valid_of_lookup`).
-/

namespace Coercion.Registry

/-- How many types there can be. -/
def typeLimit : Nat := 2147483648

/-- No more types are declared than there are identifiers, and every name has a declared type. -/
structure WellFormed (r : Registry) : Prop where
  size_le : r.size ≤ typeLimit
  declared : ∀ (n : String) t, r.index[n]? = some t → ∃ i < r.size, t = typeOf i

variable {r r' : Registry} {name target : String} {t : TypeId}

theorem valid_typeOf {i : Nat} (h : i < typeLimit) : (typeOf i).valid := by
  have hle : (0 : Int32) ≤ Int32.ofNat i := by
    rw [Int32.le_iff_toInt_le, Int32.toInt_ofNat_of_lt h]
    exact Int.natCast_nonneg i
  exact decide_eq_true hle

private theorem ofInt_eq_ok {n : Nat} (h : TypeId.ofInt n = .ok t) : n < typeLimit ∧ t = typeOf n := by
  unfold TypeId.ofInt at h
  split at h
  · cases h
    exact ⟨by unfold typeLimit; omega, rfl⟩
  · cases h

/-! ### Operations -/

theorem lookup_eq_ok : r.lookup name = .ok t ↔ r.index[normalize name]? = some t := by
  simp only [lookup]
  rcases r.index[normalize name]? with _ | u <;> simp

theorem declare_eq_ok (h : r.declare name = .ok (t, r')) :
    r.size < typeLimit ∧ t = typeOf r.size ∧ r'.names = r.names.push (normalize name) ∧
      r'.index = r.index.insert (normalize name) t := by
  unfold declare at h
  simp only at h
  split at h
  · cases h
  · split at h
    · cases h
    · split at h
      · cases h
      · rename_i u hu
        obtain ⟨hlt, rfl⟩ := ofInt_eq_ok hu
        cases h
        exact ⟨hlt, rfl, rfl, rfl⟩

theorem exists_declare_eq_ok_iff :
    (∃ t r', r.declare name = .ok (t, r')) ↔
      normalize name ≠ "" ∧ normalize name ∉ r.index ∧ r.size < typeLimit := by
  unfold declare
  simp only
  split
  · simp_all
  · rename_i hname
    split
    · simp_all
    · rename_i hnew
      rw [Std.HashMap.contains_iff_mem] at hnew
      cases hid : TypeId.ofInt r.size with
      | ok t => simp [hname, hnew, (ofInt_eq_ok hid).1]
      | error e =>
        have hfull : ¬r.size < typeLimit := by
          intro hlt
          unfold typeLimit at hlt
          rw [TypeId.ofInt, if_pos (by omega)] at hid
          cases hid
        simp [hfull]

theorem addAlias_eq_ok (h : r.addAlias name target = .ok r') :
    r'.names = r.names ∧ ∃ t, r.index[normalize target]? = some t ∧ r'.index = r.index.insert (normalize name) t := by
  unfold addAlias at h
  simp only at h
  split at h
  · cases h
  · split at h
    · cases h
    · split at h
      · rename_i t ht
        cases h
        exact ⟨rfl, t, ht, rfl⟩
      · cases h

theorem addAlias_eq_ok_iff : (∃ r', r.addAlias name target = .ok r') ↔
    normalize name ≠ "" ∧ normalize name ∉ r.index ∧ normalize target ∈ r.index := by
  unfold addAlias
  simp only
  split
  · simp_all
  · rename_i hname
    split
    · simp_all
    · rename_i hnew
      rw [Std.HashMap.contains_iff_mem] at hnew
      rw [Std.HashMap.mem_iff_isSome_getElem? (a := normalize target)]
      cases r.index[normalize target]? with
      | some t => simp [hname, hnew]
      | none => simp

/-! ### What they keep -/

theorem wellFormed_empty : Registry.empty.WellFormed := by
  refine ⟨Nat.zero_le _, fun n t h => ?_⟩
  have hnone : Registry.empty.index[n]? = none := Std.HashMap.getElem?_empty
  rw [hnone] at h
  cases h

theorem WellFormed.declare (hr : r.WellFormed) (h : r.declare name = .ok (t, r')) : r'.WellFormed := by
  obtain ⟨hlt, rfl, hnames, hindex⟩ := declare_eq_ok h
  have hsize : r'.size = r.size + 1 := by simp [size, hnames]
  refine ⟨by omega, fun n u hu => ?_⟩
  rw [hindex, Std.HashMap.getElem?_insert] at hu
  split at hu
  · exact ⟨r.size, by omega, (Option.some.inj hu).symm⟩
  · obtain ⟨i, hi, rfl⟩ := hr.declared n u hu
    exact ⟨i, by omega, rfl⟩

theorem WellFormed.addAlias (hr : r.WellFormed) (h : r.addAlias name target = .ok r') : r'.WellFormed := by
  obtain ⟨hnames, t, ht, hindex⟩ := addAlias_eq_ok h
  have hsize : r'.size = r.size := by simp [size, hnames]
  refine ⟨hsize ▸ hr.size_le, fun n u hu => ?_⟩
  rw [hindex, Std.HashMap.getElem?_insert] at hu
  rw [hsize]
  split at hu
  · exact hr.declared _ u (by rw [ht, hu])
  · exact hr.declared n u hu

/-- A name that resolves has a valid type. -/
theorem WellFormed.valid_of_lookup (hr : r.WellFormed) (h : r.lookup name = .ok t) : t.valid := by
  obtain ⟨i, hi, rfl⟩ := hr.declared _ _ (lookup_eq_ok.1 h)
  exact valid_typeOf (Nat.lt_of_lt_of_le hi hr.size_le)

end Coercion.Registry
