import Coercion.Manager
import Mathlib.Data.List.Basic

/-!
# The last registration wins

A compatibility table is a finite map from pairs to kinds: inserting a pair changes the kind of that pair and of no
other, whatever bins they share (`CompatTable.lookup?_insert`).  So after a list of registrations every pair has the
kind of its last one (`CompatTable.lookup?_foldl_insert`), and a manager that is not frozen takes every registration of
valid types (`Manager.addAll_eq_ok`).
-/

namespace Coercion

/-! ### Records in order -/

/-- The kind that the last of some records gives to a pair. -/
def Record.last? (rs : List Record) (p : Pair) : Option Kind :=
  (rs.reverse.find? (·.pair == p)).map (·.kind)

namespace Record

@[simp] theorem last?_nil (p : Pair) : last? [] p = none := rfl

theorem last?_append (rs rs' : List Record) (p : Pair) : last? (rs ++ rs') p = (last? rs' p).or (last? rs p) := by
  simp only [last?, List.reverse_append, List.find?_append]
  cases rs'.reverse.find? (·.pair == p) <;> rfl

theorem last?_singleton (r : Record) (p : Pair) : last? [r] p = if r.pair = p then some r.kind else none := by
  by_cases h : r.pair = p <;> simp [last?, h]

theorem last?_cons (r : Record) (rs : List Record) (p : Pair) :
    last? (r :: rs) p = (last? rs p).or (if r.pair = p then some r.kind else none) := by
  rw [← List.singleton_append, last?_append, last?_singleton]

theorem exists_last?_eq_some_iff {rs : List Record} {p : Pair} :
    (∃ k, last? rs p = some k) ↔ p ∈ rs.map (·.pair) := by
  rw [← Option.isSome_iff_exists]
  simp [last?]

end Record

/-! ### Tables -/

namespace CompatTable

private theorem bin_eq_getElem (bins : Vector (List Record) binCount) (i : Fin binCount) :
    bins.get i = bins[i.val] := rfl

@[simp] theorem lookup?_empty (p : Pair) : empty.lookup? p = none := by
  have hbin : empty.bins.get p.bin = [] := by
    rw [bin_eq_getElem]
    exact Vector.getElem_replicate _
  rw [lookup?, hbin]
  rfl

/-- A table is a map: an insertion decides the kind of its pair and of no other. -/
theorem lookup?_insert (t : CompatTable) (p : Pair) (k : Kind) (q : Pair) :
    (t.insert p k).lookup? q = if p = q then some k else t.lookup? q := by
  unfold lookup? insert
  rw [bin_eq_getElem, Vector.getElem_set]
  by_cases hbin : (p.bin : Nat) = q.bin
  · -- one bin: the new record stands in front
    rw [if_pos hbin, List.find?_cons]
    by_cases hpq : p = q
    · simp [hpq]
    · have hne : (p == q) = false := by simpa using hpq
      simp only [hne, if_neg hpq, Fin.ext hbin]
  · have hpq : p ≠ q := fun h => hbin (by rw [h])
    rw [if_neg hbin, if_neg hpq, bin_eq_getElem]

theorem lookup?_foldl_insert (rs : List Record) (t : CompatTable) (p : Pair) :
    (rs.foldl (fun t r => t.insert r.pair r.kind) t).lookup? p = (Record.last? rs p).or (t.lookup? p) := by
  induction rs generalizing t with
  | nil => rfl
  | cons r rs ih =>
    rw [List.foldl_cons, ih, lookup?_insert, Record.last?_cons]
    cases Record.last? rs p <;> by_cases h : r.pair = p <;> simp [h]

end CompatTable

/-! ### Managers -/

namespace Manager

/-- How the source of a pair of valid types may stand in for its target. -/
def kindOf (m : Manager) (p : Pair) : Kind := if p.source = p.target then .exact else m.table.find p

private theorem requireValid_eq_ok {p : Pair} (hs : p.source.valid) (ht : p.target.valid) :
    requireValid p = .ok () := by
  simp [requireValid, hs, ht]

theorem compatible_eq_ok (m : Manager) {p : Pair} (hs : p.source.valid) (ht : p.target.valid) :
    m.compatible p = .ok (m.kindOf p) := by
  unfold compatible
  rw [requireValid_eq_ok hs ht]
  rfl

theorem add_eq_ok {m : Manager} (hm : m.frozen = false) {p : Pair} (hs : p.source.valid) (ht : p.target.valid)
    (k : Kind) : m.add p k = .ok { m with table := m.table.insert p k } := by
  unfold add
  rw [requireValid_eq_ok hs ht, hm]
  rfl

/-- A manager that is open takes all records of valid types, one after the other. -/
theorem addAll_eq_ok {m : Manager} (hm : m.frozen = false) {rs : List Record}
    (hrs : ∀ r ∈ rs, r.pair.source.valid ∧ r.pair.target.valid) :
    m.addAll rs = .ok { m with table := rs.foldl (fun t r => t.insert r.pair r.kind) m.table } := by
  unfold addAll
  induction rs generalizing m with
  | nil => rfl
  | cons r rs ih =>
    obtain ⟨hs, ht⟩ := hrs r List.mem_cons_self
    rw [List.foldlM_cons, add_eq_ok hm hs ht]
    exact ih hm (fun r' hr' => hrs r' (List.mem_cons_of_mem _ hr'))

private theorem eq_of_add_eq_ok {m m' : Manager} {p : Pair} {k : Kind} (h : m.add p k = .ok m') :
    m' = { m with table := m.table.insert p k } := by
  unfold add requireValid at h
  cases hs : p.source.valid <;> cases ht : p.target.valid <;> cases hf : m.frozen <;>
    simp [hs, ht, hf, bind, Except.bind] at h
  rw [← h]

private theorem eq_of_addAll_eq_ok {m m' : Manager} {rs : List Record} (h : m.addAll rs = .ok m') :
    m' = { m with table := rs.foldl (fun t r => t.insert r.pair r.kind) m.table } := by
  unfold addAll at h
  induction rs generalizing m with
  | nil => exact (Except.ok.inj h).symm
  | cons r rs ih =>
    rw [List.foldlM_cons] at h
    cases hadd : m.add r.pair r.kind with
    | error f =>
      rw [hadd] at h
      cases h
    | ok m₁ =>
      rw [hadd] at h
      rw [ih h, eq_of_add_eq_ok hadd]
      rfl

/-- Registrations leave the pairs that they do not name as they were. -/
theorem kindOf_of_addAll_eq_ok {m m' : Manager} {rs : List Record} (h : m.addAll rs = .ok m') {p : Pair}
    (hp : ∀ r ∈ rs, r.pair ≠ p) : m'.kindOf p = m.kindOf p := by
  have hlast : Record.last? rs p = none := by
    rw [Option.eq_none_iff_forall_ne_some]
    intro k hk
    obtain ⟨r, hr, hrp⟩ := List.mem_map.1 (Record.exists_last?_eq_some_iff.1 ⟨k, hk⟩)
    exact hp r hr hrp
  rw [eq_of_addAll_eq_ok h]
  simp only [kindOf, CompatTable.find, CompatTable.lookup?_foldl_insert, hlast, Option.none_or]

end Manager

end Coercion
