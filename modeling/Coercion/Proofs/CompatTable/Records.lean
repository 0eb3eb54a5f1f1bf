import Coercion.Proofs.LastWrite
import Coercion.Proofs.Order
import Mathlib.Data.List.Dedup
import Mathlib.Data.List.Induction
import Mathlib.Data.List.Sort

/-!
# The records of a table

A table that is filled by insertions holds in each bin the insertions with that hash, newest first
(`bin_ofRecords`), and a record is live if a search from the newest one on finds it (`mem_live`).  As a pair has one
bin, no pair is live twice, and a live record tells the last kind of its pair (`mem_liveRecords`).

So a table is a finite map in which the last write wins, and its listing is the sorted graph of that map, whatever bins
the pairs share and in whatever order they came (`ofRecords_refines_last_write`).
-/

namespace Coercion

namespace CompatTable

/-- The table that the insertions of some records fill. -/
def ofRecords (rs : List Record) : CompatTable := rs.foldl (fun t r => t.insert r.pair r.kind) empty

private theorem ofRecords_append_singleton (rs : List Record) (r : Record) :
    ofRecords (rs ++ [r]) = (ofRecords rs).insert r.pair r.kind := by
  simp [ofRecords]

theorem lookup?_ofRecords (rs : List Record) (p : Pair) : (ofRecords rs).lookup? p = Record.last? rs p := by
  simp [ofRecords, lookup?_foldl_insert]

/-! ### Bins -/

private theorem bin_insert (t : CompatTable) (p : Pair) (k : Kind) (i : Fin binCount) :
    (t.insert p k).bins.get i = if p.bin = i then ⟨p, k⟩ :: t.bins.get i else t.bins.get i := by
  show (t.bins.set p.bin (⟨p, k⟩ :: t.bins.get p.bin) p.bin.isLt)[i.val] = _
  rw [Vector.getElem_set]
  by_cases h : p.bin = i
  · subst h
    simp
  · have hne : (p.bin : Nat) ≠ i := fun he => h (Fin.ext he)
    rw [if_neg hne, if_neg h]
    rfl

/-- A bin holds the insertions of its pairs, newest first. -/
theorem bin_ofRecords (rs : List Record) (i : Fin binCount) :
    (ofRecords rs).bins.get i = (rs.filter (·.pair.bin = i)).reverse := by
  induction rs using List.reverseRecOn with
  | nil =>
    show (Vector.replicate binCount ([] : List Record))[i.val] = []
    rw [Vector.getElem_replicate]
  | append_singleton rs r ih =>
    rw [ofRecords_append_singleton, bin_insert, ih, List.filter_append, List.reverse_append]
    by_cases h : r.pair.bin = i <;> simp [h]

/-! ### Live records -/

/-- The live record of a pair is the newest one. -/
theorem mem_live {b : List Record} {r : Record} : r ∈ live b ↔ b.find? (·.pair == r.pair) = some r := by
  induction b with
  | nil => simp [live]
  | cons r' older ih =>
    rw [live, List.mem_cons, List.mem_filter, ih]
    by_cases h : r'.pair = r.pair
    · simp [h, eq_comm]
    · have hne : r ≠ r' := fun he => h (he ▸ rfl)
      have hne' : r.pair ≠ r'.pair := Ne.symm h
      simp [beq_eq_false_iff_ne.2 h, hne, hne']

private theorem pairwise_live (b : List Record) : (live b).Pairwise (fun r r' => r.pair ≠ r'.pair) := by
  induction b with
  | nil => exact List.Pairwise.nil
  | cons r older ih =>
    rw [live, List.pairwise_cons]
    refine ⟨?_, ih.filter _⟩
    intro r' hr'
    have hne := (List.mem_filter.1 hr').2
    simp only [bne_iff_ne] at hne
    exact Ne.symm hne

/-- The live records of all bins, bin after bin. -/
def liveRecords (t : CompatTable) : List Record := t.bins.toList.flatMap live

private theorem records_perm (t : CompatTable) : t.records.Perm t.liveRecords := List.mergeSort_perm _ _

theorem size_eq_length_records (t : CompatTable) : t.size = t.records.length := by
  rw [t.records_perm.length_eq, liveRecords, List.length_flatMap, List.sum_eq_foldr]
  rfl

theorem mem_bins_toList {t : CompatTable} {b : List Record} :
    b ∈ t.bins.toList ↔ ∃ i : Fin binCount, t.bins.get i = b := by
  rw [Vector.mem_toList_iff, Vector.mem_iff_getElem]
  constructor
  · rintro ⟨i, hi, rfl⟩
    exact ⟨⟨i, hi⟩, rfl⟩
  · rintro ⟨i, rfl⟩
    exact ⟨i.val, i.isLt, rfl⟩

/-- A record in a bin has the hash of the bin. -/
private theorem bin_of_mem_bin {rs : List Record} {i : Fin binCount} {r : Record} (h : r ∈ (ofRecords rs).bins.get i) :
    r.pair.bin = i := by
  rw [bin_ofRecords, List.mem_reverse, List.mem_filter] at h
  exact of_decide_eq_true h.2

private theorem mem_of_mem_live {b : List Record} {r : Record} (h : r ∈ live b) : r ∈ b :=
  List.mem_of_find?_eq_some (mem_live.1 h)

theorem mem_liveRecords {rs : List Record} {r : Record} :
    r ∈ (ofRecords rs).liveRecords ↔ (ofRecords rs).lookup? r.pair = some r.kind := by
  have hone : r ∈ (ofRecords rs).liveRecords ↔ r ∈ live ((ofRecords rs).bins.get r.pair.bin) := by
    rw [liveRecords, List.mem_flatMap]
    constructor
    · rintro ⟨b, hb, hr⟩
      obtain ⟨i, rfl⟩ := mem_bins_toList.1 hb
      rw [bin_of_mem_bin (mem_of_mem_live hr)]
      exact hr
    · intro hr
      exact ⟨_, mem_bins_toList.2 ⟨_, rfl⟩, hr⟩
  rw [hone, mem_live, lookup?, Option.map_eq_some_iff]
  constructor
  · intro h
    exact ⟨r, h, rfl⟩
  · rintro ⟨r', h, hk⟩
    have hp : r'.pair = r.pair := by simpa using List.find?_some h
    obtain ⟨p, k⟩ := r
    obtain ⟨p', k'⟩ := r'
    rw [h]
    simp_all

/-- No pair has two live records: within a bin by the choice of the newest, and bins share no pairs. -/
private theorem pairwise_liveRecords (rs : List Record) :
    (ofRecords rs).liveRecords.Pairwise (fun r r' => r.pair ≠ r'.pair) := by
  rw [liveRecords, List.pairwise_flatMap]
  refine ⟨fun b _ => pairwise_live b, ?_⟩
  rw [List.pairwise_iff_getElem]
  intro i j hi hj hij r hr r' hr' hp
  have hbin : ∀ (n : Nat) (hn : n < (ofRecords rs).bins.toList.length) (s : Record),
      s ∈ live ((ofRecords rs).bins.toList[n]) → (s.pair.bin : Nat) = n := by
    intro n hn s hs
    rw [Vector.length_toList] at hn
    have hs' : s ∈ (ofRecords rs).bins.get ⟨n, hn⟩ := mem_of_mem_live hs
    rw [bin_of_mem_bin hs']
  have h₁ := hbin i hi r hr
  have h₂ := hbin j hj r' hr'
  rw [hp] at h₁
  omega

/-! ### The listing -/

theorem mem_records {rs : List Record} {r : Record} :
    r ∈ (ofRecords rs).records ↔ Record.last? rs r.pair = some r.kind := by
  rw [(records_perm _).mem_iff, mem_liveRecords, lookup?_ofRecords]

/-- The listing is sorted, and strictly so because no pair is listed twice. -/
theorem pairwise_records (rs : List Record) :
    (ofRecords rs).records.Pairwise (fun r r' => r.pair.rank < r'.pair.rank) := by
  have hsorted : (ofRecords rs).records.Pairwise (fun r r' => r.pair.rank ≤ r'.pair.rank) := by
    unfold records
    exact pairwise_mergeSort_of_iff (fun r r' => Pair.le_iff_rank_le r.pair r'.pair) _
  have hdistinct : (ofRecords rs).records.Pairwise (fun r r' => r.pair ≠ r'.pair) :=
    ((records_perm _).pairwise_iff Ne.symm).2 (pairwise_liveRecords rs)
  refine hsorted.imp₂ ?_ hdistinct
  intro r r' hle hne
  exact hle.lt_of_ne (fun h => hne (Pair.rank_injective h))

private theorem nodup_pairs_records (rs : List Record) : ((ofRecords rs).records.map (·.pair)).Nodup := by
  rw [List.Nodup, List.pairwise_map]
  exact (pairwise_records rs).imp (fun hlt heq => hlt.ne (congrArg Pair.rank heq))

theorem size_ofRecords (rs : List Record) : (ofRecords rs).size = (rs.map (·.pair)).dedup.length := by
  have hperm : ((ofRecords rs).records.map (·.pair)).Perm (rs.map (·.pair)).dedup := by
    rw [List.perm_ext_iff_of_nodup (nodup_pairs_records rs) (List.nodup_dedup _)]
    intro p
    rw [List.mem_dedup]
    refine Iff.trans ?_ Record.exists_last?_eq_some_iff
    rw [List.mem_map]
    constructor
    · rintro ⟨r, hr, rfl⟩
      exact ⟨r.kind, mem_records.1 hr⟩
    · rintro ⟨k, hk⟩
      exact ⟨⟨p, k⟩, mem_records.2 hk, rfl⟩
  rw [size_eq_length_records, ← hperm.length_eq, List.length_map]

/-- A listing is determined by the last kind of each pair. -/
private theorem records_eq_of_last? {rs rs' : List Record} (h : ∀ p, Record.last? rs p = Record.last? rs' p) :
    (ofRecords rs).records = (ofRecords rs').records := by
  have : Std.Irrefl (fun r r' : Record => r.pair.rank < r'.pair.rank) := ⟨fun r => lt_irrefl _⟩
  have : Std.Antisymm (fun r r' : Record => r.pair.rank < r'.pair.rank) := ⟨fun r r' h₁ h₂ => absurd h₂ h₁.asymm⟩
  refine (pairwise_records rs).eq_of_mem_iff (pairwise_records rs') ?_
  intro r
  rw [mem_records, mem_records, h]

/-- After any insertions, every pair has the kind of its last insertion, also by `find`; the table counts the pairs that
were inserted, and lists each of them once, in order, with its last kind.  So the listing depends on the last kinds
alone, and another insertion, of a pair in whatever bin, changes nothing about the other pairs. -/
theorem ofRecords_refines_last_write (rs : List Record) :
    (∀ p, (ofRecords rs).lookup? p = Record.last? rs p ∧
      (ofRecords rs).find p = (Record.last? rs p).getD .noMatch) ∧
    (ofRecords rs).size = (rs.map (·.pair)).dedup.length ∧
    (∀ r, r ∈ (ofRecords rs).records ↔ Record.last? rs r.pair = some r.kind) ∧
    (ofRecords rs).records.Pairwise (fun r r' => r.pair.rank < r'.pair.rank) ∧
    (∀ rs', (∀ p, Record.last? rs p = Record.last? rs' p) → (ofRecords rs).records = (ofRecords rs').records) ∧
    ∀ p k q, p ≠ q → ((ofRecords rs).insert p k).lookup? q = (ofRecords rs).lookup? q := by
  refine ⟨?_, size_ofRecords rs, fun r => mem_records, pairwise_records rs, fun rs' h => records_eq_of_last? h, ?_⟩
  · intro p
    rw [find, lookup?_ofRecords]
    exact ⟨rfl, rfl⟩
  · intro p k q hne
    rw [lookup?_insert, if_neg hne]

/-- Two pairs in one bin, the first of them written twice, and a pair of no types. -/
def crowded : List Record :=
  [⟨⟨⟨0⟩, ⟨513⟩⟩, .safe⟩, ⟨⟨⟨0⟩, ⟨1⟩⟩, .promote⟩, ⟨⟨⟨-1⟩, ⟨-2⟩⟩, .ofCode 15⟩, ⟨⟨⟨0⟩, ⟨513⟩⟩, .noMatch⟩]

/-- The pairs of one bin keep apart, and their order of arrival is forgotten. -/
theorem records_crowded :
    (⟨⟨0⟩, ⟨513⟩⟩ : Pair).bin = (⟨⟨0⟩, ⟨1⟩⟩ : Pair).bin ∧
      (ofRecords crowded).size = 3 ∧ (ofRecords crowded).lookup? ⟨⟨0⟩, ⟨513⟩⟩ = some .noMatch ∧
      (ofRecords crowded).records = (ofRecords crowded.tail.reverse).records := by
  obtain ⟨hlookup, hsize, -, -, hrecords, -⟩ := ofRecords_refines_last_write crowded
  have hlast : ∀ p, Record.last? crowded p = Record.last? crowded.tail.reverse p := by
    intro p
    by_cases hp : p ∈ crowded.map (·.pair)
    · simp only [crowded, List.map_cons, List.map_nil, List.mem_cons, List.not_mem_nil, or_false] at hp
      rcases hp with rfl | rfl | rfl | rfl <;> decide
    · have hnone : ∀ rs : List Record, rs.map (·.pair) ⊆ crowded.map (·.pair) → Record.last? rs p = none := by
        intro rs hrs
        rw [Option.eq_none_iff_forall_ne_some]
        intro k hk
        exact hp (hrs (Record.exists_last?_eq_some_iff.1 ⟨k, hk⟩))
      rw [hnone crowded (List.Subset.refl _), hnone crowded.tail.reverse (by decide)]
  refine ⟨by decide, by rw [hsize]; decide, ?_, hrecords _ hlast⟩
  rw [(hlookup _).1]
  decide

end CompatTable

end Coercion
