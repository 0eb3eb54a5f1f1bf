import Coercion.Proofs.CompatTable.Occupancy
import Mathlib.Algebra.Order.BigOperators.Group.Finset
import Mathlib.Data.Finset.Card
import Mathlib.Order.Bounds.Basic

/-!
# Statistics of a table

The statistics are sums and a maximum over the bins, in 32-bit words.  Fewer than `2 ^ 32` insertions fit these words,
so no bin overflows (`overflow?_ofRecords`) and every figure can be read off the insertions: a bin is used if an
insertion has its hash (`used_stats_ofRecords`), the longest bin is the most frequent hash (`isGreatest_longest`), and
what is shadowed are the insertions that a later one of the same pair overwrites
(`Record.overwritten_add_length_dedup`).
-/

namespace Coercion

/-- How many of some records a later record of the same pair overwrites. -/
def Record.overwritten : List Record → Nat
  | [] => 0
  | r :: later => (if r.pair ∈ later.map (·.pair) then 1 else 0) + overwritten later

/-- A record is overwritten, or it is the last one of its pair. -/
theorem Record.overwritten_add_length_dedup (rs : List Record) :
    overwritten rs + (rs.map (·.pair)).dedup.length = rs.length := by
  induction rs with
  | nil => rfl
  | cons r later ih =>
    rw [overwritten, List.map_cons, List.dedup_cons, List.length_cons]
    split
    · omega
    · rw [List.length_cons]
      omega

namespace CompatTable

variable {rs : List Record}

/-! ### Bins and insertions -/

private theorem length_bin_ofRecords (rs : List Record) (i : Fin binCount) :
    ((ofRecords rs).bins.get i).length = rs.countP (·.pair.bin = i) := by
  rw [bin_ofRecords, List.length_reverse, List.countP_eq_length_filter]

private theorem length_bin_le {b : List Record} (hb : b ∈ (ofRecords rs).bins.toList) : b.length ≤ rs.length := by
  obtain ⟨i, rfl⟩ := mem_bins_toList.1 hb
  rw [length_bin_ofRecords]
  exact List.countP_le_length

private theorem length_live_le (b : List Record) : (live b).length ≤ b.length := by
  induction b with
  | nil => exact Nat.le_refl 0
  | cons r older ih =>
    have hfilter := List.length_filter_le (fun r' : Record => r'.pair != r.pair) (live older)
    rw [live, List.length_cons, List.length_cons]
    omega

theorem overflow?_ofRecords (h : rs.length < 2 ^ 32) : (ofRecords rs).overflow? = none := by
  rw [overflow?, List.findSome?_eq_none_iff]
  rintro ⟨b, i⟩ hb
  have hle : b.length ≤ rs.length := length_bin_le (List.fst_mem_of_mem_zipIdx hb)
  have hlive := length_live_le b
  have hsize : UInt32.size = 2 ^ 32 := rfl
  simp only
  rw [if_neg (by omega), if_neg (by omega)]

/-- The hashes of some records. -/
def hashes (rs : List Record) : Finset (Fin binCount) := (rs.map (·.pair.bin)).toFinset

private theorem mem_hashes {i : Fin binCount} : i ∈ hashes rs ↔ ∃ r ∈ rs, r.pair.bin = i := by
  rw [hashes, List.mem_toFinset, List.mem_map]

private theorem card_hashes (rs : List Record) : (hashes rs).card = (rs.map (·.pair.bin)).dedup.length :=
  List.card_toFinset _

private theorem bin_ne_nil_iff {i : Fin binCount} : (ofRecords rs).bins.get i ≠ [] ↔ i ∈ hashes rs := by
  rw [bin_ofRecords, Ne, List.reverse_eq_nil_iff, List.filter_eq_nil_iff, mem_hashes]
  simp

/-- No more hashes than pairs: a pair has one hash. -/
private theorem card_hashes_le (rs : List Record) : (hashes rs).card ≤ (rs.map (·.pair)).dedup.length := by
  have himage : hashes rs = (rs.map (·.pair)).toFinset.image Pair.bin := by
    ext i
    simp [mem_hashes]
  rw [himage, ← List.card_toFinset]
  exact Finset.card_image_le

private theorem length_eq_sum_hashes (rs : List Record) : rs.length = ∑ i ∈ hashes rs, rs.countP (·.pair.bin = i) := by
  have hzero : ∀ i ∈ Finset.univ, i ∉ hashes rs → rs.countP (·.pair.bin = i) = 0 := by
    intro i _ hi
    rw [← length_bin_ofRecords, List.length_eq_zero_iff]
    by_contra hne
    exact hi (bin_ne_nil_iff.1 hne)
  rw [Finset.sum_subset (Finset.subset_univ _) hzero]
  simp only [List.countP_eq_length_filter]
  exact (sum_length_filter_bin rs).symm

/-! ### Used bins -/

private theorem foldl_addBin_used (bins : List (List Record)) (s : Stats) :
    (bins.foldl Stats.addBin s).used = s.used + UInt32.ofNat (bins.map fun b => if b ≠ [] then 1 else 0).sum := by
  induction bins generalizing s with
  | nil => simp
  | cons b bins ih =>
    rw [List.foldl_cons, ih, Stats.addBin, List.map_cons, List.sum_cons, UInt32.ofNat_add]
    cases b with
    | nil => simp
    | cons r b =>
      rw [← UInt32.add_assoc]
      rfl

theorem used_stats_ofRecords (rs : List Record) :
    (ofRecords rs).stats.used = UInt32.ofNat (hashes rs).card := by
  have hused := foldl_addBin_used (ofRecords rs).bins.toList { (default : Stats) with bins := UInt32.ofNat binCount }
  have hsum : ((ofRecords rs).bins.toList.map fun b => if b ≠ [] then 1 else 0).sum = (hashes rs).card := by
    have hfilter : Finset.univ.filter (fun i => (ofRecords rs).bins.get i ≠ []) = hashes rs := by
      ext i
      rw [Finset.mem_filter, bin_ne_nil_iff, and_iff_right (Finset.mem_univ i)]
    rw [sum_map_toList, ← Finset.card_filter, hfilter]
  have hzero : (default : Stats).used = 0 := by decide
  rw [hsum, hzero, UInt32.zero_add] at hused
  exact hused

/-! ### The longest bin -/

private theorem longest_addBin {b : List Record} (hb : b.length < 2 ^ 32) (s : Stats) :
    (s.addBin b).longest.toNat = max s.longest.toNat b.length := by
  unfold Stats.addBin
  cases b with
  | nil => simp
  | cons r b =>
    have hword : (UInt32.ofNat (r :: b).length).toNat = (r :: b).length := UInt32.toNat_ofNat_of_lt' hb
    rw [List.isEmpty_cons, if_neg (by decide)]
    show (max s.longest (UInt32.ofNat (r :: b).length)).toNat = _
    rw [UInt32.toNat_max, hword]

private theorem foldl_addBin_longest {bins : List (List Record)} (hbins : ∀ b ∈ bins, b.length < 2 ^ 32) (s : Stats) :
    (bins.foldl Stats.addBin s).longest.toNat = (bins.map List.length).foldl max s.longest.toNat := by
  induction bins generalizing s with
  | nil => rfl
  | cons b bins ih =>
    rw [List.foldl_cons, List.map_cons, List.foldl_cons, ih (fun b' hb' => hbins b' (List.mem_cons_of_mem _ hb')),
      longest_addBin (hbins b List.mem_cons_self)]

private theorem isGreatest_foldl_max (ns : List Nat) (n : Nat) : IsGreatest {m | m ∈ n :: ns} (ns.foldl max n) := by
  induction ns generalizing n with
  | nil => simp [IsGreatest, upperBounds]
  | cons m ns ih =>
    obtain ⟨hmem, hle⟩ := ih (max n m)
    have hmax : max n m ≤ ns.foldl max (max n m) := hle List.mem_cons_self
    constructor
    · rcases List.mem_cons.1 hmem with heq | hmem
      · rw [List.foldl_cons, heq]
        rcases Nat.le_total n m with hnm | hnm
        · simp [Nat.max_eq_right hnm]
        · simp [Nat.max_eq_left hnm]
      · exact List.mem_cons_of_mem _ (List.mem_cons_of_mem _ hmem)
    · rintro k hk
      rw [List.foldl_cons]
      rcases List.mem_cons.1 hk with rfl | hk
      · omega
      · rcases List.mem_cons.1 hk with rfl | hk
        · omega
        · exact hle (List.mem_cons_of_mem _ hk)

/-- The longest bin is the greatest number of insertions with one hash. -/
theorem isGreatest_longest (h : rs.length < 2 ^ 32) :
    IsGreatest (Set.range fun i : Fin binCount => rs.countP (·.pair.bin = i)) (ofRecords rs).stats.longest.toNat := by
  have hbins : ∀ b ∈ (ofRecords rs).bins.toList, b.length < 2 ^ 32 :=
    fun b hb => Nat.lt_of_le_of_lt (length_bin_le hb) h
  have hlongest : (ofRecords rs).stats.longest.toNat = ((ofRecords rs).bins.toList.map List.length).foldl max 0 :=
    foldl_addBin_longest hbins _
  obtain ⟨hmem, hle⟩ := isGreatest_foldl_max ((ofRecords rs).bins.toList.map List.length) 0
  rw [← hlongest] at hmem hle
  have hlength : ∀ n, n ∈ (ofRecords rs).bins.toList.map List.length ↔
      n ∈ Set.range fun i : Fin binCount => rs.countP (·.pair.bin = i) := by
    intro n
    simp only [List.mem_map, mem_bins_toList, Set.mem_range, ← length_bin_ofRecords]
    constructor
    · rintro ⟨b, ⟨i, rfl⟩, rfl⟩
      exact ⟨i, rfl⟩
    · rintro ⟨i, rfl⟩
      exact ⟨_, ⟨i, rfl⟩, rfl⟩
  constructor
  · rcases List.mem_cons.1 hmem with hzero | hmem
    · -- no bin is longer than none at all, so the first one is empty
      have hfirst := hle (List.mem_cons_of_mem _ ((hlength _).2 ⟨0, rfl⟩))
      exact ⟨0, by dsimp only at hfirst ⊢; omega⟩
    · exact (hlength _).1 hmem
  · intro n hn
    exact hle (List.mem_cons_of_mem _ ((hlength n).2 hn))

/-! ### All figures -/

private theorem foldl_addBin_bins (bins : List (List Record)) (s : Stats) :
    (bins.foldl Stats.addBin s).bins = s.bins := by
  induction bins generalizing s with
  | nil => rfl
  | cons b bins ih =>
    rw [List.foldl_cons, ih, Stats.addBin]
    split <;> rfl

private theorem tally_ofRecords (h : rs.length < 2 ^ 32) : (ofRecords rs).tally = .ok (ofRecords rs).stats := by
  rw [tally, overflow?_ofRecords h]

/-- However many records there are, a tally gives the words of the live ones and of the `n` others, and their sum. -/
theorem words_of_tally {n : Nat} (hn : rs.length = (ofRecords rs).size + n) {s : Stats}
    (hs : (ofRecords rs).tally = .ok s) :
    s.live = UInt32.ofNat (ofRecords rs).size ∧ s.shadowed = UInt32.ofNat n ∧ s.records = s.live + s.shadowed := by
  obtain ⟨hrecords, hlive, hshadowed⟩ := stats_ofRecords rs
  rw [hn, UInt32.ofNat_add] at hrecords
  rw [hn, Nat.add_sub_cancel_left] at hshadowed
  unfold tally at hs
  split at hs
  · cases hs
  · cases hs
    refine ⟨hlive, hshadowed, ?_⟩
    rw [hrecords, hlive, hshadowed]

/-- Fewer than `2 ^ 32` records fit the words of a tally. -/
theorem exists_tally_eq_ok {n : Nat} (hn : rs.length = (ofRecords rs).size + n)
    (h : (ofRecords rs).size + n < 2 ^ 32) :
    ∃ s, (ofRecords rs).tally = .ok s ∧ s.live.toNat = (ofRecords rs).size ∧ s.shadowed.toNat = n ∧
      s.records.toNat = (ofRecords rs).size + n := by
  have hs := tally_ofRecords (hn.trans_lt h)
  obtain ⟨hlive, hshadowed, -⟩ := words_of_tally hn hs
  obtain ⟨hrecords, -, -⟩ := stats_ofRecords rs
  rw [hn] at hrecords
  refine ⟨_, hs, ?_, ?_, ?_⟩
  · rw [hlive]
    exact UInt32.toNat_ofNat_of_lt' (Nat.lt_of_le_of_lt (Nat.le_add_right _ _) h)
  · rw [hshadowed]
    exact UInt32.toNat_ofNat_of_lt' (Nat.lt_of_le_of_lt (Nat.le_add_left _ _) h)
  · rw [hrecords]
    exact UInt32.toNat_ofNat_of_lt' h

/-- The figures of a table that was filled by fewer than `2 ^ 32` insertions: the insertions, the pairs, the insertions
that a later one overwrites, the hashes of the pairs, and the insertions with the most frequent hash. -/
theorem tally_counts_insertions (rs : List Record) (h : rs.length < 2 ^ 32) :
    ∃ s, (ofRecords rs).tally = .ok s ∧ s.bins.toNat = binCount ∧
      s.records.toNat = rs.length ∧
      s.live.toNat = (ofRecords rs).size ∧ (ofRecords rs).size = (ofRecords rs).records.length ∧
      (ofRecords rs).size = (rs.map (·.pair)).dedup.length ∧
      s.live.toNat ≤ s.records.toNat ∧ s.shadowed.toNat = s.records.toNat - s.live.toNat ∧
      s.shadowed.toNat = Record.overwritten rs ∧
      s.used.toNat = (rs.map (·.pair.bin)).dedup.length ∧ s.used.toNat ≤ binCount ∧ s.used.toNat ≤ s.live.toNat ∧
      IsGreatest (Set.range fun i : Fin binCount => rs.countP (·.pair.bin = i)) s.longest.toNat ∧
      s.records.toNat ≤ s.used.toNat * s.longest.toNat := by
  have hused := used_stats_ofRecords rs
  have hgreatest := isGreatest_longest h
  have hsize := size_ofRecords rs
  have hhashes := card_hashes_le rs
  have hlength : rs.length = (ofRecords rs).size + Record.overwritten rs := by
    have hdedup := Record.overwritten_add_length_dedup rs
    omega
  obtain ⟨s, hs, hlive, hshadowed, hrecords⟩ := exists_tally_eq_ok hlength (hlength ▸ h)
  rw [tally_ofRecords h] at hs
  cases hs
  rw [← hlength] at hrecords
  have hused' : (ofRecords rs).stats.used.toNat = (hashes rs).card := by
    rw [hused]
    exact UInt32.toNat_ofNat_of_lt' (Nat.lt_of_le_of_lt (by omega) h)
  have hbins : (ofRecords rs).stats.bins.toNat = binCount :=
    congrArg UInt32.toNat (foldl_addBin_bins (ofRecords rs).bins.toList _)
  have hproduct : rs.length ≤ (hashes rs).card * (ofRecords rs).stats.longest.toNat := by
    rw [length_eq_sum_hashes rs]
    exact Finset.sum_le_card_nsmul _ _ _ fun i _ => hgreatest.2 ⟨i, rfl⟩
  refine ⟨(ofRecords rs).stats, tally_ofRecords h, hbins, hrecords, hlive, size_eq_length_records _, hsize, ?_, ?_,
    hshadowed, ?_, ?_, ?_, hgreatest, ?_⟩
  · omega
  · omega
  · rw [hused', card_hashes]
  · rw [hused']
    exact card_finset_fin_le _
  · omega
  · rw [hrecords, hused']
    exact hproduct

/-- Three of the four insertions share a bin, and one of these is overwritten. -/
theorem tally_crowded :
    crowded.length < 2 ^ 32 ∧ ∃ s, (ofRecords crowded).tally = .ok s ∧ s.records.toNat = 4 ∧ s.live.toNat = 3 ∧
      s.shadowed.toNat = 1 ∧ s.used.toNat = 2 ∧ 3 ≤ s.longest.toNat := by
  obtain ⟨s, hs, -, hrecords, hlive, -, hsize, -, -, hshadowed, hused, -, -, hgreatest, -⟩ :=
    tally_counts_insertions crowded (by decide)
  refine ⟨by decide, s, hs, hrecords, ?_, ?_, ?_, ?_⟩
  · rw [hlive, hsize]
    decide
  · rw [hshadowed]
    decide
  · rw [hused]
    decide
  · have hthree : crowded.countP (·.pair.bin = (⟨⟨0⟩, ⟨1⟩⟩ : Pair).bin) = 3 := by decide
    rw [← hthree]
    exact hgreatest.2 ⟨_, rfl⟩

end CompatTable

end Coercion
