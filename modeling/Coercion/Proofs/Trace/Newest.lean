import Coercion.Trace.Journal
import Mathlib.Algebra.Group.Nat.Defs
import Mathlib.Data.List.DropRight
import Mathlib.Data.List.Induction

/-!
# A ring keeps the newest events

The slot of event number `i` is `i` modulo the size of the ring, so an event stays until the ring has gone round once
more: `Ring.Holds r stored` says that `r` has been given the events `stored` and still has the last ones in their
slots.  One more event keeps this (`Ring.Holds.push`), and what a ring then reads back is the end of `stored`, for a
ring that is empty, partly filled, or has gone round many times (`Ring.Holds.tail_eq`).

A journal stamps what it hands to a ring, and hands over the admitted events, otherwise unchanged
(`Journal.Keeps.foldl_emit`).  As long as its numbers do not wrap around, they increase (`Journal.Numbers.emit`).
-/

namespace Coercion.Trace

/-! ### The ring -/

namespace Ring

variable {r : Ring} {stored : List Event} {e : Event} {i : Nat}

@[simp] theorem size_push (r : Ring) (e : Event) : (r.push e).slots.size = r.slots.size := by
  simp [push]

private theorem event?_eq (r : Ring) (i : Nat) : r.event? i = r.slots[i % r.slots.size]?.join := by
  have hlt : i % r.slots.size < r.slots.size := Nat.mod_lt i r.nonempty
  rw [Array.getElem?_eq_getElem hlt]
  rfl

private theorem event?_push (r : Ring) (e : Event) (i : Nat) :
    (r.push e).event? i =
      if r.total.toNat % r.slots.size = i % r.slots.size then some e else r.event? i := by
  have hslots : (r.push e).slots =
      r.slots.set (r.total.toNat % r.slots.size) (some e) (Nat.mod_lt _ r.nonempty) := rfl
  rw [event?_eq, event?_eq, size_push, hslots, Array.getElem?_set]
  split
  · rfl
  · rfl

/-- The ring has been given the events `stored`, and has the last of them in their slots. -/
structure Holds (r : Ring) (stored : List Event) : Prop where
  total_eq : r.total.toNat = stored.length
  event?_eq : ∀ i < stored.length, stored.length ≤ i + r.slots.size → r.event? i = stored[i]?

private theorem holds_ofCapacity (capacity : Int) : (ofCapacity capacity).Holds [] where
  total_eq := rfl
  event?_eq i hi := absurd hi (Nat.not_lt_zero i)

theorem Holds.push (h : r.Holds stored) (e : Event) (hlt : stored.length + 1 < 2 ^ 64) :
    (r.push e).Holds (stored ++ [e]) := by
  have htotal := h.total_eq
  constructor
  · have hword : (r.push e).total = r.total + 1 := rfl
    rw [hword, UInt64.toNat_add, htotal, List.length_append]
    exact Nat.mod_eq_of_lt hlt
  · intro i hi hnew
    rw [List.length_append, List.length_singleton] at hi hnew
    rw [size_push] at hnew
    rw [event?_push, htotal]
    by_cases hlast : i = stored.length
    · subst hlast
      rw [if_pos rfl, List.getElem?_concat_length]
    · -- less than a round apart, the numbers of two events have different slots
      have hslot : stored.length % r.slots.size ≠ i % r.slots.size := by
        intro heq
        have hdvd : r.slots.size ∣ stored.length - i :=
          Nat.dvd_of_mod_eq_zero (Nat.sub_mod_eq_zero_of_mod_eq heq)
        have hle := Nat.le_of_dvd (by omega) hdvd
        omega
      rw [if_neg hslot, h.event?_eq i (by omega) (by omega), List.getElem?_append_left (by omega)]

private theorem Holds.held_eq (h : r.Holds stored) : r.held = min stored.length r.slots.size := by
  rw [held, h.total_eq]

private theorem tailLength_le_held (r : Ring) (n : Int) : r.tailLength n ≤ r.held := by
  unfold tailLength
  split <;> omega

private theorem tailLength_zero (r : Ring) : r.tailLength 0 = r.held := by
  unfold tailLength
  simp

/-- Reading the last `count` places of a list one by one gives the end of the list. -/
private theorem filterMap_range_getElem? {α : Type} (l : List α) {count : Nat} (h : count ≤ l.length) :
    (List.range count).filterMap (fun i => l[l.length - count + i]?) = l.rtake count := by
  induction count with
  | zero => simp
  | succ count ih =>
    have hlt : l.length - (count + 1) < l.length := by omega
    rw [List.range_succ_eq_map, List.filterMap_cons, List.filterMap_map, Nat.add_zero,
      List.getElem?_eq_getElem hlt]
    have hnext : ((fun i => l[l.length - (count + 1) + i]?) ∘ Nat.succ) = fun i => l[l.length - count + i]? := by
      funext i
      have hplace : l.length - (count + 1) + i.succ = l.length - count + i := by omega
      simp only [Function.comp_apply, hplace]
    have hstart : l.length - (count + 1) + 1 = l.length - count := by omega
    simp only [hnext, ih (by omega), List.rtake]
    rw [← hstart, List.getElem_cons_drop]

private theorem map_rtake {α β : Type} (f : α → β) (l : List α) (n : Nat) : (l.map f).rtake n = (l.rtake n).map f := by
  rw [List.rtake, List.rtake, List.length_map, List.map_drop]

private theorem Holds.tailLength_le (h : r.Holds stored) (n : Int) :
    r.tailLength n ≤ stored.length ∧ r.tailLength n ≤ r.slots.size := by
  have hheld := h.held_eq
  have hle := r.tailLength_le_held n
  omega

/-- The slots that a tail reads have not been written again. -/
private theorem Holds.event?_tail (h : r.Holds stored) (n : Int) {i : Nat} (hi : i < r.tailLength n) :
    r.event? (r.total.toNat - r.tailLength n + i) = stored[stored.length - r.tailLength n + i]? := by
  have hle := h.tailLength_le n
  rw [h.total_eq]
  exact h.event?_eq _ (by omega) (by omega)

/-- A tail is the end of the events that the ring was given. -/
theorem Holds.tail_eq (h : r.Holds stored) (n : Int) : r.tail n = stored.rtake (r.tailLength n) := by
  have hread : ∀ i ∈ List.range (r.tailLength n),
      r.event? (r.total.toNat - r.tailLength n + i) = stored[stored.length - r.tailLength n + i]? :=
    fun i hi => h.event?_tail n (List.mem_range.1 hi)
  rw [tail, List.filterMap_congr hread, filterMap_range_getElem? stored (h.tailLength_le n).1]

private theorem Holds.snapshot_eq (h : r.Holds stored) : r.snapshot = stored.rtake r.slots.size := by
  rw [snapshot, h.tail_eq, tailLength_zero, h.held_eq, List.rtake, List.rtake]
  congr 1
  omega

private theorem Holds.length_snapshot (h : r.Holds stored) : r.snapshot.length = r.held := by
  rw [h.snapshot_eq, h.held_eq, List.rtake, List.length_drop]
  omega

/-- A tail of a length from one to the events held is the end of the snapshot, and any other is all of it. -/
private theorem Holds.tail_eq_ite (h : r.Holds stored) (k : Int) :
    r.tail k = if 0 < k ∧ k ≤ r.held then r.snapshot.rtake k.toNat else r.snapshot := by
  have hheld := h.held_eq
  rw [h.tail_eq, h.snapshot_eq, tailLength]
  by_cases hk : 0 < k ∧ k ≤ r.held
  · rw [if_neg (by omega), if_pos hk, List.rtake, List.rtake, List.rtake, List.drop_drop, List.length_drop]
    congr 1
    omega
  · rw [if_pos (by omega), if_neg hk, List.rtake, List.rtake, hheld]
    congr 1
    omega

end Ring

/-! ### The journal -/

/-- An event without its sequence number. -/
def Event.unnumbered (e : Event) : Event := { e with seq := 0 }

/-- The ring of a sink that is one. -/
def Sink.ring? : Sink → Option Ring
  | .ring r => some r
  | .stream _ _ => none

namespace Journal

variable {j : Journal} {r : Ring} {stored : List Event} {e : Event}

private theorem fst_store (e : Event) (seq : UInt64) (written : Array String) (sinks : List Sink) :
    (store e seq written sinks).1 = seq + UInt64.ofNat sinks.length := by
  induction sinks generalizing seq written with
  | nil => simp [store]
  | cons sink sinks ih =>
    have hnext : seq + 1 + UInt64.ofNat sinks.length = seq + UInt64.ofNat (sinks.length + 1) := by
      rw [UInt64.ofNat_add, UInt64.add_assoc, UInt64.add_comm 1]
      rfl
    cases sink with
    | stream f err => exact (ih _ _).trans hnext
    | ring r => exact (ih _ _).trans hnext

private theorem length_store (e : Event) (seq : UInt64) (written : Array String) (sinks : List Sink) :
    (store e seq written sinks).2.2.length = sinks.length := by
  induction sinks generalizing seq written with
  | nil => rfl
  | cons sink sinks ih =>
    cases sink with
    | stream f err => exact congrArg Nat.succ (ih _ _)
    | ring r => exact congrArg Nat.succ (ih _ _)

/-- The first ring stores an event under the number of its place among the sinks. -/
private theorem exists_ring?_store (e : Event) (seq : UInt64) (written : Array String) {sinks : List Sink}
    (hring : sinks.findSome? Sink.ring? = some r) :
    ∃ n < sinks.length, (store e seq written sinks).2.2.findSome? Sink.ring? =
      some (r.push { e with seq := seq + UInt64.ofNat (n + 1) }) := by
  induction sinks generalizing seq written with
  | nil => cases hring
  | cons sink sinks ih =>
    cases sink with
    | ring r' =>
      cases hring
      exact ⟨0, Nat.zero_lt_succ _, rfl⟩
    | stream f err =>
      obtain ⟨n, hn, hstore⟩ := ih (seq + 1) (written.push ({ e with seq := seq + 1 }.render f)) hring
      refine ⟨n + 1, Nat.succ_lt_succ hn, ?_⟩
      have hnumber : seq + 1 + UInt64.ofNat (n + 1) = seq + UInt64.ofNat (n + 1 + 1) := by
        rw [UInt64.ofNat_add (n + 1), UInt64.add_assoc, UInt64.add_comm 1]
        rfl
      rw [hnumber] at hstore
      exact hstore

/-- The first ring of a journal has been given the events `stored`. -/
structure Keeps (j : Journal) (r : Ring) (stored : List Event) : Prop where
  ring?_eq : j.ring? = some r
  holds : r.Holds stored

/-- A journal has given increasing numbers to the events `stored`. -/
structure Numbers (j : Journal) (stored : List Event) : Prop where
  increasing : stored.Pairwise (·.seq < ·.seq)
  seq_le : ∀ e ∈ stored, e.seq ≤ j.seq

private theorem toNat_add_ofNat {seq : UInt64} {n : Nat} (h : seq.toNat + n < 2 ^ 64) :
    (seq + UInt64.ofNat n).toNat = seq.toNat + n := by
  rw [UInt64.toNat_add, UInt64.toNat_ofNat', Nat.add_mod_mod]
  exact Nat.mod_eq_of_lt h

private theorem seq_emit (hadmitted : e.admitted j.level = true) :
    (j.emit e).seq = j.seq + UInt64.ofNat j.sinks.length := by
  unfold emit
  rw [if_pos hadmitted]
  exact fst_store _ _ _ _

theorem level_emit (j : Journal) (e : Event) : (j.emit e).level = j.level := by
  unfold emit
  split <;> rfl

private theorem length_sinks_emit (j : Journal) (e : Event) : (j.emit e).sinks.length = j.sinks.length := by
  unfold emit
  split
  · exact length_store _ _ _ _
  · rfl

private theorem emit_of_not_admitted (hadmitted : e.admitted j.level = false) : j.emit e = j := by
  unfold emit
  rw [if_neg (by simp [hadmitted])]

/-- An event with the number that sink number `n` gives it. -/
def stamped (j : Journal) (n : Nat) (e : Event) : Event := { e with seq := j.seq + UInt64.ofNat (n + 1) }

theorem Keeps.emit (h : j.Keeps r stored) (hadmitted : e.admitted j.level = true) (hlt : stored.length + 1 < 2 ^ 64) :
    ∃ n < j.sinks.length, (j.emit e).Keeps (r.push (j.stamped n e)) (stored ++ [j.stamped n e]) := by
  obtain ⟨n, hn, hring⟩ := exists_ring?_store e j.seq j.written h.ring?_eq
  refine ⟨n, hn, ?_, h.holds.push _ hlt⟩
  unfold Journal.emit
  rw [if_pos hadmitted]
  exact hring

theorem Numbers.emit (h : j.Numbers stored) (hadmitted : e.admitted j.level = true)
    (hwords : j.seq.toNat + j.sinks.length < 2 ^ 64) {n : Nat} (hn : n < j.sinks.length) :
    (j.emit e).Numbers (stored ++ [j.stamped n e]) := by
  have hnumber : (j.stamped n e).seq.toNat = j.seq.toNat + (n + 1) := toNat_add_ofNat (by omega)
  have hlast : (j.emit e).seq.toNat = j.seq.toNat + j.sinks.length := by
    rw [seq_emit hadmitted]
    exact toNat_add_ofNat hwords
  have hearlier : ∀ e' ∈ stored, e'.seq.toNat ≤ j.seq.toNat :=
    fun e' he' => UInt64.le_iff_toNat_le.1 (h.seq_le e' he')
  constructor
  · rw [List.pairwise_append]
    refine ⟨h.increasing, List.pairwise_singleton _ _, ?_⟩
    intro earlier hmem later hlater
    have hle := hearlier earlier hmem
    rw [List.mem_singleton.1 hlater, UInt64.lt_iff_toNat_lt]
    omega
  · intro e' he'
    rw [UInt64.le_iff_toNat_le, hlast]
    rcases List.mem_append.1 he' with he' | he'
    · have hle := hearlier e' he'
      omega
    · rw [List.mem_singleton.1 he']
      omega

/-- However many events come, the ring has been given those that are admitted. -/
theorem Keeps.foldl_emit (h : j.Keeps r stored) (events : List Event) (hlt : stored.length + events.length < 2 ^ 64) :
    ∃ r' stored', (events.foldl Journal.emit j).Keeps r' stored' ∧ r'.slots.size = r.slots.size ∧
      stored'.map Event.unnumbered =
        stored.map Event.unnumbered ++ (events.filter (·.admitted j.level)).map Event.unnumbered ∧
      (j.Numbers stored → j.seq.toNat + events.length * j.sinks.length < 2 ^ 64 →
        (events.foldl Journal.emit j).Numbers stored') := by
  induction events generalizing j r stored with
  | nil => exact ⟨r, stored, h, rfl, by simp, fun hnumbers _ => hnumbers⟩
  | cons e events ih =>
    rw [List.length_cons] at hlt
    rw [List.foldl_cons, List.length_cons, Nat.succ_mul]
    cases hadmitted : e.admitted j.level with
    | false =>
      obtain ⟨r', stored', hkeeps, hsize, hstored, hnumbers⟩ := ih h (by omega)
      rw [emit_of_not_admitted hadmitted, List.filter_cons_of_neg (by simp [hadmitted])]
      exact ⟨r', stored', hkeeps, hsize, hstored, fun hj hwords => hnumbers hj (by omega)⟩
    | true =>
      obtain ⟨n, hn, hnext⟩ := h.emit hadmitted (by omega)
      have hlength : (stored ++ [j.stamped n e]).length = stored.length + 1 := List.length_append
      obtain ⟨r', stored', hkeeps, hsize, hstored, hnumbers⟩ := ih hnext (by omega)
      have hfilter : (e :: events).filter (·.admitted j.level) = e :: events.filter (·.admitted j.level) :=
        List.filter_cons_of_pos hadmitted
      refine ⟨r', stored', hkeeps, hsize.trans (Ring.size_push _ _), ?_, fun hj hwords => ?_⟩
      · rw [hstored, level_emit, hfilter, List.map_append, List.append_assoc]
        rfl
      · have hseq : (j.emit e).seq.toNat = j.seq.toNat + j.sinks.length := by
          rw [seq_emit hadmitted]
          exact toNat_add_ofNat (by omega)
        refine hnumbers (hj.emit hadmitted (by omega) hn) ?_
        rw [hseq, length_sinks_emit]
        omega

private theorem keeps_of_new {capacity : Int} (hring : j.ring? = some (.ofCapacity capacity)) :
    j.Keeps (.ofCapacity capacity) [] where
  ring?_eq := hring
  holds := Ring.holds_ofCapacity capacity

private theorem numbers_nil (j : Journal) : j.Numbers [] where
  increasing := List.Pairwise.nil
  seq_le _ he := absurd he List.not_mem_nil

/-- After fewer than `2 ^ 64` events, a new ring gives back the last of those that were admitted, as many as it has
slots for, in order and with nothing changed but their numbers, which increase unless they wrap around.  It counts the
others as dropped; a tail is the end of what it gives back, and every slot that a tail reads holds an event. -/
theorem ring_keeps_newest_admitted (j : Journal) (capacity : Int) (hring : j.ring? = some (.ofCapacity capacity))
    (events : List Event) (hlt : events.length < 2 ^ 64) :
    ∃ r, (events.foldl emit j).ring? = some r ∧
      r.snapshot.map Event.unnumbered =
        ((events.filter (·.admitted j.level)).rtake (Ring.sizeFor capacity)).map Event.unnumbered ∧
      (j.seq.toNat + events.length * j.sinks.length < 2 ^ 64 → r.snapshot.Pairwise (·.seq < ·.seq)) ∧
      r.held = min (events.filter (·.admitted j.level)).length (Ring.sizeFor capacity) ∧
      r.snapshot.length = r.held ∧
      r.dropped = (events.filter (·.admitted j.level)).length - r.held ∧
      (∀ k : Int, r.tail k = if 0 < k ∧ k ≤ r.held then r.snapshot.rtake k.toNat else r.snapshot) ∧
      ∀ k : Int, r.tailLength k ≤ r.total.toNat ∧
        ∀ i < r.tailLength k, (r.event? (r.total.toNat - r.tailLength k + i)).isSome := by
  obtain ⟨r, stored, hkeeps, hsize, hstored, hnumbers⟩ :=
    (keeps_of_new hring).foldl_emit events (by rwa [List.length_nil, Nat.zero_add])
  have hholds := hkeeps.holds
  have hslots : r.slots.size = Ring.sizeFor capacity := hsize.trans (by simp [Ring.ofCapacity])
  have hadmitted : stored.length = (events.filter (·.admitted j.level)).length := by
    simpa using congrArg List.length hstored
  have hsnapshot := hholds.snapshot_eq
  refine ⟨r, hkeeps.ring?_eq, ?_, ?_, ?_, hholds.length_snapshot, ?_, hholds.tail_eq_ite, ?_⟩
  · rw [hsnapshot, hslots, ← Ring.map_rtake, ← Ring.map_rtake, hstored]
    rfl
  · intro hwords
    rw [hsnapshot]
    exact (hnumbers (numbers_nil j) hwords).increasing.drop
  · rw [hholds.held_eq, hadmitted, hslots]
  · rw [Ring.dropped, hholds.total_eq, hadmitted]
  · intro k
    have hle := hholds.tailLength_le k
    refine ⟨by rw [hholds.total_eq]; omega, fun i hi => ?_⟩
    rw [hholds.event?_tail k hi, List.getElem?_eq_getElem (by omega)]
    rfl

/-- A command with a rule too fine for the level of phases, and a heartbeat that passes at any level. -/
def shortRun : List Event :=
  [{ time := ⟨0, 0, 0⟩, kind := .spanBegin, scope := .driver, span := 1, name := "check" },
    { time := ⟨1, 0, 0⟩, kind := .point, scope := .rule, span := 2, name := "derive" },
    { time := ⟨2, 0, 0⟩, kind := .heartbeat, scope := .other, span := 0, name := "beat" },
    { time := ⟨3, 0, 0⟩, kind := .spanEnd, scope := .driver, span := 1, name := "check", detail := "done" }]

/-- A ring of two slots behind a stream has gone round once after the run. -/
theorem ring_keeps_shortRun :
    ∃ j r, ofMode .phase .both .text 2 = .ok j ∧ j.ring? = some (.ofCapacity 2) ∧ shortRun.length < 2 ^ 64 ∧
      (shortRun.foldl emit j).ring? = some r ∧ r.snapshot.map Event.unnumbered = shortRun.drop 2 ∧
      r.snapshot.Pairwise (·.seq < ·.seq) ∧
      r.dropped = 1 ∧ (r.tail 1).map Event.unnumbered = shortRun.drop 3 ∧ r.tail 3 = r.snapshot := by
  obtain ⟨r, hr, hsnapshot, hincreasing, hheld, -, hdropped, htail, -⟩ := ring_keeps_newest_admitted
    { level := .phase, sinks := [.stream .text none, .ring (.ofCapacity 2)] } 2 rfl shortRun (by decide)
  have htwo : r.held = 2 := hheld
  have hnewest : r.snapshot.map Event.unnumbered = shortRun.drop 2 := by
    rw [hsnapshot]
    decide
  refine ⟨_, r, rfl, rfl, by decide, hr, hnewest, hincreasing (by decide), ?_, ?_, ?_⟩
  · rw [hdropped, htwo]
    rfl
  · rw [htail, htwo, if_pos (by decide), ← Ring.map_rtake, hnewest]
    decide
  · rw [htail, htwo, if_neg (by decide)]

end Journal

end Coercion.Trace
