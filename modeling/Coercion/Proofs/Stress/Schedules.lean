import Coercion.Proofs.Stress.Questions
import Coercion.Stress.Run

/-!
# Stress runs under any schedule

The writers of a run register pairs of types above the pool.  As long as the identifiers do not overflow, no two of
these pairs have a type in common (`writerPair_injective`) and none has a type of the pool (`writerPair_above`).

A move of a worker does one of four things (`Worker.Advance`, `moveWorker_cases`), and a move of a writer enters one
pair.  So whatever the order of the moves, the manager differs from the one before the run by the pairs of the writers
only (`State.Undisturbed`), every question has the answer from before the run, and a worker that is given enough moves
gets to its end.
-/

namespace Coercion

private theorem Manager.kindOf_insert (m : Manager) {p : Pair} (hp : p.source ≠ p.target) (k : Kind) (q : Pair) :
    ({ m with table := m.table.insert p k } : Manager).kindOf q = if q = p then k else m.kindOf q := by
  simp only [kindOf, CompatTable.find, CompatTable.lookup?_insert, @eq_comm _ p q]
  by_cases hq : q = p
  · simp [hq, hp]
  · simp [hq]

/-- The types of a pair. -/
def Pair.ends (p : Pair) : List TypeId := [p.source, p.target]

@[simp] theorem Pair.mem_ends {p : Pair} {t : TypeId} : t ∈ p.ends ↔ t = p.source ∨ t = p.target := by simp [ends]

namespace Stress

/-! ### The pairs of writers -/

section Writers

variable {pool : List TypeId} {w w' k k' : Nat}

private theorem le_foldl_max (hi : Int32) (pool : List TypeId) :
    hi.toInt ≤ (pool.foldl (fun hi t => max hi t.id) hi).toInt ∧
      ∀ t ∈ pool, t.id.toInt ≤ (pool.foldl (fun hi t => max hi t.id) hi).toInt := by
  induction pool generalizing hi with
  | nil => simp
  | cons t pool ih =>
    have hmax : hi.toInt ≤ (max hi t.id).toInt ∧ t.id.toInt ≤ (max hi t.id).toInt := by
      simp only [max, Int32.le_iff_toInt_le]
      split <;> omega
    obtain ⟨hhi, hpool⟩ := ih (max hi t.id)
    exact ⟨hmax.1.trans hhi, List.forall_mem_cons.2 ⟨hmax.2.trans hhi, hpool⟩⟩

private theorem largestId_nonneg (pool : List TypeId) : 0 ≤ (largestId pool).toInt := (le_foldl_max 0 pool).1

private theorem toInt_le_largestId {t : TypeId} (ht : t ∈ pool) : t.id.toInt ≤ (largestId pool).toInt :=
  (le_foldl_max 0 pool).2 t ht

/-- Writer `w` has room above a pool: its identifiers do not overflow. -/
def HasRoom (pool : List TypeId) (w : Nat) : Prop := (largestId pool).toInt + 1 + 8192 * (w + 1) ≤ 2147483647

private theorem toInt_add_of_le {a b : Int32} (h : -2147483648 ≤ a.toInt + b.toInt)
    (h' : a.toInt + b.toInt ≤ 2147483647) :
    (a + b).toInt = a.toInt + b.toInt := by
  rw [Int32.toInt_add, Int.bmod_eq_of_le (by omega) (by omega)]

/-- The identifiers that a writer uses, as plain numbers. -/
private theorem toInt_writerPair (hw : HasRoom pool w) (hk : k < writerPairs) :
    (writerPair (largestId pool + 1) w k).source.id.toInt = (largestId pool).toInt + 1 + 8192 * w + 2 * k ∧
    (writerPair (largestId pool + 1) w k).target.id.toInt = (largestId pool).toInt + 1 + 8192 * w + 2 * k + 1 := by
  have hlo := largestId_nonneg pool
  unfold HasRoom at hw
  unfold writerPairs at hk
  have hone : (1 : Int32).toInt = 1 := rfl
  have hbase : (largestId pool + 1).toInt = (largestId pool).toInt + 1 := by
    rw [toInt_add_of_le] <;> omega
  -- each writer has a block of 8192 identifiers, two for each of its pairs
  have hblock : (Int32.ofNat w * Int32.ofNat (2 * writerPairs)).toInt = 8192 * w := by
    have hsize : (Int32.ofNat (2 * writerPairs)).toInt = 8192 := rfl
    rw [Int32.toInt_mul, hsize, Int32.toInt_ofNat_of_lt (by omega), Int.bmod_eq_of_le (by omega) (by omega)]
    omega
  have hpair : (Int32.ofNat k * 2).toInt = 2 * k := by
    have htwo : (2 : Int32).toInt = 2 := rfl
    rw [Int32.toInt_mul, htwo, Int32.toInt_ofNat_of_lt (by omega), Int.bmod_eq_of_le (by omega) (by omega)]
    omega
  have hstart : (largestId pool + 1 + Int32.ofNat w * Int32.ofNat (2 * writerPairs)).toInt =
      (largestId pool).toInt + 1 + 8192 * w := by
    rw [toInt_add_of_le] <;> omega
  have hsource : (writerPair (largestId pool + 1) w k).source.id.toInt =
      (largestId pool).toInt + 1 + 8192 * w + 2 * k := by
    unfold writerPair
    simp only
    rw [toInt_add_of_le] <;> omega
  refine ⟨hsource, ?_⟩
  have htarget : (writerPair (largestId pool + 1) w k).target.id =
      (writerPair (largestId pool + 1) w k).source.id + 1 := rfl
  rw [htarget, toInt_add_of_le] <;> omega

/-- Writers that have room use valid types above the pool. -/
theorem writerPair_above (hw : HasRoom pool w) (hk : k < writerPairs) {t : TypeId}
    (ht : t ∈ (writerPair (largestId pool + 1) w k).ends) : t.valid = true ∧ t ∉ pool := by
  have habove : (largestId pool).toInt < t.id.toInt := by
    obtain ⟨hsource, htarget⟩ := toInt_writerPair hw hk
    rcases Pair.mem_ends.1 ht with rfl | rfl <;> omega
  refine ⟨?_, fun hmem => absurd (toInt_le_largestId hmem) (by omega)⟩
  have hlo := largestId_nonneg pool
  simp only [TypeId.valid, decide_eq_true_eq, Int32.le_iff_toInt_le, Int32.toInt_zero]
  omega

/-- Two pairs of writers that have a type in common are the same pair of the same writer. -/
theorem writerPair_injective (hw : HasRoom pool w) (hk : k < writerPairs) (hw' : HasRoom pool w')
    (hk' : k' < writerPairs) {t : TypeId}
    (ht : t ∈ (writerPair (largestId pool + 1) w k).ends) (ht' : t ∈ (writerPair (largestId pool + 1) w' k').ends) :
    w = w' ∧ k = k' := by
  obtain ⟨hsource, htarget⟩ := toInt_writerPair hw hk
  obtain ⟨hsource', htarget'⟩ := toInt_writerPair hw' hk'
  unfold writerPairs at hk hk'
  have hid : t.id.toInt = (largestId pool).toInt + 1 + 8192 * w + 2 * k ∨
      t.id.toInt = (largestId pool).toInt + 1 + 8192 * w + 2 * k + 1 := by
    rcases Pair.mem_ends.1 ht with rfl | rfl <;> omega
  have hid' : t.id.toInt = (largestId pool).toInt + 1 + 8192 * w' + 2 * k' ∨
      t.id.toInt = (largestId pool).toInt + 1 + 8192 * w' + 2 * k' + 1 := by
    rcases Pair.mem_ends.1 ht' with rfl | rfl <;> omega
  omega

private theorem writerPair_source_ne_target (hw : HasRoom pool w) (hk : k < writerPairs) :
    (writerPair (largestId pool + 1) w k).source ≠ (writerPair (largestId pool + 1) w k).target := by
  intro h
  obtain ⟨hsource, htarget⟩ := toInt_writerPair hw hk
  rw [h] at hsource
  omega

end Writers

/-! ### Reports -/

/-- A watcher that registers nothing. -/
def Watcher.Passive (w : Watcher) : Prop := w.registerAt ≤ 0 ∨ w.records = []

namespace State

variable {c : Setup} {s : State}

/-- The watcher cancels the run at the next report. -/
def cancelsNext (c : Setup) (s : State) : Bool := decide (((s.progress.length + 1 : Nat) : Int) = c.watcher.cancelAt)

/-- A report is noted; a watcher that registers nothing can do no more than cancel the run. -/
theorem report_eq_ok (hw : c.watcher.Passive) (s : State) (p : Progress) :
    s.report c p = .ok { s with progress := p :: s.progress, cancelled := s.cancelled || s.cancelsNext c } := by
  have hpassive (f : Manager → Except Fault State) :
      (if ((s.progress.length + 1 : Nat) : Int) = c.watcher.registerAt then s.manager.addAll c.watcher.records >>= f
        else f s.manager) = f s.manager := by
    split
    · rw [hw.resolve_left (by omega)]
      rfl
    · rfl
  unfold report cancelsNext
  by_cases hcancel : ((s.progress.length + 1 : Nat) : Int) = c.watcher.cancelAt
  · simp only [List.length_cons, hcancel, ↓reduceIte, decide_true, Bool.or_true]
    rw [← hcancel]
    exact hpassive fun m => .ok { s with manager := m, progress := p :: s.progress, cancelled := true }
  · simp only [List.length_cons, hcancel, ↓reduceIte, decide_false, Bool.or_false]
    exact hpassive fun m => .ok { s with manager := m, progress := p :: s.progress }

theorem cancelAt_ne_zero_of_or {b : Bool} (h : (b || s.cancelsNext c) = true) : b = true ∨ c.watcher.cancelAt ≠ 0 := by
  rw [Bool.or_eq_true, cancelsNext, decide_eq_true_eq] at h
  exact h.imp_right (by omega)

end State

/-! ### Moves of workers -/

/-- What a move does to a worker that has not stopped, and how many questions it adds to those answered in the run. -/
inductive Worker.Advance (failed : Bool) (x : Worker) : Worker → Nat → Prop
  | start (span : Trace.Span) : x.started = false → Advance failed x { x with started := true, span } 0
  | ask (i : Nat) (rest : List Nat) : x.started = true → x.pending = i :: rest →
      Advance failed x { x with pending := rest, asked := x.asked + 1 } 0
  | finish (span : Trace.Span) : x.started = true → x.pending = [] →
      Advance failed x { x with stopped := true, span } x.asked
  | abort : x.started = true → x.pending ≠ [] → failed = true → Advance failed x { x with stopped := true } 0

namespace State

variable {c : Setup} {s s' : State} {w : Nat} {x x' : Worker}

/-- What a move of a worker leaves of the state, if its answer is as expected: `x` is put back, and `gain` is added. -/
structure Moved (c : Setup) (s : State) (w : Nat) (x : Worker) (gain : Nat) (s' : State) : Prop where
  manager : s'.manager = s.manager
  workers : s'.workers = s.workers.setIfInBounds w x
  writers : s'.writers = s.writers
  done : s'.done = s.done + UInt64.ofNat gain
  mismatches : s'.mismatches = s.mismatches
  samples : s'.samples = s.samples
  failed : s.failure.isSome = true → s'.failure.isSome = true
  cancelled_of_failed : s'.failure.isSome = true → s.failure.isSome = true ∨ s'.cancelled = true
  cancelled : s.cancelled = true → s'.cancelled = true
  watched : s'.cancelled = true → s.cancelled = true ∨ c.watcher.cancelAt ≠ 0

private theorem start_eq_ok (hw : c.watcher.Passive) (s : State) (w : Nat) (x : Worker) :
    ∃ s' span, s.start c w x = .ok s' ∧ s.Moved c w { x with started := true, span } 0 s' := by
  unfold start
  simp only
  rw [report_eq_ok hw]
  exact ⟨_, _, rfl, rfl, rfl, rfl, (UInt64.add_zero _).symm, rfl, rfl, id, Or.inl, fun h => by simp [putWorker, h],
    cancelAt_ne_zero_of_or⟩

private theorem finish_eq_ok (hw : c.watcher.Passive) (s : State) (w : Nat) (x : Worker) :
    ∃ s' span, s.finish c w x = .ok s' ∧ s.Moved c w { x with stopped := true, span } x.asked s' := by
  unfold finish
  simp only
  rw [report_eq_ok hw]
  exact ⟨_, _, rfl, rfl, rfl, rfl, rfl, rfl, rfl, id, Or.inl, fun h => by simp [putWorker, h], cancelAt_ne_zero_of_or⟩

private theorem abort_eq_ok (hw : c.watcher.Passive) (hs : s.cancelled = true) (w : Nat) (x : Worker) :
    ∃ s', s.abort c w x = .ok s' ∧ s'.failure.isSome = true ∧ s.Moved c w { x with stopped := true } 0 s' := by
  unfold abort
  simp only
  rw [report_eq_ok hw]
  exact ⟨_, rfl, by simp, rfl, rfl, rfl, (UInt64.add_zero _).symm, rfl, rfl, fun _ => by simp, fun _ => .inr rfl,
    fun _ => rfl, fun _ => .inl hs⟩

/-- The answer to question `i` is the one from before the run. -/
def Answers (c : Setup) (m : Manager) (i : Nat) : Prop :=
  (c.questions.getD i default).ask m c.options.allowLossy = .ok (c.baseline.getD i default)

private theorem askNext_eq_ok {i : Nat} (hi : Answers c s.manager i) (w : Nat) (rest : List Nat) (x : Worker) :
    s.askNext c w i rest x = .ok (s.putWorker w { x with pending := rest, asked := x.asked + 1 }) := by
  unfold askNext
  simp only
  rw [hi]
  exact if_pos rfl

private theorem goOn_eq_ok (hw : c.watcher.Passive) {i : Nat} (hi : Answers c s.manager i) {rest : List Nat}
    (hstarted : x.started = true) (hpending : x.pending = i :: rest) :
    ∃ s' x' gain, s.goOn c w i rest x = .ok s' ∧ x.Advance s'.failure.isSome x' gain ∧ s.Moved c w x' gain s' := by
  have hmoved : s.Moved c w { x with pending := rest, asked := x.asked + 1 } 0
      (s.putWorker w { x with pending := rest, asked := x.asked + 1 }) :=
    ⟨rfl, rfl, rfl, (UInt64.add_zero _).symm, rfl, rfl, id, Or.inl, id, Or.inl⟩
  unfold goOn
  split_ifs with hreport hcancelled hfirst
  · obtain ⟨s', hs', hfailed, hmoved⟩ := abort_eq_ok hw hcancelled w x
    exact ⟨s', _, 0, hs', .abort hstarted (by simp [hpending]) hfailed, hmoved⟩
  · exact ⟨_, _, 0, askNext_eq_ok hi w rest x, .ask i rest hstarted hpending, hmoved⟩
  · -- the report before the question may have cancelled the run, which the worker looks at later
    rw [report_eq_ok hw]
    let s₁ : State :=
      { s with progress := progressOf c w x .working :: s.progress, cancelled := s.cancelled || s.cancelsNext c }
    refine ⟨_, _, 0, askNext_eq_ok (s := s₁) hi w rest x, .ask i rest hstarted hpending, ?_⟩
    exact ⟨rfl, rfl, rfl, (UInt64.add_zero _).symm, rfl, rfl, id, Or.inl, fun h => by simp [s₁, putWorker, h],
      cancelAt_ne_zero_of_or⟩
  · exact ⟨_, _, 0, askNext_eq_ok hi w rest x, .ask i rest hstarted hpending, hmoved⟩

/-- All that a move of a worker can do while the answers are as before the run. -/
theorem moveWorker_cases (hw : c.watcher.Passive) (hx : s.workers[w]? = some x)
    (hanswers : ∀ i ∈ x.pending, Answers c s.manager i) :
    (x.stopped = true ∧ s.moveWorker c w = .ok s) ∨
    (x.stopped = false ∧ ∃ s' x' gain, s.moveWorker c w = .ok s' ∧ x.Advance s'.failure.isSome x' gain ∧
      s.Moved c w x' gain s') := by
  unfold moveWorker
  simp only [hx]
  cases hstopped : x.stopped with
  | true => exact .inl ⟨rfl, rfl⟩
  | false =>
    refine .inr ⟨rfl, ?_⟩
    cases hstarted : x.started with
    | false =>
      obtain ⟨s', span, hs', hmoved⟩ := start_eq_ok hw s w x
      exact ⟨s', _, 0, hs', .start span hstarted, hmoved⟩
    | true =>
      cases hpending : x.pending with
      | nil =>
        obtain ⟨s', span, hs', hmoved⟩ := finish_eq_ok hw s w x
        exact ⟨s', _, _, hs', .finish span hstarted hpending, hmoved⟩
      | cons i rest => exact goOn_eq_ok hw (hanswers i (by simp [hpending])) hstarted hpending

end State

/-! ### What every move preserves -/

namespace Worker

variable {n gain : Nat} {failed failed' : Bool} {x x' : Worker}

/-- A worker that was given `n` questions, and stops before their end only if the run failed. -/
structure Sound (n : Nat) (failed : Bool) (x : Worker) : Prop where
  asked : x.asked + x.pending.length = n
  pending : ∀ i ∈ x.pending, i < n
  stopped : x.stopped = true → x.pending = [] ∨ failed = true

/-- A worker that has got to its end. -/
def complete (x : Worker) : Bool := x.stopped && x.pending.isEmpty

/-- The number of moves that a worker has left at most. -/
def remaining (x : Worker) : Nat :=
  if x.stopped then 0 else if x.started then x.pending.length + 1 else x.pending.length + 2

private theorem Sound.mono (hx : x.Sound n failed) (hfailed : failed = true → failed' = true) : x.Sound n failed' :=
  ⟨hx.asked, hx.pending, fun hstopped => (hx.stopped hstopped).imp_right hfailed⟩

private theorem Sound.advance (hx : x.Sound n failed) (hrun : x.stopped = false) (h : x.Advance failed x' gain) :
    x'.Sound n failed := by
  obtain ⟨hasked, hpending, -⟩ := hx
  cases h with
  | start => exact ⟨hasked, hpending, by simp [hrun]⟩
  | ask i rest _ hnext =>
    rw [hnext] at hasked hpending
    refine ⟨?_, (List.forall_mem_cons.1 hpending).2, by simp [hrun]⟩
    simp only [List.length_cons] at hasked ⊢
    omega
  | finish _ _ hend => exact ⟨hasked, hpending, fun _ => .inl hend⟩
  | abort _ _ hfailed => exact ⟨hasked, hpending, fun _ => .inr hfailed⟩

/-- A move adds to the questions answered in the run when it completes a worker, and then all of its questions. -/
private theorem Sound.gain_eq (hx : x.Sound n failed) (hrun : x.stopped = false) (h : x.Advance failed' x' gain) :
    gain = n * if x'.complete then 1 else 0 := by
  cases h with
  | start => simp [complete, hrun]
  | ask => simp [complete, hrun]
  | finish _ _ hend => simp [complete, hend, ← hx.asked]
  | abort _ hleft => simp [complete, hleft]

private theorem Advance.remaining_lt (hrun : x.stopped = false) (h : x.Advance failed x' gain) :
    x'.remaining < x.remaining := by
  cases h with
  | start _ hstarted => simp [remaining, hrun, hstarted]
  | ask i rest hstarted hnext => simp [remaining, hrun, hstarted, hnext]
  | finish _ hstarted => simp [remaining, hrun, hstarted]
  | abort hstarted => simp [remaining, hrun, hstarted]

end Worker

/-- A setup whose questions are over a pool of valid types, answered by a manager before the run, with room above the
pool for its writers and a watcher that registers nothing. -/
structure Setup.Fits (c : Setup) (pool : List TypeId) (m : Manager) : Prop where
  valid : ∀ t ∈ pool, t.valid = true
  questions : ∀ i < c.questions.size, (c.questions.getD i default).Over pool
  baseline : ∀ i < c.questions.size, State.Answers c m i
  base : c.base = largestId pool + 1
  room : ∀ w : Nat, (w : Int) < c.options.writers → HasRoom pool w
  passive : c.watcher.Passive

namespace State

variable {c : Setup} {pool : List TypeId} {m : Manager} {s s' : State} {w gain : Nat} {x x' : Worker}

/-- The number of moves that worker `w` has left at most. -/
def remaining (s : State) (w : Nat) : Nat := (s.workers[w]?.map Worker.remaining).getD 0

/-- A pair that some writer has registered. -/
def Registered (c : Setup) (s : State) (p : Pair) : Prop :=
  ∃ w k n, s.writers[w]? = some n ∧ k < n ∧ p = writerPair c.base w k

/-- What holds at any time of a run that began with the manager `m`. -/
structure Undisturbed (c : Setup) (m : Manager) (s : State) : Prop where
  frozen : s.manager.frozen = m.frozen
  writers : ∀ w n : Nat, s.writers[w]? = some n → m.frozen = false ∧ (w : Int) < c.options.writers ∧ n ≤ writerPairs
  registered : ∀ p, s.Registered c p → s.manager.kindOf p = .promote
  unregistered : ∀ p, ¬ s.Registered c p → s.manager.kindOf p = m.kindOf p
  size : s.workers.size = c.workers
  sound : ∀ x ∈ s.workers, x.Sound c.questions.size s.failure.isSome
  done : s.done = UInt64.ofNat (c.questions.size * s.workers.countP Worker.complete)
  mismatches : s.mismatches = 0
  samples : s.samples = #[]
  cancelled_of_failed : s.failure.isSome = true → s.cancelled = true
  watched : s.cancelled = true → c.watcher.cancelAt ≠ 0

/-- What the writers have registered does not join types of the pool. -/
private theorem Undisturbed.agree (hc : c.Fits pool m) (hs : s.Undisturbed c m) : Query.Agree pool m s.manager := by
  intro p hsource _
  refine hs.unregistered p ?_
  rintro ⟨w, k, n, hn, hk, rfl⟩
  obtain ⟨-, hw, hle⟩ := hs.writers w n hn
  rw [hc.base] at hsource
  exact (writerPair_above (hc.room w hw) (hk.trans_le hle) (by simp)).2 hsource

theorem Undisturbed.answers (hc : c.Fits pool m) (hs : s.Undisturbed c m) {i : Nat} (hi : i < c.questions.size) :
    Answers c s.manager i :=
  (Query.ask_congr hc.valid (hs.agree hc) _ (hc.questions i hi)).trans (hc.baseline i hi)

private theorem Undisturbed.moved (hs : s.Undisturbed c m) (hx : s.workers[w]? = some x) (hrun : x.stopped = false)
    (hadvance : x.Advance s'.failure.isSome x' gain) (hmoved : s.Moved c w x' gain s') : s'.Undisturbed c m := by
  obtain ⟨hlt, hget⟩ := Array.getElem?_eq_some_iff.1 hx
  have hsound := hs.sound x (Array.mem_of_getElem? hx)
  -- only writers register, so this is about the same pairs as before
  have hregistered : ∀ p, s'.Registered c p ↔ s.Registered c p := fun p => by
    simp only [Registered, hmoved.writers]
  constructor
  case frozen => rw [hmoved.manager, hs.frozen]
  case writers => rw [hmoved.writers]; exact hs.writers
  case registered =>
    intro p hp
    rw [hmoved.manager, hs.registered p ((hregistered p).1 hp)]
  case unregistered =>
    intro p hp
    rw [hmoved.manager, hs.unregistered p (mt (hregistered p).2 hp)]
  case size => rw [hmoved.workers, Array.size_setIfInBounds, hs.size]
  case sound =>
    intro y hy
    rw [hmoved.workers] at hy
    obtain hold | rfl := Array.mem_or_eq_of_mem_setIfInBounds hy
    · exact (hs.sound y hold).mono hmoved.failed
    · exact (hsound.mono hmoved.failed).advance hrun hadvance
  case done =>
    have hincomplete : x.complete = false := by simp [Worker.complete, hrun]
    have hcount : (s.workers.setIfInBounds w x').countP Worker.complete =
        s.workers.countP Worker.complete + if x'.complete then 1 else 0 := by
      rw [Array.setIfInBounds, dif_pos hlt, Array.countP_set hlt, hget, hincomplete]
      rfl
    rw [hmoved.done, hmoved.workers, hcount, hs.done, hsound.gain_eq hrun hadvance, Nat.mul_add, UInt64.ofNat_add]
  case mismatches => rw [hmoved.mismatches, hs.mismatches]
  case samples => rw [hmoved.samples, hs.samples]
  case cancelled_of_failed =>
    exact fun h => (hmoved.cancelled_of_failed h).elim (fun h => hmoved.cancelled (hs.cancelled_of_failed h)) id
  case watched => exact fun h => (hmoved.watched h).elim hs.watched id

private theorem Undisturbed.moveWorker (hc : c.Fits pool m) (hs : s.Undisturbed c m) (w : Nat) :
    ∃ s', s.moveWorker c w = .ok s' ∧ s'.Undisturbed c m ∧
      ∀ v, s'.remaining v ≤ s.remaining v - if v = w then 1 else 0 := by
  cases hx : s.workers[w]? with
  | none =>
    refine ⟨s, by simp only [State.moveWorker, hx], hs, fun v => ?_⟩
    by_cases hv : v = w
    · simp [remaining, hv, hx]
    · simp [hv]
  | some x =>
    have hsound := hs.sound x (Array.mem_of_getElem? hx)
    obtain ⟨hstopped, hmove⟩ | ⟨hrun, s', x', gain, hmove, hadvance, hmoved⟩ :=
      moveWorker_cases hc.passive hx fun i hi => hs.answers hc (hsound.pending i hi)
    · refine ⟨s, hmove, hs, fun v => ?_⟩
      by_cases hv : v = w
      · simp [remaining, Worker.remaining, hv, hx, hstopped]
      · simp [hv]
    · refine ⟨s', hmove, hs.moved hx hrun hadvance hmoved, fun v => ?_⟩
      have hlt : w < s.workers.size := (Array.getElem?_eq_some_iff.1 hx).1
      simp only [remaining, hmoved.workers, Array.getElem?_setIfInBounds]
      by_cases hv : v = w
      · simp only [hv, ↓reduceIte, hlt, hx, Option.map_some, Option.getD_some]
        have := hadvance.remaining_lt hrun
        omega
      · simp [Ne.symm hv, hv]

/-! ### Moves of writers -/

/-- The state after writer `w` has registered its pair number `k`. -/
def entered (c : Setup) (s : State) (w k : Nat) : State :=
  { s with
    manager := { s.manager with table := s.manager.table.insert (writerPair c.base w k) .promote }
    writers := s.writers.setIfInBounds w (k + 1) }

private theorem registered_entered {k : Nat} (hk : s.writers[w]? = some k) (p : Pair) :
    (s.entered c w k).Registered c p ↔ s.Registered c p ∨ p = writerPair c.base w k := by
  have hlt : w < s.writers.size := (Array.getElem?_eq_some_iff.1 hk).1
  have hwriters (v : Nat) : (s.entered c w k).writers[v]? = if w = v then some (k + 1) else s.writers[v]? := by
    simp only [entered, Array.getElem?_setIfInBounds, hlt, ↓reduceIte]
  constructor
  · rintro ⟨v, l, n, hn, hl, rfl⟩
    rw [hwriters] at hn
    split_ifs at hn with hwv
    · subst hwv
      obtain rfl := Option.some.inj hn
      obtain hl | rfl := Nat.lt_succ_iff_lt_or_eq.1 hl
      · exact .inl ⟨w, l, k, hk, hl, rfl⟩
      · exact .inr rfl
    · exact .inl ⟨v, l, n, hn, hl, rfl⟩
  · rintro (⟨v, l, n, hn, hl, rfl⟩ | rfl)
    · by_cases hwv : w = v
      · subst hwv
        obtain rfl : k = n := Option.some.inj (hk.symm.trans hn)
        exact ⟨w, l, k + 1, by rw [hwriters, if_pos rfl], by omega, rfl⟩
      · exact ⟨v, l, n, by rw [hwriters, if_neg hwv, hn], hl, rfl⟩
    · exact ⟨w, k, k + 1, by rw [hwriters, if_pos rfl], by omega, rfl⟩

private theorem Undisturbed.entered (hc : c.Fits pool m) (hs : s.Undisturbed c m) {k : Nat}
    (hk : s.writers[w]? = some k) (hlt : k < writerPairs) : (s.entered c w k).Undisturbed c m := by
  obtain ⟨hopen, hw, -⟩ := hs.writers w k hk
  have hne : (writerPair c.base w k).source ≠ (writerPair c.base w k).target := by
    rw [hc.base]
    exact writerPair_source_ne_target (hc.room w hw) hlt
  have hkind (p : Pair) : (s.entered c w k).manager.kindOf p =
      if p = writerPair c.base w k then .promote else s.manager.kindOf p := s.manager.kindOf_insert hne .promote p
  constructor
  case frozen => exact hs.frozen
  case writers =>
    intro v n hn
    simp only [State.entered, Array.getElem?_setIfInBounds] at hn
    split_ifs at hn with hwv hsize
    · subst hwv
      obtain rfl := Option.some.inj hn
      exact ⟨hopen, hw, hlt⟩
    · exact hs.writers v n hn
  case registered =>
    intro p hp
    rw [hkind]
    split_ifs with hpair
    · rfl
    · exact hs.registered p (((registered_entered hk p).1 hp).resolve_right hpair)
  case unregistered =>
    intro p hp
    rw [registered_entered hk, not_or] at hp
    rw [hkind, if_neg hp.2, hs.unregistered p hp.1]
  case size => exact hs.size
  case sound => exact hs.sound
  case done => exact hs.done
  case mismatches => exact hs.mismatches
  case samples => exact hs.samples
  case cancelled_of_failed => exact hs.cancelled_of_failed
  case watched => exact hs.watched

private theorem Undisturbed.moveWriter (hc : c.Fits pool m) (hs : s.Undisturbed c m) (w : Nat) :
    ∃ s', s.moveWriter c w = .ok s' ∧ s'.Undisturbed c m ∧ s'.workers = s.workers := by
  unfold State.moveWriter
  cases hk : s.writers[w]? with
  | none => exact ⟨s, rfl, hs, rfl⟩
  | some k =>
    simp only
    split_ifs with hlt
    · obtain ⟨hopen, hw, -⟩ := hs.writers w k hk
      have hvalid : (writerPair c.base w k).source.valid = true ∧ (writerPair c.base w k).target.valid = true := by
        rw [hc.base]
        exact ⟨(writerPair_above (hc.room w hw) hlt (by simp)).1, (writerPair_above (hc.room w hw) hlt (by simp)).1⟩
      refine ⟨s.entered c w k, ?_, hs.entered hc hk hlt, rfl⟩
      rw [Manager.add_eq_ok (hs.frozen.trans hopen) hvalid.1 hvalid.2]
      rfl
    · exact ⟨s, rfl, hs, rfl⟩

/-! ### Schedules -/

/-- A move goes through, and takes the worker that makes it closer to its end. -/
private theorem Undisturbed.move (hc : c.Fits pool m) (hs : s.Undisturbed c m) (mv : Move) :
    ∃ s', s.move c mv = .ok s' ∧ s'.Undisturbed c m ∧
      ∀ v, s'.remaining v ≤ s.remaining v - if mv = .worker v then 1 else 0 := by
  cases mv with
  | worker w =>
    obtain ⟨s', hmove, hs', hremaining⟩ := hs.moveWorker hc w
    exact ⟨s', hmove, hs', by simpa [eq_comm] using hremaining⟩
  | writer w =>
    obtain ⟨s', hmove, hs', hworkers⟩ := hs.moveWriter hc w
    exact ⟨s', hmove, hs', fun v => by simp [remaining, hworkers]⟩

/-- A schedule goes through, and each of its moves of a worker takes it closer to its end. -/
theorem Undisturbed.run (hc : c.Fits pool m) (hs : s.Undisturbed c m) (schedule : List Move) :
    ∃ s', s.run c schedule = .ok s' ∧ s'.Undisturbed c m ∧
      ∀ v, s'.remaining v ≤ s.remaining v - schedule.count (.worker v) := by
  induction schedule generalizing s with
  | nil => exact ⟨s, rfl, hs, fun v => by simp⟩
  | cons mv schedule ih =>
    obtain ⟨s₁, hmove, hs₁, hfirst⟩ := hs.move hc mv
    obtain ⟨s', hrun, hs', hrest⟩ := ih hs₁
    refine ⟨s', ?_, hs', fun v => ?_⟩
    · rw [State.run, List.foldlM_cons, hmove]
      exact hrun
    · have h₁ := hfirst v
      have h₂ := hrest v
      rw [List.count_cons]
      by_cases hmv : mv = .worker v
      · simp only [hmv, ↓reduceIte, beq_self_eq_true] at h₁ ⊢
        omega
      · simp only [hmv, ↓reduceIte, beq_eq_false_iff_ne.2 hmv] at h₁ ⊢
        simp only [Bool.false_eq_true, ↓reduceIte]
        omega

end State

end Stress

end Coercion
