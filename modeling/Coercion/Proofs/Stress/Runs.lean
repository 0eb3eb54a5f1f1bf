import Coercion.Proofs.Stress.Schedules
import Mathlib.Data.List.Forall2

/-!
# Whole stress runs

A run begins undisturbed (`initial_eq_ok`), and stays so under any schedule (`Setup.Fits.run`).  What a run asks has an
answer beforehand (`baselineOf_eq_ok`), so a run over a pool of valid types goes through, and writers do not disturb its
readers (`readers_undisturbed`).
-/

namespace Coercion.Stress

namespace State

variable {c : Setup} {pool : List TypeId} {m : Manager} {s : State}

/-! ### The beginning of a run -/

private theorem Undisturbed.report (hc : c.Fits pool m) (hs : s.Undisturbed c m) (p : Progress) :
    ∃ s', s.report c p = .ok s' ∧ s'.Undisturbed c m ∧ s'.workers = s.workers := by
  refine ⟨_, report_eq_ok hc.passive s p, ?_, rfl⟩
  exact ⟨hs.frozen, hs.writers, hs.registered, hs.unregistered, hs.size, hs.sound, hs.done, hs.mismatches, hs.samples,
    fun h => by simp [hs.cancelled_of_failed h], fun h => (cancelAt_ne_zero_of_or h).elim hs.watched id⟩

private theorem Undisturbed.reports (hc : c.Fits pool m) (hs : s.Undisturbed c m) (p : Nat → Progress) (ws : List Nat) :
    ∃ s', ws.foldlM (fun (s : State) w => s.report c (p w)) s = .ok s' ∧ s'.Undisturbed c m ∧
      s'.workers = s.workers := by
  induction ws generalizing s with
  | nil => exact ⟨s, rfl, hs, rfl⟩
  | cons w ws ih =>
    obtain ⟨s₁, hreport, hs₁, hworkers₁⟩ := hs.report hc (p w)
    obtain ⟨s', hreports, hs', hworkers⟩ := ih hs₁
    refine ⟨s', ?_, hs', hworkers.trans hworkers₁⟩
    rw [List.foldlM_cons, hreport]
    exact hreports

end State

/-- A run begins undisturbed, and each worker has a move for each question and two more. -/
theorem initial_eq_ok {c : Setup} {pool : List TypeId} {m : Manager} (hc : c.Fits pool m) (j : Trace.Journal) :
    ∃ s, initial c m j = .ok s ∧ s.Undisturbed c m ∧ ∀ w, s.remaining w ≤ c.questions.size + 2 := by
  let fresh (w : Nat) : Worker := { pending := workerOrder c.options.seed w c.questions.size }
  let s₀ : State :=
    { manager := m, workers := ((List.range c.workers).map fresh).toArray
      writers := Array.replicate (if m.frozen then 0 else c.options.writers.toNat) 0, journal := j
      cancelled := decide (c.watcher.cancelAt < 0) }
  have hunregistered (p : Pair) : ¬ s₀.Registered c p := by
    rintro ⟨w, k, n, hn, hk, -⟩
    simp only [s₀, Array.getElem?_replicate, Option.ite_none_right_eq_some, Option.some.injEq] at hn
    omega
  have hperm (w : Nat) := workerOrder_perm c.options.seed w c.questions.size
  have hs₀ : s₀.Undisturbed c m := by
    constructor
    case frozen => rfl
    case writers =>
      intro w n hn
      simp only [s₀, Array.getElem?_replicate, Option.ite_none_right_eq_some, Option.some.injEq] at hn
      obtain ⟨hw, rfl⟩ := hn
      cases hfrozen : m.frozen
      · simp only [hfrozen, Bool.false_eq_true, ↓reduceIte] at hw
        exact ⟨rfl, by omega, Nat.zero_le _⟩
      · simp [hfrozen] at hw
    case registered => exact fun p hp => absurd hp (hunregistered p)
    case unregistered => exact fun p _ => rfl
    case size => simp [s₀]
    case sound =>
      intro x hx
      obtain ⟨w, -, rfl⟩ : ∃ w, w < c.workers ∧ fresh w = x := by simpa [s₀] using hx
      refine ⟨?_, fun i hi => List.mem_range.1 ((hperm w).mem_iff.1 hi), by simp [fresh]⟩
      simp [fresh, (hperm w).length_eq]
    case done => simp [s₀, fresh, List.countP_map, Function.comp_def, Worker.complete]
    case mismatches => rfl
    case samples => rfl
    case cancelled_of_failed => simp [s₀]
    case watched =>
      intro h
      have : c.watcher.cancelAt < 0 := by simpa [s₀] using h
      omega
  obtain ⟨s, hreports, hs, hworkers⟩ :=
    hs₀.reports hc (fun w => { worker := w, status := .queued, total := UInt64.ofNat c.questions.size })
      (List.range c.workers)
  refine ⟨s, hreports, hs, fun w => ?_⟩
  rw [State.remaining, hworkers]
  by_cases hw : w < c.workers
  · simp [s₀, fresh, hw, Worker.remaining, (hperm w).length_eq]
  · simp [s₀, hw]

/-- Questions that all have an answer have a list of answers. -/
theorem baselineOf_eq_ok {m : Manager} {allowLossy : Bool} {qs : List Query}
    (hqs : ∀ q ∈ qs, ∃ a, q.ask m allowLossy = .ok a) :
    ∃ answers, baselineOf m allowLossy qs = .ok answers ∧
      List.Forall₂ (fun q a => q.ask m allowLossy = .ok a) qs answers := by
  induction qs with
  | nil => exact ⟨[], rfl, .nil⟩
  | cons q qs ih =>
    obtain ⟨⟨a, ha⟩, hqs⟩ := List.forall_mem_cons.1 hqs
    obtain ⟨answers, hanswers, hall⟩ := ih hqs
    refine ⟨a :: answers, ?_, .cons ha hall⟩
    unfold baselineOf at hanswers ⊢
    rw [List.mapM_cons, ha, hanswers]
    rfl

/-! ### Whole runs -/

/-- The questions of a run. -/
def Options.questions (o : Options) (pool : List TypeId) : List Query :=
  Stress.queries o.seed pool o.queryCount o.argumentCount o.candidateCount

/-- The setup of a run over a pool, given the answers before it. -/
def Setup.ofPool (pool : List TypeId) (o : Options) (processors : Nat) (watcher : Watcher) (baseline : List Answer)
    (span : UInt64) : Setup :=
  { options := o, workers := o.workerCount processors, questions := (o.questions pool).toArray
    baseline := baseline.toArray, watcher, base := largestId pool + 1, span }

private theorem Setup.fits {pool : List TypeId} (hpool : pool ≠ []) (hvalid : ∀ t ∈ pool, t.valid = true) {o : Options}
    (hroom : (largestId pool).toInt + 1 + 8192 * o.writers ≤ 2147483647) {watcher : Watcher}
    (hwatcher : watcher.Passive) {m : Manager} {baseline : List Answer}
    (hbaseline : List.Forall₂ (fun q a => q.ask m o.allowLossy = .ok a) (o.questions pool) baseline)
    (processors : Nat) (span : UInt64) : (Setup.ofPool pool o processors watcher baseline span).Fits pool m := by
  constructor
  case valid => exact hvalid
  case questions =>
    intro i hi
    have hi : i < (o.questions pool).length := hi
    simp only [Setup.ofPool, Array.getD_eq_getD_getElem?, List.getElem?_toArray, List.getElem?_eq_getElem hi,
      Option.getD_some]
    exact over_of_mem_queries hpool _ (List.getElem_mem hi)
  case baseline =>
    intro i hi
    have hi : i < (o.questions pool).length := hi
    have hi' : i < baseline.length := by rwa [← hbaseline.length_eq]
    simp only [State.Answers, Setup.ofPool, Array.getD_eq_getD_getElem?, List.getElem?_toArray,
      List.getElem?_eq_getElem hi, List.getElem?_eq_getElem hi', Option.getD_some]
    exact hbaseline.get hi hi'
  case base => rfl
  case room =>
    intro w hw
    have hw : (w : Int) < o.writers := hw
    unfold HasRoom
    omega
  case passive => exact hwatcher

/-- The plain schedule gives each worker a move for each question and two more. -/
private theorem le_count_plainSchedule {workers w : Nat} (hw : w < workers) (questions writers : Nat) :
    questions + 2 ≤ (plainSchedule workers questions writers).count (.worker w) := by
  rw [← List.replicate_sublist_iff]
  refine List.Sublist.trans ?_ (List.sublist_append_left _ _)
  rw [List.flatMap_def]
  exact List.sublist_flatten_of_mem (List.mem_map.2 ⟨w, List.mem_range.2 hw, rfl⟩)

/-- Workers that have no move left have stopped. -/
private theorem State.stopped_of_remaining {s : State} (h : ∀ w < s.workers.size, s.remaining w = 0) :
    ∀ x ∈ s.workers, x.stopped = true := by
  intro x hx
  obtain ⟨w, hw, rfl⟩ := Array.mem_iff_getElem.1 hx
  have hzero := h w hw
  simp only [State.remaining, Array.getElem?_eq_getElem hw, Option.map_some, Option.getD_some,
    Worker.remaining] at hzero
  by_contra hstopped
  simp only [hstopped, ↓reduceIte] at hzero
  split_ifs at hzero

/-- Any schedule goes through, and one with enough moves for each worker stops them all. -/
theorem Setup.Fits.run {c : Setup} {pool : List TypeId} {m : Manager} (hc : c.Fits pool m) (j : Trace.Journal) :
    ∃ s₀, initial c m j = .ok s₀ ∧ ∀ schedule, ∃ s, s₀.run c schedule = .ok s ∧ s.Undisturbed c m ∧
      ((∀ w < c.workers, c.questions.size + 2 ≤ schedule.count (.worker w)) →
        ∀ x ∈ s.workers, x.stopped = true) := by
  obtain ⟨s₀, hinitial, hs₀, hbound⟩ := initial_eq_ok hc j
  refine ⟨s₀, hinitial, fun schedule => ?_⟩
  obtain ⟨s, hrun, hs, hremaining⟩ := hs₀.run hc schedule
  refine ⟨s, hrun, hs, fun hschedule => State.stopped_of_remaining fun w hw => ?_⟩
  have hmoves := hschedule w (by rwa [hs.size] at hw)
  have hbefore := hbound w
  have hafter := hremaining w
  omega

private theorem State.Undisturbed.clean {c : Setup} {m : Manager} {s : State} (hs : s.Undisturbed c m)
    (span : Trace.Span) :
    (s.outcome c span).report.mismatches = 0 ∧ (s.outcome c span).report.samples = [] :=
  ⟨hs.mismatches, by simp [State.outcome, hs.samples]⟩

/-- A run that was not cancelled, and whose workers have stopped, has asked every question of every worker. -/
private theorem State.Undisturbed.outcome {c : Setup} {m : Manager} {s : State} (hs : s.Undisturbed c m)
    (hstopped : ∀ x ∈ s.workers, x.stopped = true) (hcancelled : s.cancelled = false) (span : Trace.Span) :
    (s.outcome c span).failure = none ∧
      (s.outcome c span).report.queries.toNat = c.workers * c.questions.size % UInt64.size := by
  have hfailure : s.failure = none := by
    by_contra hne
    rw [hs.cancelled_of_failed (Option.isSome_iff_ne_none.2 hne)] at hcancelled
    cases hcancelled
  have hcomplete : s.workers.countP Worker.complete = s.workers.size := by
    rw [Array.countP_eq_size]
    intro x hx
    have hpending := ((hs.sound x hx).stopped (hstopped x hx)).resolve_right (by simp [hfailure])
    simp [Worker.complete, hstopped x hx, hpending]
  refine ⟨hfailure, ?_⟩
  change s.done.toNat = _
  rw [hs.done, hcomplete, hs.size, Nat.mul_comm, UInt64.toNat_ofNat']

/-- A run is made under the plain schedule. -/
private theorem run_eq_ok {pool : List TypeId} (hpool : pool ≠ []) {o : Options} {m : Manager} {baseline : List Answer}
    (hbaseline : baselineOf m o.allowLossy (o.questions pool) = .ok baseline) {processors : Nat} {watcher : Watcher}
    {j j₁ : Trace.Journal} {current : UInt64} {span : Trace.Span} {s₀ s : State}
    (hspan : j.beginSpan .driver "stress" current = (span, j₁))
    (hinitial : initial (.ofPool pool o processors watcher baseline span.id) m
      (j₁.point .pass "stress:baseline" (toString (o.questions pool).length ++ " queries") span.id) = .ok s₀)
    (hrun : s₀.run (.ofPool pool o processors watcher baseline span.id)
      (plainSchedule (o.workerCount processors) (o.questions pool).length s₀.writers.size) = .ok s) :
    run m pool o processors watcher j current =
      .ok (s.outcome (.ofPool pool o processors watcher baseline span.id) span) := by
  unfold Options.questions at *
  unfold run
  simp only [List.isEmpty_iff, hpool, ↓reduceIte, hspan, hbaseline]
  change (initial (.ofPool pool o processors watcher baseline span.id) m _ >>= _) = _
  rw [hinitial]
  rw [← List.size_toArray] at hrun
  change (s₀.run (.ofPool pool o processors watcher baseline span.id) _ >>= _) = _
  rw [hrun]
  rfl

/-- Writers do not disturb readers.  For a pool of valid types with room for its writers above it: no two writers
use a type in common, nor one of the pool.  Under any schedule no move fails, the manager differs from the one
before the run by pairs of the writers, and all questions have the answers from before the run, so that no mismatch is
reported.  A schedule with enough moves ends the run, and if it was not cancelled, every worker has asked every
question, as far as a word counts.  In particular this holds of the plain run. -/
theorem readers_undisturbed {pool : List TypeId} (hpool : pool ≠ []) (hvalid : ∀ t ∈ pool, t.valid = true)
    {o : Options} (hroom : (largestId pool).toInt + 1 + 8192 * o.writers ≤ 2147483647) {watcher : Watcher}
    (hwatcher : watcher.Passive) (m : Manager) (processors : Nat) :
    (∀ w k : Nat, (w : Int) < o.writers → k < writerPairs →
      ∀ t ∈ (writerPair (largestId pool + 1) w k).ends, t.valid = true ∧ t ∉ pool ∧
        ∀ w' k' : Nat, (w' : Int) < o.writers → k' < writerPairs →
          t ∈ (writerPair (largestId pool + 1) w' k').ends → w = w' ∧ k = k') ∧
    ∃ baseline, baselineOf m o.allowLossy (o.questions pool) = .ok baseline ∧
      (∀ (span : Trace.Span) (j : Trace.Journal),
        let c := Setup.ofPool pool o processors watcher baseline span.id
        ∃ s₀, initial c m j = .ok s₀ ∧ ∀ schedule, ∃ s, s₀.run c schedule = .ok s ∧
          (∀ p, s.Registered c p → s.manager.kindOf p = .promote) ∧
          (∀ p, ¬ s.Registered c p → s.manager.kindOf p = m.kindOf p) ∧
          (∀ (i : Nat) q a, (o.questions pool)[i]? = some q → baseline[i]? = some a →
            q.ask s.manager o.allowLossy = .ok a) ∧
          (s.outcome c span).report.mismatches = 0 ∧ (s.outcome c span).report.samples = [] ∧
          ((∀ w < o.workerCount processors, o.queryCount + 2 ≤ schedule.count (.worker w)) →
            ∀ x ∈ s.workers, x.stopped = true) ∧
          ((∀ x ∈ s.workers, x.stopped = true) → s.cancelled = false →
            (s.outcome c span).failure = none ∧
            (s.outcome c span).report.queries.toNat = o.workerCount processors * o.queryCount % UInt64.size)) ∧
      ∀ (j : Trace.Journal) (current : UInt64),
        ∃ out, run m pool o processors watcher j current = .ok out ∧ out.report.mismatches = 0 ∧
          out.report.samples = [] ∧
          (watcher.cancelAt = 0 → out.failure = none ∧
            out.report.queries.toNat = o.workerCount processors * o.queryCount % UInt64.size) := by
  have hbound (w : Nat) (hw : (w : Int) < o.writers) : HasRoom pool w := by
    unfold HasRoom
    omega
  have hlength : (o.questions pool).length = o.queryCount := length_queries _ _ _ _ _
  have hanswered : ∀ q ∈ o.questions pool, ∃ a, q.ask m o.allowLossy = .ok a := fun q hq =>
    Query.exists_ask_eq_ok hvalid m o.allowLossy (over_of_mem_queries hpool q hq)
  obtain ⟨baseline, hbaseline, hall⟩ := baselineOf_eq_ok hanswered
  have hfits := Setup.fits hpool hvalid hroom hwatcher hall processors
  refine ⟨fun w k hw hk t ht => ?_, baseline, hbaseline, fun span j => ?_, fun j current => ?_⟩
  · obtain ⟨htvalid, htpool⟩ := writerPair_above (hbound w hw) hk ht
    exact ⟨htvalid, htpool, fun w' k' hw' hk' => writerPair_injective (hbound w hw) hk (hbound w' hw') hk' ht⟩
  · obtain ⟨s₀, hinitial, hruns⟩ := (hfits span.id).run j
    refine ⟨s₀, hinitial, fun schedule => ?_⟩
    obtain ⟨s, hrun, hs, hends⟩ := hruns schedule
    refine ⟨s, hrun, hs.registered, hs.unregistered, fun i q a hq ha => ?_, (hs.clean span).1, (hs.clean span).2,
      fun hschedule => hends ?_, fun hstopped hcancelled => ?_⟩
    · have hanswer := hs.answers (hfits span.id) (List.getElem?_eq_some_iff.1 hq).1
      simpa [State.Answers, Setup.ofPool, Array.getD_eq_getD_getElem?, hq, ha] using hanswer
    · simpa [Setup.ofPool, hlength] using hschedule
    · simpa [Setup.ofPool, hlength] using hs.outcome hstopped hcancelled span
  · -- the plain run is the run of one schedule, which has the moves that every worker needs
    obtain ⟨span, j₁, hspan⟩ : ∃ span j₁, j.beginSpan .driver "stress" current = (span, j₁) := ⟨_, _, rfl⟩
    obtain ⟨s₀, hinitial, hruns⟩ := (hfits span.id).run
      (j₁.point .pass "stress:baseline" (toString (o.questions pool).length ++ " queries") span.id)
    obtain ⟨s, hrun, hs, hends⟩ := hruns
      (plainSchedule (o.workerCount processors) (o.questions pool).length s₀.writers.size)
    refine ⟨_, run_eq_ok hpool hbaseline hspan hinitial hrun, (hs.clean span).1, (hs.clean span).2, fun hwatch => ?_⟩
    have hcancelled : s.cancelled = false := by
      by_contra hne
      exact hs.watched (by simpa using hne) hwatch
    have hstopped := hends fun w hw => le_count_plainSchedule hw _ _
    simpa [Setup.ofPool, hlength] using hs.outcome hstopped hcancelled span

/-- Two writers that use the identifiers up to the last one. -/
theorem readers_undisturbed_at_limit :
    (largestId [⟨0⟩, ⟨2147467262⟩]).toInt + 1 + 8192 * 2 = 2147483647 ∧
    ∃ out, run { table := CompatTable.empty.insert ⟨⟨0⟩, ⟨2147467262⟩⟩ .promote } [⟨0⟩, ⟨2147467262⟩]
        { workers := 3, queries := 5, writers := 2 } 1 {} default 0 = .ok out ∧
      out.report.mismatches = 0 ∧ out.report.samples = [] ∧ out.failure = none ∧ out.report.queries = 15 := by
  have hpool : [⟨0⟩, ⟨2147467262⟩] ≠ ([] : List TypeId) := by decide
  have hroom : (largestId [⟨0⟩, ⟨2147467262⟩]).toInt + 1 +
      8192 * (Options.writers { workers := 3, queries := 5, writers := 2 }) ≤ 2147483647 := by decide
  have hwatcher : (Watcher.mk 0 0 []).Passive := .inr rfl
  refine ⟨by decide, ?_⟩
  obtain ⟨-, baseline, -, -, hrun⟩ := readers_undisturbed hpool (by decide) hroom hwatcher
    { table := CompatTable.empty.insert ⟨⟨0⟩, ⟨2147467262⟩⟩ .promote } 1
  obtain ⟨out, hout, hmismatches, hsamples, hcomplete⟩ := hrun default 0
  obtain ⟨hfailure, hqueries⟩ := hcomplete rfl
  exact ⟨out, hout, hmismatches, hsamples, hfailure, UInt64.toNat.inj hqueries⟩

end Coercion.Stress
