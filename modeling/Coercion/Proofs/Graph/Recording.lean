import Coercion.Proofs.Graph.Replay
import Coercion.Proofs.Trace.Spans

/-!
# The trace of a closure

A traced closure is made of its log, after the loops.  It is the same as one that counts and traces each write when it
makes it: the loops read nothing but relations, so they can be run on any state that has some (`sweep_hom`), and the
statistics and the journal are told by the log at every step (`propagateTraced_eq_propagateTold`).

At each level a closure hands over the events `recording`: its span around one point for each write, the span alone, or
nothing (`propagateTraced_eq`).  The points can be read, so what a closure did to the kinds can be done again from its
trace.
-/

namespace Coercion.Graph

open Trace (Event Journal Level Moment)

/-! ### Loops that trace as they go -/

section Sweep

variable {σ τ : Type} {read : σ → Pair → Option Relation} {offer : σ → Pair → Kind → σ}
  {read' : τ → Pair → Option Relation} {offer' : τ → Pair → Kind → τ}

/-- The loops of a closure, on states of whatever kind. -/
def sweep (read : σ → Pair → Option Relation) (offer : σ → Pair → Kind → σ) (nodes : List TypeId) (s : σ) : σ :=
  nodes.foldl
    (fun s k =>
      nodes.foldl
        (fun s i =>
          if i = k then s
          else
            match read s ⟨i, k⟩ with
            | none => s
            | some first =>
              nodes.foldl
                (fun s j =>
                  if j = i ∨ j = k then s
                  else
                    match read s ⟨k, j⟩ with
                    | none => s
                    | some second => offer s ⟨i, j⟩ (first.kind.compose second.kind))
                s)
        s)
    s

/-- States that answer alike and take offers alike stay so. -/
theorem sweep_hom (f : σ → τ) (hread : ∀ s, read' (f s) = read s)
    (hoffer : ∀ s p a, offer' (f s) p a = f (offer s p a)) (nodes : List TypeId) (s : σ) :
    sweep read' offer' nodes (f s) = f (sweep read offer nodes s) := by
  refine List.foldl_hom f fun s k => List.foldl_hom f fun s i => ?_
  rw [hread]
  split
  · rfl
  · split
    · rfl
    · refine List.foldl_hom f fun s j => ?_
      rw [hread]
      split
      · rfl
      · split
        · rfl
        · exact hoffer _ _ _

end Sweep

/-- An offer on relations that are given as a function. -/
def relaxRel (s : (Pair → Option Relation) × List Write) (p : Pair) (a : Kind) :
    (Pair → Option Relation) × List Write :=
  (fun q => if p = q then some (offered (s.1 p) a) else s.1 q,
    match s.1 p with
    | none => ⟨p, a, true⟩ :: s.2
    | some r => if a.code < r.kind.code then ⟨p, a, false⟩ :: s.2 else s.2)

private theorem close_eq_sweep (g : Graph) :
    g.close.2 = (sweep (·.1) relaxRel g.sortedNodes (g.lookup?, [])).2.reverse := by
  have hsweep : sweep (·.1) relaxRel g.sortedNodes (g.lookup?, []) =
      (fun s : Closing => (s.rel, s.log))
        (sweep (fun s p => s.relations[p]?) relax g.sortedNodes ⟨g.relations, []⟩) := by
    refine sweep_hom (fun s : Closing => (s.rel, s.log)) ?_ ?_ g.sortedNodes ⟨g.relations, []⟩
    · intro s
      rfl
    · intro s p a
      refine Prod.ext ?_ (relax_log s p a).symm
      funext q
      exact (relax_rel s p q a).symm
  rw [hsweep]
  rfl

/-- Relations under way, with the statistics and the trace so far. -/
structure Told where
  relations : Std.HashMap Pair Relation
  stats : Stats
  journal : Journal

/-- Offers a pair a path of kind `k`; a change is counted and traced at once. -/
def tell (span : UInt64) (s : Told) (p : Pair) (k : Kind) : Told :=
  match s.relations[p]? with
  | none =>
    { relations := s.relations.insert p { kind := k, derived := true }
      stats := { s.stats with derived := s.stats.derived + 1 }
      journal := s.journal.point .rule "derive" (p.render ++ " " ++ k.name) span }
  | some r =>
    if k.code < r.kind.code then
      { relations := s.relations.insert p (improve r k)
        stats := { s.stats with improved := s.stats.improved + 1 }
        journal := s.journal.point .rule "improve" (p.render ++ " " ++ k.name) span }
    else s

/-- Closes a graph inside a span of the trace, with statistics and points made inside the loops. -/
def propagateTold (g : Graph) (j : Journal) (current : UInt64) : Graph × Stats × Journal :=
  let (span, j) := j.beginSpan .pass "propagate" current
  let s := sweep (fun s p => s.relations[p]?) (tell span.id) g.sortedNodes ⟨g.relations, g.closeStats [], j⟩
  let span := Journal.note span "nodes" (toString s.stats.nodes)
  let span := Journal.note span "derived" (toString s.stats.derived)
  let span := Journal.note span "improved" (toString s.stats.improved)
  ({ g with relations := s.relations }, s.stats, s.journal.endSpan span "")

/-- A closure under way, with what its log tells. -/
def Closing.told (g : Graph) (j : Journal) (span : UInt64) (s : Closing) : Told where
  relations := s.relations
  stats := g.closeStats s.log.reverse
  journal := s.log.reverse.foldl (Write.trace span) j

private theorem tell_told (g : Graph) (j : Journal) (span : UInt64) (s : Closing) (p : Pair) (a : Kind) :
    tell span (s.told g j span) p a = (relax s p a).told g j span := by
  have hread : (s.told g j span).relations = s.relations := rfl
  unfold tell relax
  rw [hread]
  cases s.relations[p]? with
  | none => simp [Closing.told, closeStats, Write.trace]
  | some r =>
    by_cases hlt : a.code < r.kind.code
    · simp [Closing.told, closeStats, Write.trace, hlt]
    · simp only [if_neg hlt]

theorem propagateTraced_eq_propagateTold (g : Graph) (j : Journal) (current : UInt64) :
    g.propagateTraced j current = g.propagateTold j current := by
  unfold propagateTold
  generalize hspan : j.beginSpan .pass "propagate" current = begun
  obtain ⟨span, j'⟩ := begun
  have hsweep : sweep (fun s p => s.relations[p]?) (tell span.id) g.sortedNodes ⟨g.relations, g.closeStats [], j'⟩ =
      (sweep (fun s p => s.relations[p]?) relax g.sortedNodes ⟨g.relations, []⟩).told g j' span.id := by
    refine sweep_hom (Closing.told g j' span.id) ?_ (tell_told g j' span.id) g.sortedNodes ⟨g.relations, []⟩
    intro s
    rfl
  dsimp only
  rw [hsweep]
  unfold propagateTraced
  rw [hspan]
  rfl

/-! ### Events -/

/-- The event at the beginning of a closure. -/
def opening (time : Moment) (span parent : UInt64) : Event :=
  { time, kind := .spanBegin, scope := .pass, span, parent, thread := Journal.thread, name := "propagate" }

/-- The event at the end of a closure with some statistics. -/
def ending (time : Moment) (span parent : UInt64) (stats : Stats) : Event :=
  { time, kind := .spanEnd, scope := .pass, span, parent, thread := Journal.thread, name := "propagate"
    notes := [("derived", toString stats.derived), ("improved", toString stats.improved),
      ("nodes", toString stats.nodes)] }

/-- The points of a closure: one for each write, in order, under the span. -/
def points (g : Graph) (time : Moment) (span : UInt64) : List Event :=
  Journal.pointsFrom time .rule span Write.label Write.detail span g.close.2

/-- The events of a closure at a level. -/
def recording (g : Graph) (level : Level) (time : Moment) (span parent : UInt64) : List Event :=
  match level with
  | .debug => opening time span parent :: (g.points time span ++ [ending time span parent g.propagate.2])
  | .phase | .detail => [opening time span parent, ending time span parent g.propagate.2]
  | .off | .error | .other => []

private theorem endSpan_noted {j : Journal} (span parent : UInt64) (stats : Stats) :
    j.endSpan
      (Journal.note
        (Journal.note
          (Journal.note ⟨span, parent, .pass, "propagate", [], true⟩ "nodes" (toString stats.nodes))
          "derived" (toString stats.derived))
        "improved" (toString stats.improved)) "" =
      j.emit (ending j.clock span parent stats) := by
  have hnotes : ∀ nodes derived improved,
      ((Trace.Notes.set [] "nodes" nodes).set "derived" derived).set "improved" improved =
        [("derived", derived), ("improved", improved), ("nodes", nodes)] := by
    intro nodes derived improved
    rfl
  simp only [Journal.note, Journal.endSpan, ↓reduceIte, hnotes, ending]

section

variable {g : Graph} {j : Journal} {time : Moment} {span parent current : UInt64} {level : Level} {e : Event}

private theorem map_points (g : Graph) (time : Moment) (span : UInt64) :
    (g.points time span).map (fun e => (e.kind, e.scope, e.parent, e.name, e.detail)) =
      g.close.2.map fun w => (.point, .rule, span, w.label, w.detail) := by
  refine Journal.map_pointsFrom ?_ span
  intro w _ e hkind hscope hparent hname hdetail
  rw [hkind, hscope, hparent, hname, hdetail]

private theorem kind_and_scope_of_mem_points (he : e ∈ g.points time span) : e.kind = .point ∧ e.scope = .rule := by
  have hmem := List.mem_map_of_mem (f := fun e : Event => (e.kind, e.scope, e.parent, e.name, e.detail)) he
  rw [map_points, List.mem_map] at hmem
  obtain ⟨w, -, hw⟩ := hmem
  simp only [Prod.mk.injEq] at hw
  exact ⟨hw.1.symm, hw.2.1.symm⟩

private theorem admitted_of_mem_recording (he : e ∈ g.recording level time span parent) : e.admitted level = true := by
  cases level with
  | debug =>
    rcases List.mem_cons.1 he with rfl | he
    · rfl
    · rcases List.mem_append.1 he with he | he
      · obtain ⟨-, hscope⟩ := kind_and_scope_of_mem_points he
        simp [Event.admitted, hscope, Level.emits, Trace.Scope.fineness?, Level.finest]
      · rw [List.mem_singleton.1 he]
        rfl
  | phase =>
    rcases List.mem_pair.1 he with rfl | rfl
    · rfl
    · rfl
  | detail =>
    rcases List.mem_pair.1 he with rfl | rfl
    · rfl
    · rfl
  | off => cases he
  | error => cases he
  | other => cases he

private theorem propagateTraced_of_records (h : j.records .pass = true) (g : Graph) (current : UInt64) :
    g.propagateTraced j current =
      let told := g.close.2.foldl (Write.trace (j.spans + 1))
        ((j.emit (opening j.clock (j.spans + 1) current)).withSpans (j.spans + 1))
      (g.propagate.1, g.propagate.2, told.emit (ending told.clock (j.spans + 1) current g.propagate.2)) := by
  unfold propagateTraced
  rw [Journal.beginSpan_of_records h]
  simp only [endSpan_noted]
  rfl

private theorem foldl_trace_of_debug (h : j.level = .debug) (g : Graph) (span : UInt64) :
    g.close.2.foldl (Write.trace span) (j.withSpans span) =
      ((g.points j.clock span).foldl Journal.emit j).withSpans
        (span + UInt64.ofNat (g.points j.clock span).length) := by
  have hrule : (j.withSpans span).records .rule = true := Journal.records_rule_iff.2 h
  have hlength : (g.points j.clock span).length = g.close.2.length := Journal.length_pointsFrom _ _ _
  calc g.close.2.foldl (Write.trace span) (j.withSpans span)
    _ = ((g.points j.clock span).foldl Journal.emit (j.withSpans span)).withSpans
          (span + UInt64.ofNat g.close.2.length) := Journal.foldl_point_of_records hrule g.close.2
    _ = _ := by rw [Journal.foldl_emit_withSpans, Journal.withSpans_withSpans, hlength]

private theorem foldl_trace_of_ne_debug (h : j.level ≠ .debug) (g : Graph) (span : UInt64) :
    g.close.2.foldl (Write.trace span) j = j := by
  have hrule : j.records .rule = false := by
    rw [← Bool.not_eq_true, Journal.records_rule_iff]
    exact h
  exact Journal.foldl_point_of_not_records hrule g.close.2

private theorem countP_recording_debug :
    (g.recording .debug time span parent).countP (·.kind ≠ .spanEnd) = (g.points time span).length + 1 := by
  have hpoints : (g.points time span).countP (·.kind ≠ .spanEnd) = (g.points time span).length := by
    rw [List.countP_eq_length]
    intro e he
    simp [(kind_and_scope_of_mem_points he).1]
  simp only [recording, List.countP_cons, List.countP_append, hpoints, List.countP_nil]
  rfl

private theorem propagateTraced_of_debug (h : j.level = .debug) (g : Graph) (current : UInt64) :
    g.propagateTraced j current =
      (g.propagate.1, g.propagate.2,
        ((g.recording .debug j.clock (j.spans + 1) current).foldl Journal.emit j).withSpans
          (j.spans + 1 + UInt64.ofNat (g.points j.clock (j.spans + 1)).length)) := by
  have hpass : j.records .pass = true := Journal.records_pass_iff.2 (Or.inr (Or.inr h))
  have hlevel : ∀ e, (j.emit e).level = .debug := fun e => (Journal.level_emit j e).trans h
  have hclock : ∀ j : Journal, ∀ n, (j.withSpans n).clock = j.clock := fun _ _ => rfl
  simp only [propagateTraced_of_records hpass, foldl_trace_of_debug (hlevel _), hclock, Journal.clock_foldl_emit,
    Journal.clock_emit, Journal.emit_withSpans, recording, List.foldl_cons, List.foldl_append, List.foldl_nil]

private theorem propagateTraced_of_pass (h : j.records .pass = true) (hne : j.level ≠ .debug) (g : Graph)
    (current : UInt64) :
    g.propagateTraced j current =
      (g.propagate.1, g.propagate.2,
        ([opening j.clock (j.spans + 1) current, ending j.clock (j.spans + 1) current g.propagate.2].foldl
          Journal.emit j).withSpans (j.spans + 1)) := by
  have hlevel : ∀ e n, ((j.emit e).withSpans n).level ≠ .debug := by
    intro e n
    rw [← Journal.level_emit j e] at hne
    exact hne
  have hclock : ∀ e n, ((j.emit e).withSpans n).clock = j.clock := fun e _ => Journal.clock_emit j e
  simp only [propagateTraced_of_records h, foldl_trace_of_ne_debug (hlevel _ _), hclock, Journal.emit_withSpans,
    List.foldl_cons, List.foldl_nil]

private theorem propagateTraced_of_not_records (h : j.records .pass = false) (g : Graph) (current : UInt64) :
    g.propagateTraced j current = (g.propagate.1, g.propagate.2, j) := by
  have hne : j.level ≠ .debug := by
    intro hlevel
    rw [Journal.records_pass_iff.2 (Or.inr (Or.inr hlevel))] at h
    cases h
  unfold propagateTraced
  rw [Journal.beginSpan_of_not_records h]
  dsimp only
  rw [foldl_trace_of_ne_debug hne]
  rfl

private theorem recording_of_pass (h : j.records .pass = true) (hne : j.level ≠ .debug) :
    g.recording j.level time span parent =
      [opening time span parent, ending time span parent g.propagate.2] := by
  rcases Journal.records_pass_iff.1 h with hlevel | hlevel | hlevel
  · rw [hlevel]
    rfl
  · rw [hlevel]
    rfl
  · exact absurd hlevel hne

private theorem recording_of_not_records (h : j.records .pass = false) : g.recording j.level time span parent = [] := by
  rw [← Bool.not_eq_true, Journal.records_pass_iff] at h
  unfold recording
  split
  · rename_i hlevel
    exact absurd (Or.inr (Or.inr hlevel)) h
  · rename_i hlevel
    exact absurd (Or.inl hlevel) h
  · rename_i hlevel
    exact absurd (Or.inr (Or.inl hlevel)) h
  all_goals rfl

/-- What a closure hands to a journal: the events of its level; each of them but the end takes a number. -/
theorem propagateTraced_eq (g : Graph) (j : Journal) (current : UInt64) :
    g.propagateTraced j current =
      let events := g.recording j.level j.clock (j.spans + 1) current
      (g.propagate.1, g.propagate.2,
        (events.foldl Journal.emit j).withSpans (j.spans + UInt64.ofNat (events.countP (·.kind ≠ .spanEnd)))) := by
  by_cases hdebug : j.level = .debug
  · have hnumber : ∀ n, j.spans + 1 + UInt64.ofNat n = j.spans + UInt64.ofNat (n + 1) := by
      intro n
      rw [UInt64.ofNat_add, UInt64.add_assoc, UInt64.add_comm 1]
      rfl
    simp only [propagateTraced_of_debug hdebug, hdebug, countP_recording_debug, hnumber]
  · cases hpass : j.records .pass with
    | true =>
      rw [propagateTraced_of_pass hpass hdebug, recording_of_pass hpass hdebug]
      rfl
    | false =>
      have hnone : j.spans + UInt64.ofNat 0 = j.spans := UInt64.add_zero _
      rw [propagateTraced_of_not_records hpass, recording_of_not_records hpass]
      simp only [List.countP_nil, hnone, List.foldl_nil]
      rfl

/-! ### Reading a trace -/

private theorem WellFormed.map_ofPoint?_points (hg : g.WellFormed) (time : Moment) (span : UInt64) :
    (g.points time span).map Write.ofPoint? = g.close.2.map some := by
  refine Journal.map_pointsFrom ?_ span
  intro w hw e _ _ _ hname hdetail
  exact Write.ofPoint?_eq_some (hg.legible_close w hw) hname hdetail

private theorem WellFormed.filterMap_ofPoint?_points (hg : g.WellFormed) (time : Moment) (span : UInt64) :
    (g.points time span).filterMap Write.ofPoint? = g.close.2 := by
  calc (g.points time span).filterMap Write.ofPoint?
    _ = ((g.points time span).map Write.ofPoint?).filterMap id := by rw [List.filterMap_map, Function.id_comp]
    _ = g.close.2 := by rw [hg.map_ofPoint?_points, List.filterMap_map, Function.id_comp, List.filterMap_some]

private theorem countP_name_points {text : String} {q : Write → Bool} (h : ∀ w : Write, decide (w.label = text) = q w)
    (g : Graph) (time : Moment) (span : UInt64) : (g.points time span).countP (·.name = text) = g.close.2.countP q := by
  have hnames : (g.points time span).map (fun e => decide (e.name = text)) = g.close.2.map q := by
    refine Journal.map_pointsFrom ?_ span
    intro w _ e _ _ _ hname _
    rw [hname, h]
  have hcount := congrArg (List.countP id) hnames
  rwa [List.countP_map, List.countP_map] at hcount

private theorem Write.label_eq_iff (w : Write) :
    decide (w.label = "derive") = w.fresh ∧ decide (w.label = "improve") = !w.fresh := by
  cases h : w.fresh with
  | false => simp [label, h]
  | true => simp [label, h]

/-- The trace of closing a graph that came about by actions tells all that the closure did and nothing else.

Whatever is traced, the closure and its statistics are those of a closure without a trace, and the journal is the one
that is written inside the loops.  It is handed the events of its level, and it takes all of them: the beginning, one
point for each write in the order of the writes, and the end with the statistics; without the points at the levels of
phases and details; nothing at other levels.  Each point is under the span and gives the pair and the kind of its write.
From the points, the writes can be read.  They fit what they find, so that a pair is derived at most once, before any
improvement, and its kinds get better and better; and on the kinds from before, they make the kinds from after. -/
theorem propagateTraced_tells_writes (actions : List Action) (j : Journal) (current : UInt64) :
    let g := history actions
    let span := j.spans + 1
    let events := g.recording j.level j.clock span current
    let points := g.points j.clock span
    let writes := points.filterMap Write.ofPoint?
    g.propagateTraced j current = g.propagateTold j current ∧
    g.propagateTraced j current =
      (g.propagate.1, g.propagate.2,
        (events.foldl Journal.emit j).withSpans (j.spans + UInt64.ofNat (events.countP (·.kind ≠ .spanEnd)))) ∧
    events.all (·.admitted j.level) ∧
    points.map (fun e => (e.kind, e.scope, e.parent, e.name, e.detail)) =
      g.close.2.map (fun w => (.point, .rule, span, w.label, w.detail)) ∧
    points.map Write.ofPoint? = g.close.2.map some ∧
    points.countP (·.name = "derive") = g.propagate.2.derived ∧
    points.countP (·.name = "improve") = g.propagate.2.improved ∧
    Recounts g.kind? writes ∧
    writes.Pairwise (fun w w' => w.pair = w'.pair → w'.fresh = false ∧ w'.kind.code < w.kind.code) ∧
    replay g.kind? writes = g.propagate.1.kind? := by
  intro g span events points writes
  have hg : g.WellFormed := wellFormed_history actions
  have hwrites : writes = g.close.2 := hg.filterMap_ofPoint?_points j.clock span
  obtain ⟨hrecounts, hreplay⟩ := recounted_close g
  rw [hwrites]
  refine ⟨propagateTraced_eq_propagateTold g j current, propagateTraced_eq g j current, ?_, map_points g j.clock span,
    hg.map_ofPoint?_points j.clock span, ?_, ?_, hrecounts, hrecounts.pairwise, hreplay⟩
  · rw [List.all_eq_true]
    exact fun e he => admitted_of_mem_recording he
  · exact countP_name_points (fun w => w.label_eq_iff.1) g j.clock span
  · exact countP_name_points (fun w => w.label_eq_iff.2) g j.clock span

end

/-- Two ways from the first type to the last, the worse one found first. -/
def twoDetours : List Action :=
  [.insert ⟨⟨0⟩, ⟨1⟩⟩ .lossy, .insert ⟨⟨0⟩, ⟨2⟩⟩ .promote, .insert ⟨⟨1⟩, ⟨3⟩⟩ .promote, .insert ⟨⟨2⟩, ⟨3⟩⟩ .safe]

private theorem writes_twoDetours :
    (history twoDetours).close.2 = [⟨⟨⟨0⟩, ⟨3⟩⟩, .lossy, true⟩, ⟨⟨⟨0⟩, ⟨3⟩⟩, .safe, false⟩] := by
  have hsorted : (history twoDetours).sortedNodes = [⟨0⟩, ⟨1⟩, ⟨2⟩, ⟨3⟩] := List.mergeSort_of_pairwise (by decide)
  have hlookup : (history twoDetours).lookup? = fun p => (inForce twoDetours p).map fun k => { kind := k } :=
    funext (lookup?_history_of_not_mem (by decide))
  rw [close_eq_sweep, hsorted, hlookup]
  decide

private theorem recording_twoDetours :
    (history twoDetours).recording .debug ⟨0, 0, 0⟩ 1 7 =
      [{ time := ⟨0, 0, 0⟩, kind := .spanBegin, scope := .pass, span := 1, parent := 7, thread := 1
         name := "propagate" },
       { time := ⟨0, 0, 0⟩, kind := .point, scope := .rule, span := 2, parent := 1, thread := 1
         name := "derive", detail := "T0->T3 unsafe" },
       { time := ⟨0, 0, 0⟩, kind := .point, scope := .rule, span := 3, parent := 1, thread := 1
         name := "improve", detail := "T0->T3 safe" },
       { time := ⟨0, 0, 0⟩, kind := .spanEnd, scope := .pass, span := 1, parent := 7, thread := 1
         name := "propagate", notes := [("derived", "1"), ("improved", "1"), ("nodes", "4")] }] := by
  simp only [recording, points, ending, propagate, closeStats, writes_twoDetours]
  rfl

/-- The pair of the first type and the last is derived and then improved: four events, three of which take a number. -/
theorem propagateTraced_twoDetours :
    ((history twoDetours).propagateTraced (.ofRing .debug 8) 7).2.2 =
      (((history twoDetours).recording .debug ⟨0, 0, 0⟩ 1 7).foldl Journal.emit (.ofRing .debug 8)).withSpans 3 ∧
    replay (history twoDetours).kind? [⟨⟨⟨0⟩, ⟨3⟩⟩, .lossy, true⟩, ⟨⟨⟨0⟩, ⟨3⟩⟩, .safe, false⟩] =
      (history twoDetours).propagate.1.kind? := by
  obtain ⟨-, hjournal, -, -, -, -, -, -, -, hreplay⟩ := propagateTraced_tells_writes twoDetours (.ofRing .debug 8) 7
  constructor
  · have hnumbers : ((history twoDetours).recording .debug ⟨0, 0, 0⟩ 1 7).countP (·.kind ≠ .spanEnd) = 3 := by
      rw [recording_twoDetours]
      decide
    rw [hjournal]
    exact congrArg (fun n => (((history twoDetours).recording .debug ⟨0, 0, 0⟩ 1 7).foldl Journal.emit
      (.ofRing .debug 8)).withSpans (0 + UInt64.ofNat n)) hnumbers
  · rwa [(wellFormed_history twoDetours).filterMap_ofPoint?_points, writes_twoDetours] at hreplay

end Coercion.Graph
