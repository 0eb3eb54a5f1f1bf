import Coercion.Proofs.Trace.Newest

/-!
# Spans and points as events

A span or a point that is recorded takes the next number and hands one event to the sinks.  The numbers of a journal do
not matter to its sinks (`foldl_emit_withSpans`), so a row of points is a row of events and as many numbers taken
(`foldl_point_of_records`).  Passes are recorded from the level of phases on, single rules at the level of debugging
only (`records_pass_iff`, `records_rule_iff`).
-/

namespace Coercion.Trace.Journal

variable {j : Journal} {scope : Scope} {parent : UInt64}

/-! ### Numbers -/

/-- A journal that has given the span number `n` last. -/
def withSpans (j : Journal) (n : UInt64) : Journal := { j with spans := n }

theorem withSpans_withSpans (j : Journal) (m n : UInt64) : (j.withSpans m).withSpans n = j.withSpans n := rfl

theorem emit_withSpans (j : Journal) (n : UInt64) (e : Event) : (j.withSpans n).emit e = (j.emit e).withSpans n := by
  have hlevel : (j.withSpans n).level = j.level := rfl
  unfold emit
  rw [hlevel]
  cases e.admitted j.level with
  | false => rfl
  | true => rfl

theorem foldl_emit_withSpans (j : Journal) (n : UInt64) (events : List Event) :
    events.foldl emit (j.withSpans n) = (events.foldl emit j).withSpans n := by
  induction events generalizing j with
  | nil => rfl
  | cons e events ih => rw [List.foldl_cons, emit_withSpans, ih, List.foldl_cons]

theorem clock_emit (j : Journal) (e : Event) : (j.emit e).clock = j.clock := by
  unfold emit
  split
  · rfl
  · rfl

theorem clock_foldl_emit (j : Journal) (events : List Event) : (events.foldl emit j).clock = j.clock := by
  induction events generalizing j with
  | nil => rfl
  | cons e events ih => rw [List.foldl_cons, ih, clock_emit]

/-! ### Levels -/

theorem records_pass_iff : j.records .pass = true ↔ j.level = .phase ∨ j.level = .detail ∨ j.level = .debug := by
  unfold records enabled
  cases j.level <;> decide

theorem records_rule_iff : j.records .rule = true ↔ j.level = .debug := by
  unfold records enabled
  cases j.level <;> decide

private theorem records_withSpans_emit (j : Journal) (e : Event) (n : UInt64) (scope : Scope) :
    ((j.emit e).withSpans n).records scope = j.records scope := by
  have hlevel : ((j.emit e).withSpans n).level = j.level := level_emit j e
  simp only [records, enabled, hlevel]

/-! ### Events -/

theorem beginSpan_of_records (h : j.records scope = true) (name : String) (parent : UInt64) :
    j.beginSpan scope name parent =
      (⟨j.spans + 1, parent, scope, name, [], true⟩,
        (j.emit { time := j.clock, kind := .spanBegin, scope, span := j.spans + 1, parent, thread, name }).withSpans
          (j.spans + 1)) := by
  unfold beginSpan
  rw [if_pos h, ← emit_withSpans]
  rfl

theorem beginSpan_of_not_records (h : j.records scope = false) (name : String) (parent : UInt64) :
    j.beginSpan scope name parent = ({}, j) := by
  unfold beginSpan
  rw [if_neg (by simp [h])]

private theorem point_of_records (h : j.records scope = true) (name detail : String) (parent : UInt64) :
    j.point scope name detail parent =
      (j.emit { time := j.clock, kind := .point, scope, span := j.spans + 1, parent, thread, name, detail }).withSpans
        (j.spans + 1) := by
  unfold point
  rw [if_pos h, ← emit_withSpans]
  rfl

private theorem point_of_not_records (h : j.records scope = false) (name detail : String) (parent : UInt64) :
    j.point scope name detail parent = j := by
  unfold point
  rw [if_neg (by simp [h])]

variable {α : Type} {name detail : α → String}

/-- One point under a parent for each of some items, with the numbers that follow on `span`. -/
def pointsFrom (time : Moment) (scope : Scope) (parent : UInt64) (name detail : α → String) (span : UInt64) :
    List α → List Event
  | [] => []
  | x :: xs =>
    { time, kind := .point, scope, span := span + 1, parent, thread, name := name x, detail := detail x } ::
      pointsFrom time scope parent name detail (span + 1) xs

theorem length_pointsFrom (time : Moment) (span : UInt64) (xs : List α) :
    (pointsFrom time scope parent name detail span xs).length = xs.length := by
  induction xs generalizing span with
  | nil => rfl
  | cons x xs ih => rw [pointsFrom, List.length_cons, List.length_cons, ih]

/-- A property of a point that its number does not touch can be told from its item. -/
theorem map_pointsFrom {β : Type} {f : Event → β} {g : α → β} {xs : List α} {time : Moment}
    (h : ∀ x ∈ xs, ∀ e : Event, e.kind = .point → e.scope = scope → e.parent = parent → e.name = name x →
      e.detail = detail x → f e = g x) (span : UInt64) :
    (pointsFrom time scope parent name detail span xs).map f = xs.map g := by
  induction xs generalizing span with
  | nil => rfl
  | cons x xs ih =>
    rw [pointsFrom, List.map_cons, List.map_cons, ih (fun y hy => h y (List.mem_cons_of_mem _ hy))]
    congr 1
    exact h x List.mem_cons_self _ rfl rfl rfl rfl rfl

theorem foldl_point_of_records (h : j.records scope = true) (xs : List α) :
    xs.foldl (fun j x => j.point scope (name x) (detail x) parent) j =
      ((pointsFrom j.clock scope parent name detail j.spans xs).foldl emit j).withSpans
        (j.spans + UInt64.ofNat xs.length) := by
  induction xs generalizing j with
  | nil =>
    have hzero : j.spans + UInt64.ofNat 0 = j.spans := UInt64.add_zero _
    rw [List.foldl_nil, pointsFrom, List.foldl_nil, List.length_nil, hzero]
    rfl
  | cons x xs ih =>
    have hstill : ∀ e, ((j.emit e).withSpans (j.spans + 1)).records scope = true := fun e => by
      rw [records_withSpans_emit, h]
    have hclock : ∀ e, ((j.emit e).withSpans (j.spans + 1)).clock = j.clock := clock_emit j
    have hspans : ∀ e, ((j.emit e).withSpans (j.spans + 1)).spans = j.spans + 1 := fun _ => rfl
    have hnumber : j.spans + 1 + UInt64.ofNat xs.length = j.spans + UInt64.ofNat (xs.length + 1) := by
      rw [UInt64.ofNat_add, UInt64.add_assoc, UInt64.add_comm 1]
      rfl
    rw [List.foldl_cons, point_of_records h, ih (hstill _), hclock, hspans, hnumber, foldl_emit_withSpans,
      withSpans_withSpans, pointsFrom, List.foldl_cons, List.length_cons]

theorem foldl_point_of_not_records (h : j.records scope = false) (xs : List α) :
    xs.foldl (fun j x => j.point scope (name x) (detail x) parent) j = j := by
  induction xs with
  | nil => rfl
  | cons x xs ih => rw [List.foldl_cons, point_of_not_records h, ih]

end Coercion.Trace.Journal
