import Coercion.Proofs.CompatTable.Records
import Coercion.Selection

/-!
# The life of a manager

Calls to a manager register kinds, freeze it, or ask something.  A call can do three things to the manager: enter one
record, freeze it, or nothing at all (`perform_cases`), and a call that is refused does nothing.

So whatever the calls, the table holds the registrations that succeeded, in order (`table_run`), the manager is frozen
exactly from the first call to freeze on (`frozen_run_iff`), and a frozen manager stays as it is (`run_of_frozen`).
-/

namespace Coercion.Manager

/-! ### Calls -/

/-- What a manager can be asked. -/
inductive Question where
  | frozen
  | compatible (p : Pair)
  /-- Whether a pair is registered as exactly this kind. -/
  | converts (p : Pair) (k : Kind)
  | select (args : Signature) (overloads : List Signature) (allowLossy : Bool)
  | selectFlat (args : Signature) (flat : List TypeId) (count : Int) (allowLossy : Bool)
  | rate (args : Signature) (overloads : List Signature) (allowLossy : Bool)
  | rateArguments (args params : Signature) (allowLossy : Bool)
  | records
  | stats

/-- What a call gives back. -/
inductive Answer where
  | done
  | flag (b : Bool)
  | kind (k : Kind)
  | selection (s : Selection)
  | ratings (rs : List Rating)
  /-- One rating per argument, or none when some position rejects the candidate. -/
  | positions (rs : Option (List Rating))
  | records (rs : List Record)
  /-- The statistics, or the bin that words do not count. -/
  | stats (s : Except CompatTable.Overflow CompatTable.Stats)

/-- Answers a question. -/
def answer (m : Manager) : Question → Except Fault Answer
  | .frozen => .ok (.flag m.frozen)
  | .compatible p => (m.compatible p).map .kind
  | .converts p k => (m.compatible p).map fun k' => .flag (k' == k)
  | .select args overloads allowLossy => (m.select args overloads allowLossy).map .selection
  | .selectFlat args flat count allowLossy => (m.selectFlat args flat count allowLossy).map .selection
  | .rate args overloads allowLossy => (m.rate args overloads allowLossy).map .ratings
  | .rateArguments args params allowLossy => (m.rateArguments args params allowLossy).map .positions
  | .records => .ok (.records m.table.records)
  | .stats => .ok (.stats m.table.tally)

/-- A call to a manager.  Promotions, safe and lossy conversions are registrations of their kinds. -/
inductive Call where
  | register (p : Pair) (k : Kind)
  | freeze
  | ask (q : Question)

/-- What a call gives back, and the manager after it. -/
def perform (m : Manager) : Call → Except Fault Answer × Manager
  | .register p k =>
    match m.add p k with
    | .ok m' => (.ok .done, m')
    | .error f => (.error f, m)
  | .freeze => (.ok .done, m.freeze)
  | .ask q => (m.answer q, m)

/-- The manager after some calls, made one after the other. -/
def run (m : Manager) (calls : List Call) : Manager := calls.foldl (fun m c => (m.perform c).2) m

/-- The record that a call enters, if it is a registration that succeeds. -/
def record? (m : Manager) : Call → Option Record
  | .register p k => if (m.perform (.register p k)).1.isOk then some ⟨p, k⟩ else none
  | _ => none

/-- The registrations that succeed among some calls, in order. -/
def registered (m : Manager) : List Call → List Record
  | [] => []
  | c :: calls => (m.record? c).toList ++ (m.perform c).2.registered calls

variable {m : Manager} {p : Pair} {k : Kind} {f : Fault}

/-! ### One call -/

/-- Why a registration is refused: the source is checked first, then the target, then that the manager is open. -/
private theorem add_eq_error_iff :
    m.add p k = .error f ↔
      (p.source.valid = false ∧ f = .invalidType p.source) ∨
      (p.source.valid = true ∧ p.target.valid = false ∧ f = .invalidType p.target) ∨
      (p.source.valid = true ∧ p.target.valid = true ∧ m.frozen = true ∧ f = .frozen) := by
  unfold add requireValid
  cases p.source.valid <;> cases p.target.valid <;> cases m.frozen <;> simp [bind, Except.bind, eq_comm]

/-- All that a call can do to the manager. -/
theorem perform_cases (m : Manager) (c : Call) :
    (∃ p k, c = .register p k ∧ p.source.valid = true ∧ p.target.valid = true ∧ m.frozen = false ∧
      m.record? c = some ⟨p, k⟩ ∧ m.perform c = (.ok .done, { m with table := m.table.insert p k })) ∨
    (c = .freeze ∧ m.record? c = none ∧ m.perform c = (.ok .done, m.freeze)) ∨
    (c ≠ .freeze ∧ m.record? c = none ∧ (m.perform c).2 = m) := by
  cases c with
  | freeze => exact Or.inr (Or.inl ⟨rfl, rfl, rfl⟩)
  | ask q => exact Or.inr (Or.inr ⟨by simp, rfl, rfl⟩)
  | register p k =>
    by_cases hopen : p.source.valid = true ∧ p.target.valid = true ∧ m.frozen = false
    · obtain ⟨hs, ht, hfrozen⟩ := hopen
      have hperform : m.perform (.register p k) = (.ok .done, { m with table := m.table.insert p k }) := by
        simp only [perform, add_eq_ok hfrozen hs ht]
      exact Or.inl ⟨p, k, rfl, hs, ht, hfrozen, by simp only [record?, hperform]; rfl, hperform⟩
    · have herror : ∃ f, m.add p k = .error f := by
        simp only [add_eq_error_iff]
        cases hs : p.source.valid <;> cases ht : p.target.valid <;> cases hf : m.frozen <;> simp_all
      obtain ⟨f, hadd⟩ := herror
      have hperform : m.perform (.register p k) = (.error f, m) := by simp only [perform, hadd]
      exact Or.inr (Or.inr ⟨by simp, by simp only [record?, hperform]; rfl, by rw [hperform]⟩)

/-- A call that is refused leaves the manager as it is. -/
private theorem perform_of_error {c : Call} (h : (m.perform c).1 = .error f) : (m.perform c).2 = m := by
  obtain ⟨p, k, -, -, -, -, -, hperform⟩ | ⟨-, -, hperform⟩ | ⟨-, -, hsame⟩ := m.perform_cases c
  · rw [hperform] at h
    cases h
  · rw [hperform] at h
    cases h
  · exact hsame

private theorem fst_perform_register_eq_error_iff :
    (m.perform (.register p k)).1 = .error f ↔ m.add p k = .error f := by
  simp only [perform]
  cases m.add p k <;> simp

private theorem table_perform (m : Manager) (c : Call) :
    (m.perform c).2.table = (m.record? c).toList.foldl (fun t r => t.insert r.pair r.kind) m.table := by
  obtain ⟨p, k, -, -, -, -, hrecord, hperform⟩ | ⟨-, hrecord, hperform⟩ | ⟨-, hrecord, hsame⟩ := m.perform_cases c
  · rw [hrecord, hperform]
    rfl
  · rw [hrecord, hperform]
    rfl
  · rw [hrecord, hsame]
    rfl

private theorem frozen_perform_iff (m : Manager) (c : Call) :
    (m.perform c).2.frozen = true ↔ m.frozen = true ∨ c = .freeze := by
  obtain ⟨p, k, rfl, -, -, hopen, -, hperform⟩ | ⟨rfl, -, hperform⟩ | ⟨hne, -, hsame⟩ := m.perform_cases c
  · simp [hperform, hopen]
  · simp [hperform, freeze]
  · simp [hsame, hne]

private theorem freeze_of_frozen (h : m.frozen = true) : m.freeze = m := by
  obtain ⟨table, frozen⟩ := m
  simp only at h
  rw [h]
  rfl

private theorem perform_of_frozen (h : m.frozen = true) (c : Call) : (m.perform c).2 = m := by
  obtain ⟨p, k, -, -, -, hopen, -, -⟩ | ⟨-, -, hperform⟩ | ⟨-, -, hsame⟩ := m.perform_cases c
  · simp [h] at hopen
  · rw [hperform]
    exact freeze_of_frozen h
  · exact hsame

/-! ### Many calls -/

/-- The table holds what was registered with success, in order. -/
theorem table_run (m : Manager) (calls : List Call) :
    (m.run calls).table = (m.registered calls).foldl (fun t r => t.insert r.pair r.kind) m.table := by
  induction calls generalizing m with
  | nil => rfl
  | cons c calls ih =>
    rw [registered, List.foldl_append, ← table_perform]
    exact ih (m.perform c).2

theorem frozen_run_iff (m : Manager) (calls : List Call) :
    (m.run calls).frozen = true ↔ m.frozen = true ∨ .freeze ∈ calls := by
  induction calls generalizing m with
  | nil => simp [run]
  | cons c calls ih =>
    have hrun : m.run (c :: calls) = (m.perform c).2.run calls := rfl
    rw [hrun, ih, frozen_perform_iff, List.mem_cons, or_assoc, @eq_comm _ c]

theorem run_of_frozen (h : m.frozen = true) (calls : List Call) : m.run calls = m := by
  induction calls with
  | nil => rfl
  | cons c calls ih =>
    have hrun : m.run (c :: calls) = (m.perform c).2.run calls := rfl
    rw [hrun, perform_of_frozen h, ih]

private theorem table_run_empty (calls : List Call) :
    (run {} calls).table = CompatTable.ofRecords (registered {} calls) := table_run {} calls

private theorem compatible_run {calls : List Call} (hs : p.source.valid = true) (ht : p.target.valid = true) :
    (run {} calls).compatible p =
      .ok (if p.source = p.target then .exact else (Record.last? (registered {} calls) p).getD .noMatch) := by
  rw [compatible_eq_ok _ hs ht, kindOf, table_run_empty, CompatTable.find, CompatTable.lookup?_ofRecords]

/-- A manager from its making on, whatever is called.  A refused call changes nothing, and a registration is refused for
an invalid type or once the manager is frozen.  It is frozen from the first call to freeze on.  A type stands in for
itself exactly; for two types the last registration that succeeded counts, and it is the one that is listed.  Once
frozen, the manager answers every question the same for good. -/
theorem run_answers_last_registration (calls : List Call) :
    let m := run {} calls
    let rs := registered {} calls
    (∀ c f, (m.perform c).1 = .error f → (m.perform c).2 = m) ∧
    (∀ p k, (∃ f, (m.perform (.register p k)).1 = .error f) ↔
      p.source.valid = false ∨ p.target.valid = false ∨ .freeze ∈ calls) ∧
    (m.frozen = true ↔ .freeze ∈ calls) ∧ m.freeze.freeze = m.freeze ∧
    (∀ p, p.source.valid = true → p.target.valid = true → m.compatible p =
      .ok (if p.source = p.target then .exact else (Record.last? rs p).getD .noMatch)) ∧
    (∀ p k, ⟨p, k⟩ ∈ m.table.records ↔ Record.last? rs p = some k) ∧
    (.freeze ∈ calls → ∀ later, m.run later = m ∧ ∀ q, (m.run later).answer q = m.answer q) := by
  intro m rs
  have hfrozen : m.frozen = true ↔ .freeze ∈ calls := by
    rw [frozen_run_iff]
    simp
  refine ⟨fun c f => perform_of_error, fun p k => ?_, hfrozen, rfl, fun p => compatible_run, fun p k => ?_, ?_⟩
  · simp only [fst_perform_register_eq_error_iff, add_eq_error_iff, hfrozen]
    cases p.source.valid <;> cases p.target.valid <;> simp
  · show _ ∈ (run {} calls).table.records ↔ _
    rw [table_run_empty]
    exact CompatTable.mem_records
  · intro hcall later
    have hsame := run_of_frozen (hfrozen.2 hcall) later
    exact ⟨hsame, fun q => by rw [hsame]⟩

/-- A pair is registered twice and a type for itself, with an invalid type and a question about it in between; then the
manager is frozen, and one more registration is tried. -/
def frozenLate : List Call :=
  [.register ⟨⟨0⟩, ⟨1⟩⟩ .promote, .register ⟨⟨-1⟩, ⟨1⟩⟩ .safe, .register ⟨⟨0⟩, ⟨0⟩⟩ .lossy,
    .ask (.compatible ⟨⟨0⟩, ⟨-1⟩⟩), .register ⟨⟨0⟩, ⟨1⟩⟩ .safe, .freeze, .register ⟨⟨0⟩, ⟨1⟩⟩ .lossy]

/-- Three of the five registrations succeed, and the last of these tells the kind of its pair, then and later. -/
theorem run_frozenLate :
    registered {} frozenLate = [⟨⟨⟨0⟩, ⟨1⟩⟩, .promote⟩, ⟨⟨⟨0⟩, ⟨0⟩⟩, .lossy⟩, ⟨⟨⟨0⟩, ⟨1⟩⟩, .safe⟩] ∧
      (run {} frozenLate).compatible ⟨⟨0⟩, ⟨1⟩⟩ = .ok .safe ∧ (run {} frozenLate).compatible ⟨⟨0⟩, ⟨0⟩⟩ = .ok .exact ∧
      ⟨⟨⟨0⟩, ⟨0⟩⟩, .lossy⟩ ∈ (run {} frozenLate).table.records ∧
      ∀ later q, ((run {} frozenLate).run later).answer q = (run {} frozenLate).answer q := by
  have hregistered : registered {} frozenLate =
      [⟨⟨⟨0⟩, ⟨1⟩⟩, .promote⟩, ⟨⟨⟨0⟩, ⟨0⟩⟩, .lossy⟩, ⟨⟨⟨0⟩, ⟨1⟩⟩, .safe⟩] := rfl
  obtain ⟨-, -, -, -, hcompatible, hrecords, hlater⟩ := run_answers_last_registration frozenLate
  rw [hregistered] at hcompatible hrecords
  refine ⟨hregistered, hcompatible ⟨⟨0⟩, ⟨1⟩⟩ (by decide) (by decide), hcompatible ⟨⟨0⟩, ⟨0⟩⟩ (by decide) (by decide),
    (hrecords _ _).2 (by decide), fun later => ?_⟩
  exact (hlater (by simp [frozenLate]) later).2

end Coercion.Manager
