import Coercion.Proofs.Universe.Aliases
import Coercion.Proofs.Universe.Meaning

/-!
# Which tables are built

A table is sound when all its declarations can be made: types have new names and there are identifiers for them,
aliases lead to declared types, and rules are accepted in each of their directions.  A table is sound if and only if
its declarations leave no error behind (`Table.sound_iff`).

The bag of a table has room for the first problems only, and warnings take room like errors do.  So a table is built
if it is sound, and also if warnings fill the bag before the first error (`Universe.built_iff_sound_or_filled`).
-/

namespace Coercion

/-! ### Types -/

namespace Registry

variable {r : Registry} {name : String} {names : List String}

/-- Types that can be declared one after the other: their names are new and different, and identifiers suffice. -/
structure Declarable (r : Registry) (names : List String) : Prop where
  nonempty : ∀ name ∈ names, normalize name ≠ ""
  new : ∀ name ∈ names, normalize name ∉ r.index
  distinct : (names.map normalize).Nodup
  size_le : r.size + names.length ≤ typeLimit

private theorem declarable_nil (hr : r.size ≤ typeLimit) : r.Declarable [] :=
  ⟨by simp, by simp, by simp, by simpa using hr⟩

/-- The first type is declared, and the others can be declared after it. -/
private theorem declarable_cons_iff {t : TypeId} {r' : Registry} (h : r.declare name = .ok (t, r')) :
    r.Declarable (name :: names) ↔ r'.Declarable names := by
  obtain ⟨hname, hnew, hlt⟩ := exists_declare_eq_ok_iff.1 ⟨t, r', h⟩
  obtain ⟨-, -, hnames, hindex⟩ := declare_eq_ok h
  have hsize : r'.size = r.size + 1 := by simp [size, hnames]
  have hmem : ∀ n, n ∈ r'.index ↔ n = normalize name ∨ n ∈ r.index := by
    intro n
    rw [hindex, Std.HashMap.mem_insert, beq_iff_eq, eq_comm]
  constructor
  · rintro ⟨hnonempty, hnew', hdistinct, hle⟩
    rw [List.map_cons, List.nodup_cons] at hdistinct
    rw [List.length_cons] at hle
    refine ⟨fun n hn => hnonempty n (List.mem_cons_of_mem _ hn), fun n hn hin => ?_, hdistinct.2, by omega⟩
    rcases (hmem _).1 hin with heq | hin
    · exact hdistinct.1 (heq ▸ List.mem_map_of_mem hn)
    · exact hnew' n (List.mem_cons_of_mem _ hn) hin
  · rintro ⟨hnonempty, hnew', hdistinct, hle⟩
    refine ⟨List.forall_mem_cons.2 ⟨hname, hnonempty⟩, List.forall_mem_cons.2 ⟨hnew, fun n hn hin => ?_⟩, ?_,
      by rw [List.length_cons]; omega⟩
    · exact hnew' n hn ((hmem _).2 (Or.inr hin))
    · rw [List.map_cons, List.nodup_cons]
      refine ⟨fun hin => ?_, hdistinct⟩
      obtain ⟨n, hn, heq⟩ := List.mem_map.1 hin
      exact hnew' n hn ((hmem _).2 (Or.inl heq))

/-- Every type is declared if and only if the names are new and different and identifiers suffice. -/
private theorem declareTypes_eq_nil_iff (hr : r.WellFormed) (i : Nat) :
    (r.declareTypes i names).2 = [] ↔ r.Declarable names := by
  induction names generalizing r i with
  | nil => simp [declareTypes, declarable_nil hr.size_le]
  | cons name names ih =>
    unfold declareTypes
    cases h : r.declare name with
    | ok tr => exact (ih (hr.declare h) (i + 1)).trans (declarable_cons_iff h).symm
    | error e =>
      refine ⟨fun hnil => absurd hnil (List.cons_ne_nil _ _), fun hd => ?_⟩
      have hle := hd.size_le
      rw [List.length_cons] at hle
      obtain ⟨t, r', hok⟩ := exists_declare_eq_ok_iff.2
        ⟨hd.nonempty name List.mem_cons_self, hd.new name List.mem_cons_self, by omega⟩
      rw [h] at hok
      cases hok

private theorem isError_declareTypes (r : Registry) (i : Nat) (names : List String) :
    ∀ d ∈ (r.declareTypes i names).2, d.severity.isError = true := by
  induction names generalizing r i with
  | nil => simp [declareTypes]
  | cons name names ih =>
    unfold declareTypes
    cases r.declare name with
    | ok tr => exact ih _ _
    | error e => exact List.forall_mem_cons.2 ⟨rfl, ih _ _⟩

end Registry

/-! ### Rules -/

private theorem Graph.not_isError_declare_iff (g : Graph) (subject : String) {p : Pair} {k : Kind} :
    (∀ d ∈ (g.declare subject p k).2, d.severity.isError = false) ↔ refusal? p k = none := by
  refine ⟨fun h => ?_, g.not_isError_declare subject⟩
  by_contra hrefused
  obtain ⟨e, he⟩ := Option.ne_none_iff_exists'.1 hrefused
  have hdeclare : (g.declare subject p k).2 = [.error .badRule subject e.message] := by
    simp only [declare, insert, he]
  rw [hdeclare] at h
  cases h _ List.mem_cons_self

private theorem Graph.WellFormed.declare {g : Graph} (hg : g.WellFormed) (subject : String) (p : Pair) (k : Kind) :
    (g.declare subject p k).1.WellFormed := by
  rw [declare_fst]
  exact hg.perform _

namespace Registry

variable {r : Registry} {rule : Rule}

/-- A rule that is not accepted leaves an error behind. -/
private theorem accepts_of_not_isError {i : Nat} {g : Graph}
    (h : ∀ d ∈ (r.declareRule i rule g).2, d.severity.isError = false) : r.Accepts rule := by
  unfold declareRule at h
  simp only at h
  cases hp : r.pairOf rule with
  | error e =>
    rw [hp] at h
    cases h _ List.mem_cons_self
  | ok p =>
    cases hk : Kind.parse rule.kind with
    | error e =>
      simp only [hp, hk] at h
      cases h _ List.mem_cons_self
    | ok k =>
      simp only [hp, hk] at h
      by_cases hrev : rule.reverse = ""
      · rw [if_pos hrev, Graph.not_isError_declare_iff] at h
        exact ⟨p, k, hp, hk, h, fun hne => absurd hrev hne⟩
      · rw [if_neg hrev] at h
        cases hk' : Kind.parse rule.reverse with
        | error e =>
          simp only [hk', List.forall_mem_append] at h
          cases h.2 _ List.mem_cons_self
        | ok k' =>
          simp only [hk', List.forall_mem_append, Graph.not_isError_declare_iff] at h
          exact ⟨p, k, hp, hk, h.1, fun _ => ⟨k', hk', h.2⟩⟩

private theorem not_isError_declareRules_iff {rules : List Rule} (i : Nat) (g : Graph) :
    (∀ d ∈ (r.declareRules i rules g).2, d.severity.isError = false) ↔ ∀ rule ∈ rules, r.Accepts rule := by
  refine ⟨fun h => ?_, fun h => (declareRules_of_accepts h i g).2.1⟩
  induction rules generalizing i g with
  | nil => simp
  | cons rule rules ih =>
    simp only [declareRules, List.forall_mem_append] at h
    exact List.forall_mem_cons.2 ⟨accepts_of_not_isError h.1, ih _ _ h.2⟩

/-- What declaring one direction keeps, between types that names lead to, all rules keep. -/
private theorem declareRules_induction {P : Graph → Prop} {g : Graph}
    (hP : ∀ g subject p k, (∃ a, r.lookup a = .ok p.source) → (∃ b, r.lookup b = .ok p.target) → P g →
      P (g.declare subject p k).1) (hg : P g) (i : Nat) (rules : List Rule) : P (r.declareRules i rules g).1 := by
  induction rules generalizing i g with
  | nil => exact hg
  | cons rule rules ih =>
    refine ih ?_ (i + 1)
    show P (r.declareRule i rule g).1
    unfold declareRule
    simp only
    split
    · exact hg
    · rename_i p hp
      obtain ⟨ha, hb⟩ := pairOf_eq_ok hp
      have hforth := fun subject k => hP g subject p k ⟨_, ha⟩ ⟨_, hb⟩ hg
      split
      · exact hg
      · split
        · exact hforth _ _
        · split
          · exact hforth _ _
          · exact hP _ _ p.reverse _ ⟨_, hb⟩ ⟨_, ha⟩ (hforth _ _)

end Registry

/-! ### Tables -/

namespace Table

/-- All declarations of the table can be made. -/
structure Sound (t : Table) : Prop where
  types : Registry.empty.Declarable t.types
  aliases : (Registry.empty.declareTypes 0 t.types).1.Bindable t.aliases
  rules : ∀ rule ∈ t.rules, t.declare.registry.Accepts rule

/-- How many warnings the declarations leave behind before the first error. -/
def leadingWarnings (t : Table) : Nat := (t.declare.problems.takeWhile fun d => !d.severity.isError).length

private theorem Sound.accepted {t : Table} (h : t.Sound) : t.Accepted where
  types := (Registry.declareTypes_eq_nil_iff Registry.wellFormed_empty 0).2 h.types
  aliases := Registry.declareAliases_eq_nil_iff.2 h.aliases
  rules := h.rules

/-- A table is sound if and only if its declarations leave no error behind. -/
theorem sound_iff (t : Table) : t.Sound ↔ ∀ d ∈ t.declare.problems, d.severity.isError = false := by
  refine ⟨fun h => h.accepted.not_isError, fun h => ?_⟩
  have hnil : ∀ {ds : List Diagnostic}, (∀ d ∈ ds, d.severity.isError = true) → ds ⊆ t.declare.problems → ds = [] := by
    intro ds hds hsub
    refine List.eq_nil_iff_forall_not_mem.2 fun d hd => ?_
    have hno := h d (hsub hd)
    rw [hds d hd] at hno
    cases hno
  refine ⟨?_, ?_, ?_⟩
  · rw [← Registry.declareTypes_eq_nil_iff Registry.wellFormed_empty 0]
    exact hnil (Registry.isError_declareTypes _ _ _) fun d hd =>
      List.mem_append_left _ (List.mem_append_left _ hd)
  · rw [← Registry.declareAliases_eq_nil_iff]
    exact hnil (Registry.isError_declareAliases _ _) fun d hd =>
      List.mem_append_left _ (List.mem_append_right _ hd)
  · exact (Registry.not_isError_declareRules_iff 0 .empty).1 fun d hd => h d (List.mem_append_right _ hd)

theorem wellFormed_graph (t : Table) : t.declare.graph.WellFormed :=
  Registry.declareRules_induction (fun _ _ _ _ _ _ hg => hg.declare _ _ _) Graph.wellFormed_empty 0 t.rules

/-- The types of the graph have names. -/
theorem mem_types_of_mem_nodes (t : Table) : ∀ x ∈ t.declare.graph.nodes, x ∈ t.declare.registry.types := by
  have hr := t.numbered_registry
  refine (Registry.declareRules_induction
    (P := fun g => g.WellFormed ∧ ∀ x ∈ g.nodes, x ∈ t.declare.registry.types) ?_
    ⟨Graph.wellFormed_empty, ?_⟩ 0 t.rules).2
  · rintro g subject p k ⟨a, ha⟩ ⟨b, hb⟩ ⟨hg, htypes⟩
    refine ⟨hg.declare subject p k, fun x hx => ?_⟩
    rw [Graph.declare_fst] at hx
    rcases hg.mem_nodes_perform_insert.1 hx with ⟨-, rfl | rfl⟩ | hx
    · exact hr.mem_types_of_lookup hb
    · exact hr.mem_types_of_lookup ha
    · exact htypes x hx
  · intro x hx
    cases hx

end Table

/-! ### The bag of a table -/

private theorem Bag.capacity_add (b : Bag) (d : Diagnostic) : (b.add d).capacity = b.capacity := by
  unfold Bag.add
  split <;> rfl

/-- An element with a property is among the first `n` if and only if fewer than `n` elements come before it. -/
private theorem any_take_iff {α : Type} (p : α → Bool) (l : List α) (n : Nat) :
    (l.take n).any p = true ↔ l.any p = true ∧ (l.takeWhile fun a => !p a).length < n := by
  induction l generalizing n with
  | nil => simp
  | cons a l ih =>
    cases n with
    | zero => simp
    | succ n => cases ha : p a <;> simp_all

theorem Bag.exists_errorText?_eq_some {b : Bag} (h : b.hasErrors = true) : ∃ errors, b.errorText? = some errors := by
  rw [Bag.hasErrors, ← Array.any_toList, List.any_eq_true] at h
  obtain ⟨d, hd, herror⟩ := h
  have hmem : d ∈ b.items.toList.filter (·.severity.isError) := List.mem_filter.2 ⟨hd, herror⟩
  have hne : ((b.items.toList.filter (·.severity.isError)).map Diagnostic.render).isEmpty = false := by
    rw [List.isEmpty_eq_false_iff_exists_mem]
    exact ⟨_, List.mem_map_of_mem hmem⟩
  simp only [Bag.errorText?, hne]
  exact ⟨_, rfl⟩

namespace Universe

open Registry (normalize declareTypes declare empty size declareAliases pairOf)

/-- A bag keeps the first problems that it has room for. -/
theorem toList_collect (b : Bag) (problems : List Diagnostic) :
    (collect b problems).items.toList = b.items.toList ++ problems.take (b.capacity.toNat - b.size) := by
  unfold collect
  induction problems generalizing b with
  | nil => simp
  | cons d problems ih =>
    rw [List.foldl_cons, ih, Bag.capacity_add]
    by_cases hroom : b.size < b.capacity.toNat
    · obtain ⟨n, hn⟩ : ∃ n, b.capacity.toNat - b.size = n + 1 := ⟨b.capacity.toNat - b.size - 1, by omega⟩
      have hadd : b.add d = { b with items := b.items.push d } := by simp [Bag.add, Bag.hasRoom, hroom]
      have hsize : b.capacity.toNat - (b.add d).size = n := by
        simp only [hadd, Bag.size, Array.size_push] at hn ⊢
        omega
      rw [hsize, hn, hadd]
      simp
    · have hadd : b.add d = b := by simp [Bag.add, Bag.hasRoom, hroom]
      have hfull : b.capacity.toNat - b.size = 0 := by omega
      rw [hadd, hfull]
      simp

/-- How many problems the bag of a table can hold. -/
def Options.room (o : Options) : Nat := if o.maxDiagnostics ≤ 0 then 64 else min o.maxDiagnostics.toNat 65535

theorem toNat_capacity_ofCapacity (o : Options) : (Bag.ofCapacity o.capacity).capacity.toNat = o.room := by
  unfold Options.capacity Options.room Bag.ofCapacity Bag.capacity?
  split
  · rfl
  · split
    · simp only [Option.getD_some, UInt16.toNat_ofNat', Nat.reducePow]
      omega
    · simp only [Option.getD_none, UInt16.reduceToNat]
      omega

private theorem hasErrors_bag_iff (t : Table) (o : Options) :
    (collect (.ofCapacity o.capacity) t.declare.problems).hasErrors = true ↔
      ¬t.Sound ∧ t.leadingWarnings < o.room := by
  have hitems := toList_collect (.ofCapacity o.capacity) t.declare.problems
  rw [toNat_capacity_ofCapacity] at hitems
  have hempty : (Bag.ofCapacity o.capacity).items = #[] := rfl
  rw [Bag.hasErrors, ← Array.any_toList, hitems, t.sound_iff, Bag.size, hempty]
  simp only [List.nil_append, List.size_toArray, List.length_nil, Nat.sub_zero, any_take_iff]
  simp [Table.leadingWarnings]

/-! ### Building -/

private theorem exists_result_eq_ok_iff (t : Table) (o : Options) (j : Trace.Journal) (current : UInt64) :
    (∃ u, (buildTraced t o j current).result = .ok u) ↔
      (collect (.ofCapacity o.capacity) t.declare.problems).hasErrors = false := by
  constructor
  · rintro ⟨u, hu⟩
    by_contra hbag
    rw [Bool.not_eq_false] at hbag
    simp only [buildTraced, hbag, if_true] at hu
    cases hu
  · intro hbag
    obtain ⟨u, hu, -⟩ := exists_result_eq_ok_of_bag t.wellFormed_graph hbag j current
    exact ⟨u, hu⟩

/-- What a universe is made of, however it was built. -/
theorem of_result_eq_ok {t : Table} {o : Options} {j : Trace.Journal} {current : UInt64} {u : Universe}
    (hu : (buildTraced t o j current).result = .ok u) :
    u.registry = t.declare.registry ∧ u.manager.table = .ofRecords (closedGraph o t.declare.graph).registrations := by
  have hbag := (exists_result_eq_ok_iff t o j current).1 ⟨u, hu⟩
  obtain ⟨u', hu', hmade⟩ := exists_result_eq_ok_of_bag t.wellFormed_graph hbag j current
  rw [hu] at hu'
  cases hu'
  exact hmade

private theorem exists_result_eq_invalid_iff (t : Table) (o : Options) (j : Trace.Journal) (current : UInt64) :
    (∃ errors, (buildTraced t o j current).result = .error (.invalid t.name errors) ∧
      (buildTraced t o j current).bag.errorText? = some errors) ↔
      (collect (.ofCapacity o.capacity) t.declare.problems).hasErrors = true := by
  constructor
  · rintro ⟨errors, herrors, -⟩
    by_contra hbag
    rw [Bool.not_eq_true] at hbag
    obtain ⟨u, hu, -⟩ := exists_result_eq_ok_of_bag t.wellFormed_graph hbag j current
    rw [hu] at herrors
    cases herrors
  · intro hbag
    obtain ⟨errors, herrors⟩ := Bag.exists_errorText?_eq_some hbag
    refine ⟨errors, ?_, ?_⟩
    · simp only [buildTraced, hbag, if_true, herrors, Option.getD_some]
    · simp only [buildTraced, hbag, if_true, herrors]

/-- A table is built if and only if it is sound or warnings fill its bag before the first error; otherwise it is
refused with the errors in the bag. -/
theorem built_iff_sound_or_filled (t : Table) (o : Options) (j : Trace.Journal) (current : UInt64) :
    ((∃ u, (buildTraced t o j current).result = .ok u) ↔ t.Sound ∨ o.room ≤ t.leadingWarnings) ∧
      ((∃ errors, (buildTraced t o j current).result = .error (.invalid t.name errors) ∧
        (buildTraced t o j current).bag.errorText? = some errors) ↔ ¬t.Sound ∧ t.leadingWarnings < o.room) := by
  rw [exists_result_eq_ok_iff, exists_result_eq_invalid_iff, ← Bool.not_eq_true, hasErrors_bag_iff]
  refine ⟨?_, Iff.rfl⟩
  rw [not_and_or, not_not, Nat.not_lt]

/-! ### A rule that follows a warning -/

/-- The second rule overrides the first, and the third names a type that nobody declared. -/
def unknownAfterWarning : Table where
  name := "t"
  types? := some ["a", "b"]
  rules? := some [⟨"a", "b", "promote", ""⟩, ⟨"a", "b", "safe", ""⟩, ⟨"a", "c", "promote", ""⟩]

private theorem problems_unknownAfterWarning :
    ∃ w e, unknownAfterWarning.declare.problems = [w, e] ∧ w.severity.isError = false ∧ e.severity.isError = true := by
  obtain ⟨ha, hb, hc, -⟩ := normalize_letters
  obtain ⟨hpromote, hsafe, -⟩ := parse_kinds
  refine ⟨.warning .shadowedRule ("rules[1] a->b") ("overrides an earlier rule, now " ++ Kind.safe.name),
    .error .unknownType ("rules[2] a->c") (Registry.Refusal.unknown "c").message, ?_, rfl, rfl⟩
  simp [unknownAfterWarning, Table.types, Table.aliases, Table.rules, Table.declare, declareTypes, declare, empty, size,
    TypeId.ofInt, declareAliases, Aliasing.run, Registry.declareRules, Registry.declareRule, pairOf, Registry.lookup,
    ha, hb, hc, hpromote, hsafe, Std.HashMap.getElem_insert, Graph.declare, Graph.insert, Graph.refusal?,
    Graph.isDeclared, Graph.lookup?, Graph.empty, Kind.isConversion, TypeId.valid]
  -- what is left are the subjects of the two rules
  exact ⟨rfl, rfl⟩

/-- With room for one problem the table is built although it is not sound; with more room it is refused. -/
theorem build_hides_error_behind_warning :
    (∃ u, (build unknownAfterWarning { maxDiagnostics := 1 }).1 = .ok u) ∧ ¬unknownAfterWarning.Sound ∧
      ∃ errors, (build unknownAfterWarning {}).1 = .error (.invalid "t" errors) := by
  obtain ⟨w, e, hproblems, hw, he⟩ := problems_unknownAfterWarning
  have hunsound : ¬unknownAfterWarning.Sound := by
    rw [Table.sound_iff, hproblems]
    intro h
    have hno := h e (by simp)
    rw [he] at hno
    cases hno
  have hleading : unknownAfterWarning.leadingWarnings = 1 := by simp [Table.leadingWarnings, hproblems, hw, he]
  refine ⟨?_, hunsound, ?_⟩
  · refine (exists_result_eq_ok_iff _ _ .silent 0).2 ?_
    rw [← Bool.not_eq_true, hasErrors_bag_iff, hleading]
    exact fun h => absurd h.2 (by decide)
  · have hbag := (hasErrors_bag_iff unknownAfterWarning {}).2 ⟨hunsound, by rw [hleading]; decide⟩
    obtain ⟨errors, herrors, -⟩ := (exists_result_eq_invalid_iff _ _ .silent 0).2 hbag
    exact ⟨errors, herrors⟩

end Universe

end Coercion
