import Coercion.Proofs.Universe.Aliases
import Mathlib.Data.Fintype.Pigeonhole
import Mathlib.Data.Set.Finite.List
import Mathlib.Logic.Relation

/-!
# Chains of aliases

An alias leads from its name to the name of its target, and so from name to name along a chain.  There are finitely
many aliases, so a chain stops or runs into a cycle (`exists_stop_or_circles`), and if the names of the aliases are new
and different, it leads to a declared type, to a name that nobody declared, or into a cycle, and to only one of these
(`NewNames.not_leadsTo_iff`).

Binding the aliases finds out which (`declareAliases_follows_chains`).  The aliases that are bound lead to declared
types because each was bound after its target (`leadsTo_of_addAliases`).  Those that are reported do not
(`NewNames.not_grounded`).
-/

open Relation (ReflTransGen TransGen)

namespace Coercion

namespace Registry

variable {r r' : Registry} {aliases : List (String × String)} {n m : String} {t u : TypeId}

/-! ### Chains -/

/-- An alias leads from its name to the name of its target. -/
def Follows (aliases : List (String × String)) (n m : String) : Prop :=
  ∃ a ∈ aliases, normalize a.1 = n ∧ normalize a.2 = m

/-- The chain from a name leads to a declared type. -/
def LeadsTo (r : Registry) (aliases : List (String × String)) (n : String) (t : TypeId) : Prop :=
  ∃ e, ReflTransGen (Follows aliases) n e ∧ r.index[e]? = some t

/-- The chain from a name stops at a name that is neither declared nor an alias. -/
def DeadEnds (r : Registry) (aliases : List (String × String)) (n : String) : Prop :=
  ∃ e, ReflTransGen (Follows aliases) n e ∧ e ∉ r.index ∧ ∀ m, ¬Follows aliases e m

/-- The chain from a name runs into a cycle. -/
def Circles (aliases : List (String × String)) (n : String) : Prop :=
  ∃ c, ReflTransGen (Follows aliases) n c ∧ TransGen (Follows aliases) c c

private theorem follows_of_mem {a : String × String} (ha : a ∈ aliases) :
    Follows aliases (normalize a.1) (normalize a.2) :=
  ⟨a, ha, rfl, rfl⟩

private theorem Follows.mono {aliases' : List (String × String)} (h : Follows aliases n m) (hsub : aliases ⊆ aliases') :
    Follows aliases' n m := by
  obtain ⟨a, ha, hn, hm⟩ := h
  exact ⟨a, hsub ha, hn, hm⟩

private theorem path_mono {aliases' : List (String × String)} (hsub : aliases ⊆ aliases')
    (h : ReflTransGen (Follows aliases) n m) : ReflTransGen (Follows aliases') n m :=
  h.lift id fun _ _ hstep => Follows.mono hstep hsub

private theorem LeadsTo.mono {aliases' : List (String × String)} (h : LeadsTo r aliases n t)
    (hsub : aliases ⊆ aliases') :
    LeadsTo r aliases' n t := by
  obtain ⟨e, hpath, he⟩ := h
  exact ⟨e, path_mono hsub hpath, he⟩

private theorem mem_index_iff : n ∈ r.index ↔ ∃ t, r.index[n]? = some t := by
  rw [Std.HashMap.mem_iff_isSome_getElem?, Option.isSome_iff_exists]

private theorem grounded_iff : Grounded r aliases n ↔ ∃ t, LeadsTo r aliases n t := by
  constructor
  · intro h
    induction h with
    | declared hn =>
      obtain ⟨t, ht⟩ := mem_index_iff.1 hn
      exact ⟨t, _, .refl, ht⟩
    | through ha _ ih =>
      obtain ⟨t, e, hpath, he⟩ := ih
      exact ⟨t, e, .head (follows_of_mem ha) hpath, he⟩
  · rintro ⟨t, e, hpath, he⟩
    induction hpath using ReflTransGen.head_induction_on with
    | refl => exact .declared (mem_index_iff.2 ⟨t, he⟩)
    | head hstep _ ih =>
      obtain ⟨a, ha, rfl, rfl⟩ := hstep
      exact .through ha ih

/-- A chain that never stops comes back to one of the finitely many names that it can visit. -/
theorem exists_stop_or_circles (aliases : List (String × String)) (n : String) :
    (∃ e, ReflTransGen (Follows aliases) n e ∧ ∀ m, ¬Follows aliases e m) ∨ Circles aliases n := by
  by_contra hnone
  push Not at hnone
  obtain ⟨hstop, hcircle⟩ := hnone
  -- every name that is reached has a next one: walk on, and use that only finitely many names have
  choose! next hnext using hstop
  have hreached : ∀ k, ReflTransGen (Follows aliases) n (next^[k] n) := by
    intro k
    induction k with
    | zero => exact .refl
    | succ k ih =>
      rw [Function.iterate_succ_apply']
      exact ih.tail (hnext _ ih)
  have hlater : ∀ i k, TransGen (Follows aliases) (next^[i] n) (next^[i + k + 1] n) := by
    intro i k
    induction k with
    | zero =>
      rw [Nat.add_zero, Function.iterate_succ_apply']
      exact .single (hnext _ (hreached i))
    | succ k ih =>
      rw [← Nat.add_assoc, Function.iterate_succ_apply']
      exact ih.tail (hnext _ (hreached _))
  have hnames : ∀ k, next^[k] n ∈ aliases.map fun a => normalize a.1 := by
    intro k
    obtain ⟨a, ha, hname, -⟩ := hnext _ (hreached k)
    exact List.mem_map.2 ⟨a, ha, hname⟩
  have hfinite : Finite { x // x ∈ aliases.map fun a => normalize a.1 } := List.finite_toSet _
  obtain ⟨i, j, hne, heq⟩ := Finite.exists_ne_map_eq_of_infinite
    fun k : ℕ => (⟨next^[k] n, hnames k⟩ : { x // x ∈ aliases.map fun a => normalize a.1 })
  replace heq : next^[i] n = next^[j] n := congrArg Subtype.val heq
  wlog hlt : i < j generalizing i j
  · exact this j i hne.symm heq.symm (by omega)
  obtain ⟨k, rfl⟩ := Nat.exists_eq_add_of_lt hlt
  have hcycle := hlater i k
  rw [← heq] at hcycle
  exact hcircle ⟨_, hreached i, hcycle⟩

namespace NewNames

private theorem not_follows (h : r.NewNames aliases) (hn : n ∈ r.index) : ¬Follows aliases n m := by
  rintro ⟨a, ha, rfl, -⟩
  exact h.new a ha hn

private theorem follows_unique {m' : String} (h : r.NewNames aliases) (hm : Follows aliases n m)
    (hm' : Follows aliases n m') : m = m' := by
  obtain ⟨a, ha, hname, rfl⟩ := hm
  obtain ⟨b, hb, hname', rfl⟩ := hm'
  rw [h.eq_of_name ha hb (hname.trans hname'.symm)]

private theorem leadsTo_iff_of_follows (h : r.NewNames aliases) (hstep : Follows aliases n m) :
    LeadsTo r aliases n t ↔ LeadsTo r aliases m t := by
  constructor
  · rintro ⟨e, hpath, he⟩
    rcases hpath.cases_head with rfl | ⟨m', hstep', hpath'⟩
    · exact absurd hstep (h.not_follows (mem_index_iff.2 ⟨t, he⟩))
    · rw [h.follows_unique hstep hstep']
      exact ⟨e, hpath', he⟩
  · rintro ⟨e, hpath, he⟩
    exact ⟨e, .head hstep hpath, he⟩

private theorem leadsTo_iff_of_path (h : r.NewNames aliases) (hpath : ReflTransGen (Follows aliases) n m) :
    LeadsTo r aliases n t ↔ LeadsTo r aliases m t := by
  induction hpath with
  | refl => rfl
  | tail _ hstep ih => rw [ih, h.leadsTo_iff_of_follows hstep]

private theorem leadsTo_unique (h : r.NewNames aliases) (ht : LeadsTo r aliases n t) (hu : LeadsTo r aliases n u) :
    t = u := by
  obtain ⟨e, hpath, he⟩ := ht
  obtain ⟨e', hpath', he'⟩ := (h.leadsTo_iff_of_path hpath).1 hu
  rcases hpath'.cases_head with rfl | ⟨m, hstep, -⟩
  · exact Option.some.inj (he.symm.trans he')
  · exact absurd hstep (h.not_follows (mem_index_iff.2 ⟨t, he⟩))

/-- A chain that leads to a declared type does not come back to its start. -/
private theorem not_cycle_of_leadsTo (h : r.NewNames aliases) (ht : LeadsTo r aliases n t) :
    ¬TransGen (Follows aliases) n n := by
  obtain ⟨e, hpath, he⟩ := ht
  induction hpath using ReflTransGen.head_induction_on with
  | refl =>
    intro hcycle
    obtain ⟨m, hstep, -⟩ := TransGen.head'_iff.1 hcycle
    exact h.not_follows (mem_index_iff.2 ⟨t, he⟩) hstep
  | head hstep _ ih =>
    intro hcycle
    obtain ⟨m, hstep', hrest⟩ := TransGen.head'_iff.1 hcycle
    obtain rfl := h.follows_unique hstep hstep'
    exact ih (TransGen.tail' hrest hstep)

/-- A chain that leads to no declared type runs into a cycle or stops at a name that nobody declared. -/
theorem not_leadsTo_iff (h : r.NewNames aliases) :
    (¬∃ t, LeadsTo r aliases n t) ↔ Circles aliases n ∨ DeadEnds r aliases n := by
  constructor
  · intro hnone
    rcases exists_stop_or_circles aliases n with ⟨e, hpath, hstop⟩ | hcircles
    · refine Or.inr ⟨e, hpath, fun he => hnone ?_, hstop⟩
      obtain ⟨t, ht⟩ := mem_index_iff.1 he
      exact ⟨t, e, hpath, ht⟩
    · exact Or.inl hcircles
  · rintro (⟨c, hpath, hcycle⟩ | ⟨e, hpath, hunknown, hstop⟩) ⟨t, ht⟩
    · exact h.not_cycle_of_leadsTo ((h.leadsTo_iff_of_path hpath).1 ht) hcycle
    · obtain ⟨e', hpath', he'⟩ := (h.leadsTo_iff_of_path hpath).1 ht
      rcases hpath'.cases_head with rfl | ⟨m, hstep, -⟩
      · exact hunknown (mem_index_iff.2 ⟨t, he'⟩)
      · exact hstop m hstep

end NewNames

/-! ### Aliases that are bound -/

/-- A name that resolves after some aliases have been bound leads to its type. -/
theorem leadsTo_of_addAliases {bound : List (String × String)} (h : r.addAliases bound = .ok r')
    (hn : r'.index[n]? = some t) : LeadsTo r bound n t := by
  induction bound generalizing r with
  | nil =>
    rw [addAliases_nil, Except.ok.injEq] at h
    exact ⟨n, .refl, h ▸ hn⟩
  | cons a rest ih =>
    obtain ⟨r₁, hadd, hrest⟩ := addAliases_cons_eq_ok h
    obtain ⟨-, u, hu, hindex⟩ := addAlias_eq_ok hadd
    obtain ⟨e, hpath, he⟩ := ih hrest
    have hpath' : ReflTransGen (Follows (a :: rest)) n e := path_mono (List.subset_cons_self a rest) hpath
    rw [hindex, Std.HashMap.getElem?_insert] at he
    split at he
    · rename_i hname
      obtain rfl := eq_of_beq hname
      refine ⟨normalize a.2, hpath'.tail (follows_of_mem List.mem_cons_self), ?_⟩
      rw [hu, he]
    · exact ⟨e, hpath', he⟩

private theorem mem_index_of_addAliases {bound : List (String × String)} (h : r.addAliases bound = .ok r') :
    ∀ n, n ∈ r'.index ↔ n ∈ r.index ∨ ∃ a ∈ bound, normalize a.1 = n := by
  induction bound generalizing r with
  | nil =>
    rw [addAliases_nil, Except.ok.injEq] at h
    simp [h]
  | cons a rest ih =>
    obtain ⟨r₁, hadd, hrest⟩ := addAliases_cons_eq_ok h
    intro n
    rw [ih hrest n, mem_index_addAlias hadd n, or_comm (a := n = normalize a.1), or_assoc, eq_comm (a := n)]
    simp only [List.mem_cons, exists_eq_or_imp]

end Registry

/-! ### Aliases that are reported -/

namespace Aliasing

/-- The number of reports of an alias. -/
def reportCount (a : String × String) (ds : List Diagnostic) : Nat :=
  ds.countP fun d => d.code = .badAlias ∧ d.subject = "aliases." ++ a.1

private theorem reportCount_eq {refused : List (String × String)} {ds : List Diagnostic}
    (h : List.Forall₂ Reports refused ds) (a : String × String) :
    reportCount a ds = (refused.map Prod.fst).count a.1 := by
  induction h with
  | nil => rfl
  | cons hone _ ih =>
    unfold reportCount at ih ⊢
    rw [List.countP_cons, ih, List.map_cons, List.count_cons]
    simp [hone.code, hone.subject, String.append_right_inj]

private theorem exists_report {refused : List (String × String)} {ds : List Diagnostic}
    (h : List.Forall₂ Reports refused ds) : ∀ a ∈ refused, ∃ d ∈ ds, Reports a d := by
  induction h with
  | nil => simp
  | cons hone _ ih =>
    refine List.forall_mem_cons.2 ⟨⟨_, List.mem_cons_self, hone⟩, fun a ha => ?_⟩
    obtain ⟨d, hd, hreports⟩ := ih a ha
    exact ⟨d, List.mem_cons_of_mem _ hd, hreports⟩

/-- What comes of some aliases after a number of passes. -/
def outcome (passes : Nat) (r : Registry) (aliases : List (String × String)) : Registry × List Diagnostic :=
  let sorted := aliases.mergeSort fun a b => a.1 ≤ b.1
  let s := run passes sorted { registry := r, unsettled := (sorted.map fun a => Registry.normalize a.1).eraseDups }
  (s.registry, s.problems)

/-- More passes than aliases change nothing. -/
private theorem run_eq_run {fuel fuel' : Nat} {pending : List (String × String)} (h : pending.length < fuel)
    (h' : pending.length < fuel') (s : Aliasing) : run fuel pending s = run fuel' pending s := by
  induction fuel generalizing fuel' pending s with
  | zero => omega
  | succ fuel ih =>
    obtain ⟨fuel', rfl⟩ := Nat.exists_eq_succ_of_ne_zero (Nat.ne_of_gt (Nat.zero_lt_of_lt h'))
    by_cases hpending : pending = []
    · subst hpending
      rfl
    · rw [run_succ hpending, run_succ hpending]
      simp only
      split
      · rfl
      · rename_i hprogress
        have hle := length_waiting_foldl_bind_le { s with waiting := [] } pending
        simp only [List.length_nil, Nat.zero_add] at hle
        exact ih (by omega) (by omega) _

private theorem outcome_eq {passes : Nat} {r : Registry} {aliases : List (String × String)}
    (h : aliases.length < passes) :
    outcome passes r aliases = r.declareAliases aliases := by
  unfold outcome Registry.declareAliases
  have hlength : (aliases.mergeSort fun a b => decide (a.1 ≤ b.1)).length = aliases.length := List.length_mergeSort _
  simp only
  rw [run_eq_run (by rw [hlength]; exact h) (Nat.lt_succ_self _)]

end Aliasing

/-! ### All aliases -/

namespace Registry

open Aliasing (reportCount)

variable {r : Registry} {aliases bound refused : List (String × String)} {a : String × String}

/-- An alias is reported once if it is refused, and not at all if it is bound. -/
private theorem reportCount_of_settled {ds : List Diagnostic} (hkeys : (aliases.map Prod.fst).Nodup)
    (hperm : (bound ++ refused).Perm aliases) (hreports : List.Forall₂ Aliasing.Reports refused ds)
    (ha : a ∈ aliases) : (a ∈ bound ∧ reportCount a ds = 0) ∨ (a ∈ refused ∧ a ∉ bound ∧ reportCount a ds = 1) := by
  have hnodup : ((bound ++ refused).map Prod.fst).Nodup := (hperm.map _).nodup_iff.2 hkeys
  rw [List.map_append, List.nodup_append] at hnodup
  obtain ⟨-, hrefused, hdisjoint⟩ := hnodup
  rw [Aliasing.reportCount_eq hreports]
  rcases List.mem_append.1 (hperm.mem_iff.2 ha) with hbound | hin
  · refine Or.inl ⟨hbound, List.count_eq_zero.2 fun hmem => ?_⟩
    exact hdisjoint _ (List.mem_map_of_mem hbound) _ hmem rfl
  · refine Or.inr ⟨hin, fun hbound => ?_, List.count_eq_one_of_mem hrefused (List.mem_map_of_mem hin)⟩
    exact hdisjoint _ (List.mem_map_of_mem hbound) _ (List.mem_map_of_mem hin) rfl

/-- An alias that is bound resolves to the type at the end of its chain. -/
private theorem exists_lookup_of_bound (h : r.addAliases bound = .ok r') (hsub : bound ⊆ aliases) (ha : a ∈ bound) :
    ∃ t, LeadsTo r aliases (normalize a.1) t ∧ r'.lookup a.1 = .ok t := by
  have hmem : normalize a.1 ∈ r'.index := (mem_index_of_addAliases h _).2 (Or.inr ⟨a, ha, rfl⟩)
  obtain ⟨t, ht⟩ := mem_index_iff.1 hmem
  exact ⟨t, (leadsTo_of_addAliases h ht).mono hsub, lookup_eq_ok.2 ht⟩

/-- An alias that is refused, although the names of the aliases are new and different, leads to no type. -/
private theorem NewNames.not_leadsTo_of_refused (hn : r.NewNames aliases)
    (hreports : List.Forall₂ Aliasing.Reports refused (r.declareAliases aliases).2) (ha : a ∈ aliases)
    (hrefused : a ∈ refused) : ¬∃ t, LeadsTo r aliases (normalize a.1) t := by
  obtain ⟨d, hd, hreport⟩ := Aliasing.exists_report hreports a hrefused
  obtain ⟨b, hb, hnot, hreport'⟩ := hn.not_grounded d hd
  have hname : a.1 = b.1 := by
    rw [← String.append_right_inj "aliases.", ← hreport.subject, hreport'.subject]
  obtain rfl := hn.eq_of_name ha hb (congrArg normalize hname)
  rintro ⟨t, ht⟩
  exact hnot (grounded_iff.2 ⟨t, (hn.leadsTo_iff_of_follows (follows_of_mem ha)).1 ht⟩)

/-- Aliases are settled after finitely many passes, and each is bound by its own entry or reported once.  None is
reported if and only if their names are new and different and the chain of each leads to a declared type, and then each
resolves to this type.  If their names are new and different, those are reported whose chain runs into a cycle or stops
at a name that nobody declared, and the others resolve to the types at the ends of their chains. -/
theorem declareAliases_follows_chains (r : Registry) (aliases : List (String × String))
    (hkeys : (aliases.map Prod.fst).Nodup) :
    let after := r.declareAliases aliases
    (∀ passes, aliases.length < passes → Aliasing.outcome passes r aliases = after) ∧
    (∃ bound ⊆ aliases, r.addAliases bound = .ok after.1 ∧
      ∀ a ∈ aliases, reportCount a after.2 = if a ∈ bound then 0 else 1) ∧
    (∀ d ∈ after.2, ∃ a ∈ aliases, Aliasing.Reports a d) ∧
    (after.2 = [] ↔ r.NewNames aliases ∧ ∀ a ∈ aliases, ∃ t, LeadsTo r aliases (normalize a.1) t) ∧
    (after.2 = [] → ∀ a ∈ aliases, ∀ t, LeadsTo r aliases (normalize a.1) t → after.1.lookup a.1 = .ok t) ∧
    (r.NewNames aliases → ∀ a ∈ aliases,
      (reportCount a after.2 = 1 ↔ Circles aliases (normalize a.1) ∨ DeadEnds r aliases (normalize a.1)) ∧
      (reportCount a after.2 = 0 → ∃ t, LeadsTo r aliases (normalize a.1) t ∧ after.1.lookup a.1 = .ok t)) := by
  intro after
  obtain ⟨bound, refused, hbound, hreports, hperm⟩ := r.exists_settles_declareAliases aliases
  have hsub : bound ⊆ aliases := fun a ha => hperm.subset (List.mem_append_left _ ha)
  have hcases : ∀ a ∈ aliases, _ := fun a => reportCount_of_settled hkeys hperm hreports
  have hchains : r.NewNames aliases → ∀ a ∈ aliases,
      (reportCount a after.2 = 1 ↔ ¬∃ t, LeadsTo r aliases (normalize a.1) t) ∧
      (reportCount a after.2 = 0 → ∃ t, LeadsTo r aliases (normalize a.1) t ∧ after.1.lookup a.1 = .ok t) := by
    intro hn a ha
    rcases hcases a ha with ⟨hin, hcount⟩ | ⟨hin, -, hcount⟩
    · obtain ⟨t, ht, hlookup⟩ := exists_lookup_of_bound hbound hsub hin
      exact ⟨by rw [hcount]; simpa using ⟨t, ht⟩, fun _ => ⟨t, ht, hlookup⟩⟩
    · have hnot := hn.not_leadsTo_of_refused hreports ha hin
      exact ⟨by rw [hcount]; simpa using hnot, fun hzero => by rw [hcount] at hzero; cases hzero⟩
  have hnil : after.2 = [] ↔ r.NewNames aliases ∧ ∀ a ∈ aliases, ∃ t, LeadsTo r aliases (normalize a.1) t := by
    rw [declareAliases_eq_nil_iff, bindable_iff]
    refine and_congr_right fun hn => forall₂_congr fun a ha => ?_
    rw [grounded_iff]
    exact exists_congr fun t => (hn.leadsTo_iff_of_follows (follows_of_mem ha)).symm
  refine ⟨fun passes => Aliasing.outcome_eq, ⟨bound, hsub, hbound, fun a ha => ?_⟩, fun d hd => ?_, hnil, ?_, ?_⟩
  · rcases hcases a ha with ⟨hin, hcount⟩ | ⟨-, hout, hcount⟩
    · rw [hcount, if_pos hin]
    · rw [hcount, if_neg hout]
  · obtain ⟨a, ha, hreport⟩ := Aliasing.exists_reported hreports d hd
    exact ⟨a, hperm.subset (List.mem_append_right _ ha), hreport⟩
  · intro hnone a ha t ht
    obtain ⟨hn, -⟩ := hnil.1 hnone
    have hzero : reportCount a after.2 = 0 := by rw [hnone]; rfl
    obtain ⟨u, hu, hlookup⟩ := (hchains hn a ha).2 hzero
    rw [hn.leadsTo_unique ht hu]
    exact hlookup
  · intro hn a ha
    obtain ⟨hone, hzero⟩ := hchains hn a ha
    exact ⟨hone.trans hn.not_leadsTo_iff, hzero⟩

/-- A registry with one type. -/
def oneType : Registry := (empty.declareTypes 0 ["int"]).1

/-- A chain whose first alias comes before the one it stands for, a cycle, and a chain to an unknown name. -/
def tangled : List (String × String) := [("a", "b"), ("b", "int"), ("c", "d"), ("d", "c"), ("e", "void")]

private theorem index_oneType : oneType.index = (∅ : Std.HashMap String TypeId).insert "int" ⟨0⟩ := by
  have hint : normalize "int" = "int" := by decide
  simp [oneType, declareTypes, declare, empty, size, TypeId.ofInt, hint]

private theorem normalize_tangled :
    normalize "a" = "a" ∧ normalize "b" = "b" ∧ normalize "c" = "c" ∧ normalize "d" = "d" ∧
    normalize "e" = "e" ∧ normalize "int" = "int" ∧ normalize "void" = "void" := by
  decide

private theorem newNames_tangled : oneType.NewNames tangled := by
  obtain ⟨ha, hb, hc, hd, he, -⟩ := normalize_tangled
  refine ⟨?_, ?_, ?_⟩
  · simp [tangled, ha, hb, hc, hd, he]
  · simp [tangled, index_oneType, ha, hb, hc, hd, he]
  · simp [tangled, ha, hb, hc, hd, he]

private theorem leadsTo_tangled : LeadsTo oneType tangled "a" ⟨0⟩ := by
  obtain ⟨ha, hb, -, -, -, hint, -⟩ := normalize_tangled
  have hstep : Follows tangled "a" "b" := ⟨("a", "b"), by simp [tangled], ha, hb⟩
  have hstep' : Follows tangled "b" "int" := ⟨("b", "int"), by simp [tangled], hb, hint⟩
  exact ⟨"int", .head hstep (.head hstep' .refl), by simp [index_oneType]⟩

private theorem circles_tangled : Circles tangled "c" := by
  obtain ⟨-, -, hc, hd, -⟩ := normalize_tangled
  have hstep : Follows tangled "c" "d" := ⟨("c", "d"), by simp [tangled], hc, hd⟩
  have hstep' : Follows tangled "d" "c" := ⟨("d", "c"), by simp [tangled], hd, hc⟩
  exact ⟨"c", .refl, .head hstep (.single hstep')⟩

/-- The chain is bound to its end, and the cycle is reported. -/
theorem declareAliases_tangled :
    (oneType.declareAliases tangled).1.lookup "a" = .ok ⟨0⟩ ∧
      reportCount ("c", "d") (oneType.declareAliases tangled).2 = 1 := by
  obtain ⟨ha, -, hc, -⟩ := normalize_tangled
  obtain ⟨-, ⟨bound, -, -, hcount⟩, -, -, -, hchains⟩ := declareAliases_follows_chains oneType tangled (by decide)
  have hin : ("a", "b") ∈ tangled := by simp [tangled]
  have hin' : ("c", "d") ∈ tangled := by simp [tangled]
  obtain ⟨hone, hzero⟩ := hchains newNames_tangled _ hin
  have hnot : reportCount ("a", "b") (oneType.declareAliases tangled).2 ≠ 1 := by
    rw [Ne, hone, ← newNames_tangled.not_leadsTo_iff, ha]
    exact fun h => h ⟨_, leadsTo_tangled⟩
  have hnone : reportCount ("a", "b") (oneType.declareAliases tangled).2 = 0 := by
    have := hcount _ hin
    split at this
    · exact this
    · exact absurd this hnot
  obtain ⟨t, ht, hlookup⟩ := hzero hnone
  rw [ha] at ht
  obtain rfl := newNames_tangled.leadsTo_unique ht leadsTo_tangled
  refine ⟨hlookup, (hchains newNames_tangled _ hin').1.2 (Or.inl ?_)⟩
  rw [hc]
  exact circles_tangled

end Registry

end Coercion
