import Coercion.Proofs.Registry.Numbering
import Coercion.Universe.Declaration
import Mathlib.Data.List.Nodup
import Mathlib.Data.List.Perm.Basic

/-!
# Binding aliases

Aliases are bound in passes, and an alias whose target is unknown waits as long as the target may become an alias.
Every alias is bound in the end if and only if the names of the aliases are new and different and each leads to a
declared type (`declareAliases_eq_nil_iff`).

* A run binds some aliases one after the other and reports each of the others once (`exists_settles_run`).  The names
  of those that it binds are new and different and lead to declared types (`bindable_of_addAliases`).
* If the names of all aliases are new and different, an alias that leads to a declared type is never refused
  (`Pending.bind`), and as long as there is one, every pass binds one (`Pending.exists_bound`).
-/

namespace Coercion

open Registry (normalize)

namespace Registry

variable {r r' : Registry} {name target : String}

/-! ### One alias -/

theorem mem_index_addAlias (h : r.addAlias name target = .ok r') (n : String) :
    n ∈ r'.index ↔ n = normalize name ∨ n ∈ r.index := by
  obtain ⟨-, t, -, hindex⟩ := addAlias_eq_ok h
  rw [hindex, Std.HashMap.mem_insert, beq_iff_eq, eq_comm]

/-- An alias with a new name is refused only because its target is unknown. -/
private theorem isUnknown_of_addAlias {e : Refusal} (h : r.addAlias name target = .error e)
    (hname : normalize name ≠ "") (hnew : normalize name ∉ r.index) : e.isUnknown := by
  unfold addAlias at h
  simp only [hname, if_false, Std.HashMap.contains_iff_mem, hnew] at h
  split at h
  · cases h
  · cases h
    rfl

/-- Binds aliases one after the other, up to the first that is refused. -/
def addAliases (r : Registry) (aliases : List (String × String)) : Except Refusal Registry :=
  aliases.foldlM (fun r a => r.addAlias a.1 a.2) r

theorem addAliases_nil (r : Registry) : r.addAliases [] = .ok r := rfl

private theorem addAliases_cons {a : String × String} {aliases : List (String × String)}
    (h : r.addAlias a.1 a.2 = .ok r') :
    r.addAliases (a :: aliases) = r'.addAliases aliases := by
  unfold addAliases
  rw [List.foldlM_cons, h]
  rfl

theorem addAliases_cons_eq_ok {a : String × String} {aliases : List (String × String)}
    (h : r.addAliases (a :: aliases) = .ok r') :
    ∃ r₁, r.addAlias a.1 a.2 = .ok r₁ ∧ r₁.addAliases aliases = .ok r' := by
  cases hadd : r.addAlias a.1 a.2 with
  | error e =>
    unfold addAliases at h
    rw [List.foldlM_cons, hadd] at h
    cases h
  | ok r₁ => exact ⟨r₁, rfl, by rw [← addAliases_cons hadd, h]⟩

private theorem addAliases_append {before after : List (String × String)} (h : r.addAliases before = .ok r') :
    r.addAliases (before ++ after) = r'.addAliases after := by
  unfold addAliases at h ⊢
  rw [List.foldlM_append, h]
  rfl

/-! ### Aliases that can be bound -/

/-- A name leads to a declared type, directly or through aliases. -/
inductive Grounded (r : Registry) (aliases : List (String × String)) : String → Prop
  | declared {n : String} (h : n ∈ r.index) : Grounded r aliases n
  | through {a : String × String} (ha : a ∈ aliases) (h : Grounded r aliases (normalize a.2)) :
    Grounded r aliases (normalize a.1)

/-- The names of the aliases are new and different, and their targets lead to declared types. -/
structure Bindable (r : Registry) (aliases : List (String × String)) : Prop where
  nonempty : ∀ a ∈ aliases, normalize a.1 ≠ ""
  new : ∀ a ∈ aliases, normalize a.1 ∉ r.index
  distinct : (aliases.map fun a => normalize a.1).Nodup
  grounded : ∀ a ∈ aliases, Grounded r aliases (normalize a.2)

private theorem Grounded.mono {aliases aliases' : List (String × String)} {n : String}
    (hr : ∀ n, n ∈ r.index → Grounded r' aliases' n) (haliases : aliases ⊆ aliases') (h : Grounded r aliases n) :
    Grounded r' aliases' n := by
  induction h with
  | declared h => exact hr _ h
  | through ha _ ih => exact .through (haliases ha) ih

/-- The names of the aliases are new and different, whatever they stand for. -/
structure NewNames (r : Registry) (aliases : List (String × String)) : Prop where
  nonempty : ∀ a ∈ aliases, normalize a.1 ≠ ""
  new : ∀ a ∈ aliases, normalize a.1 ∉ r.index
  distinct : (aliases.map fun a => normalize a.1).Nodup

theorem bindable_iff {aliases : List (String × String)} :
    r.Bindable aliases ↔ r.NewNames aliases ∧ ∀ a ∈ aliases, Grounded r aliases (normalize a.2) :=
  ⟨fun h => ⟨⟨h.nonempty, h.new, h.distinct⟩, h.grounded⟩,
    fun h => ⟨h.1.nonempty, h.1.new, h.1.distinct, h.2⟩⟩

private theorem NewNames.perm {aliases aliases' : List (String × String)} (h : r.NewNames aliases)
    (hperm : aliases.Perm aliases') : r.NewNames aliases' where
  nonempty a ha := h.nonempty a (hperm.mem_iff.2 ha)
  new a ha := h.new a (hperm.mem_iff.2 ha)
  distinct := (hperm.map _).nodup_iff.1 h.distinct

/-- An alias is known by its name. -/
theorem NewNames.eq_of_name {aliases : List (String × String)} {a b : String × String} (h : r.NewNames aliases)
    (ha : a ∈ aliases) (hb : b ∈ aliases) (hname : normalize a.1 = normalize b.1) : a = b :=
  List.inj_on_of_nodup_map h.distinct ha hb hname

private theorem Bindable.perm {aliases aliases' : List (String × String)} (h : r.Bindable aliases)
    (hperm : aliases.Perm aliases') : r.Bindable aliases' := by
  obtain ⟨hnames, hgrounded⟩ := bindable_iff.1 h
  exact bindable_iff.2 ⟨hnames.perm hperm, fun a ha =>
    (hgrounded a (hperm.mem_iff.2 ha)).mono (fun _ => .declared) hperm.subset⟩

theorem bindable_of_addAliases {order : List (String × String)} (h : r.addAliases order = .ok r') :
    r.Bindable order := by
  induction order generalizing r with
  | nil => exact ⟨by simp, by simp, by simp, by simp⟩
  | cons a rest ih =>
    obtain ⟨r₁, hadd, hrest⟩ := addAliases_cons_eq_ok h
    obtain ⟨hname, hnew, htarget⟩ := addAlias_eq_ok_iff.1 ⟨r₁, hadd⟩
    have hindex := mem_index_addAlias hadd
    obtain ⟨hnonempty', hnew', hdistinct', hgrounded'⟩ := ih hrest
    refine ⟨List.forall_mem_cons.2 ⟨hname, hnonempty'⟩, List.forall_mem_cons.2 ⟨hnew, ?_⟩, ?_,
      List.forall_mem_cons.2 ⟨.declared htarget, ?_⟩⟩
    · intro b hb hmem
      exact hnew' b hb ((hindex _).2 (Or.inr hmem))
    · rw [List.map_cons, List.nodup_cons]
      refine ⟨?_, hdistinct'⟩
      intro hmem
      obtain ⟨b, hb, heq⟩ := List.mem_map.1 hmem
      exact hnew' b hb ((hindex _).2 (Or.inl heq))
    · intro b hb
      refine (hgrounded' b hb).mono ?_ (List.subset_cons_self a rest)
      intro n hn
      rcases (hindex n).1 hn with rfl | hn
      · exact .through List.mem_cons_self (.declared htarget)
      · exact .declared hn

end Registry

/-! ### What a run does -/

namespace Aliasing

variable {s : Aliasing} {pending : List (String × String)}

/-- An alias that is tried is bound, waits for another alias, or is refused and leaves a problem behind. -/
private theorem bind_cases (s : Aliasing) (a : String × String) :
    (∃ r, s.registry.addAlias a.1 a.2 = .ok r ∧ s.bind a = { s with registry := r }.settle a.1) ∨
    (∃ e, s.registry.addAlias a.1 a.2 = .error e ∧ s.bind a = { s with waiting := s.waiting ++ [a] }) ∨
    (∃ e, s.registry.addAlias a.1 a.2 = .error e ∧ (e.isUnknown → normalize a.2 ∉ s.unsettled) ∧
      s.bind a = { s with problems := s.problems ++ [aliasProblem a.1 e.message] }.settle a.1) := by
  unfold bind
  cases s.registry.addAlias a.1 a.2 with
  | ok r => exact .inl ⟨r, rfl, rfl⟩
  | error e =>
    by_cases h : (e.isUnknown && s.unsettled.contains (normalize a.2)) = true
    · exact .inr (.inl ⟨e, rfl, by simp only [h, if_true]⟩)
    · refine .inr (.inr ⟨e, rfl, ?_, by simp only [h]; rfl⟩)
      intro hunknown hmem
      exact h (by simp [hunknown, hmem])

/-- A pass over some aliases ends the run if all of them wait; otherwise the run goes on with those that do. -/
theorem run_succ {fuel : Nat} (hpending : pending ≠ []) :
    run (fuel + 1) pending s =
      let s' := pending.foldl bind { s with waiting := [] }
      if s'.waiting.length = pending.length then { s' with problems := s'.problems ++ s'.waiting.map cycleProblem }
      else run fuel s'.waiting s' := by
  cases pending with
  | nil => exact absurd rfl hpending
  | cons a rest => rfl

private theorem length_waiting_bind_le (s : Aliasing) (a : String × String) :
    (s.bind a).waiting.length ≤ s.waiting.length + 1 := by
  obtain ⟨r, -, heq⟩ | ⟨e, -, heq⟩ | ⟨e, -, -, heq⟩ := s.bind_cases a
  · simp [heq, settle]
  · simp [heq]
  · simp [heq, settle]

theorem length_waiting_foldl_bind_le (s : Aliasing) (pending : List (String × String)) :
    (pending.foldl bind s).waiting.length ≤ s.waiting.length + pending.length := by
  induction pending generalizing s with
  | nil => simp
  | cons a pending ih =>
    have hrest := ih (s.bind a)
    have hone := s.length_waiting_bind_le a
    rw [List.foldl_cons, List.length_cons]
    omega

/-- A problem is the report of an alias. -/
structure Reports (a : String × String) (d : Diagnostic) : Prop where
  severity : d.severity = .error
  code : d.code = .badAlias
  subject : d.subject = "aliases." ++ a.1

private theorem reports_aliasProblem (a : String × String) (message : String) : Reports a (aliasProblem a.1 message) :=
  ⟨rfl, rfl, rfl⟩

theorem exists_reported {refused : List (String × String)} {ds : List Diagnostic}
    (h : List.Forall₂ Reports refused ds) : ∀ d ∈ ds, ∃ a ∈ refused, Reports a d := by
  induction h with
  | nil => simp
  | cons hone _ ih =>
    refine List.forall_mem_cons.2 ⟨⟨_, List.mem_cons_self, hone⟩, fun d hd => ?_⟩
    obtain ⟨a, ha, hreports⟩ := ih d hd
    exact ⟨a, List.mem_cons_of_mem _ ha, hreports⟩

/-- On the way from `s` to `s'` some aliases are bound, one after the other, and some others are reported once each. -/
structure Settles (s s' : Aliasing) (bound refused : List (String × String)) : Prop where
  registry : s.registry.addAliases bound = .ok s'.registry
  problems : ∃ new, s'.problems = s.problems ++ new ∧ List.Forall₂ Reports refused new

private theorem Settles.trans {s s' s'' : Aliasing} {bound bound' refused refused' : List (String × String)}
    (h : Settles s s' bound refused) (h' : Settles s' s'' bound' refused') :
    Settles s s'' (bound ++ bound') (refused ++ refused') := by
  obtain ⟨new, hnew, hreports⟩ := h.problems
  obtain ⟨new', hnew', hreports'⟩ := h'.problems
  refine ⟨?_, new ++ new', ?_, List.rel_append hreports hreports'⟩
  · rw [Registry.addAliases_append h.registry, h'.registry]
  · rw [hnew', hnew, List.append_assoc]

private theorem exists_settles_bind (s : Aliasing) (a : String × String) :
    ∃ bound refused, Settles s (s.bind a) bound refused ∧
      (bound ++ refused ++ (s.bind a).waiting).Perm (s.waiting ++ [a]) := by
  obtain ⟨r, hadd, heq⟩ | ⟨e, -, heq⟩ | ⟨e, -, -, heq⟩ := s.bind_cases a
  · refine ⟨[a], [], ⟨?_, [], ?_, .nil⟩, ?_⟩
    · rw [Registry.addAliases_cons hadd, heq, Registry.addAliases_nil]
      rfl
    · simp only [heq, settle, List.append_nil]
    · rw [heq]
      exact List.perm_append_comm
  · refine ⟨[], [], ⟨?_, [], ?_, .nil⟩, ?_⟩
    · rw [heq, Registry.addAliases_nil]
    · simp only [heq, List.append_nil]
    · rw [heq]
      exact .refl _
  · refine ⟨[], [a], ⟨?_, [aliasProblem a.1 e.message], ?_, .cons (reports_aliasProblem a _) .nil⟩, ?_⟩
    · rw [heq, Registry.addAliases_nil]
      rfl
    · simp only [heq, settle]
    · rw [heq]
      exact List.perm_append_comm

/-- A pass settles the aliases that do not wait for the next one. -/
private theorem exists_settles_foldl_bind (s : Aliasing) (pending : List (String × String)) :
    ∃ bound refused, Settles s (pending.foldl bind s) bound refused ∧
      (bound ++ refused ++ (pending.foldl bind s).waiting).Perm (s.waiting ++ pending) := by
  induction pending generalizing s with
  | nil => exact ⟨[], [], ⟨rfl, [], by simp, .nil⟩, by simp⟩
  | cons a pending ih =>
    obtain ⟨bound, refused, hone, hperm⟩ := exists_settles_bind s a
    obtain ⟨bound', refused', hrest, hperm'⟩ := ih (s.bind a)
    rw [List.foldl_cons]
    refine ⟨bound ++ bound', refused ++ refused', hone.trans hrest, ?_⟩
    rw [List.perm_iff_count] at hperm hperm' ⊢
    intro b
    have hb := hperm b
    have hb' := hperm' b
    simp only [List.count_append, List.count_cons, List.count_nil] at hb hb' ⊢
    omega

private theorem waiting_subset (s : Aliasing) (pending : List (String × String)) :
    (pending.foldl bind s).waiting ⊆ s.waiting ++ pending := by
  obtain ⟨bound, refused, -, hperm⟩ := exists_settles_foldl_bind s pending
  exact fun a ha => hperm.subset (List.mem_append_right _ ha)

/-- A run settles all aliases. -/
theorem exists_settles_run {fuel : Nat} (hfuel : pending.length < fuel) (s : Aliasing) :
    ∃ bound refused, Settles s (run fuel pending s) bound refused ∧ (bound ++ refused).Perm pending := by
  induction fuel generalizing s pending with
  | zero => omega
  | succ fuel ih =>
    by_cases hpending : pending = []
    · subst hpending
      exact ⟨[], [], ⟨rfl, [], by simp [run], .nil⟩, .nil⟩
    · obtain ⟨bound, refused, hpass, hperm⟩ := exists_settles_foldl_bind { s with waiting := [] } pending
      have hle := length_waiting_foldl_bind_le { s with waiting := [] } pending
      rw [run_succ hpending]
      simp only
      split
      · -- all aliases wait, and each of them is reported
        refine ⟨bound, refused ++ (pending.foldl bind { s with waiting := [] }).waiting, ⟨hpass.registry, ?_⟩, ?_⟩
        · obtain ⟨new, hnew, hreports⟩ := hpass.problems
          refine ⟨new ++ (pending.foldl bind { s with waiting := [] }).waiting.map cycleProblem, ?_, ?_⟩
          · rw [hnew, List.append_assoc]
          · refine List.rel_append hreports (List.forall₂_map_right_iff.2 (List.forall₂_same.2 fun a _ => ?_))
            exact reports_aliasProblem a _
        · rw [← List.append_assoc]
          exact hperm
      · rename_i hprogress
        have hlt : (pending.foldl bind { s with waiting := [] }).waiting.length < fuel := by
          simp only [List.length_nil, Nat.zero_add] at hle
          omega
        obtain ⟨bound', refused', hrest, hperm'⟩ := ih hlt (pending.foldl bind { s with waiting := [] })
        refine ⟨bound ++ bound', refused ++ refused', Settles.trans ⟨hpass.registry, hpass.problems⟩ hrest, ?_⟩
        rw [List.perm_iff_count] at hperm hperm' ⊢
        intro b
        have hb := hperm b
        have hb' := hperm' b
        simp only [List.count_append, List.nil_append] at hb hb' ⊢
        omega

/-! ### A run over aliases with new and different names -/

/-- In the midst of a pass: `rest` is to be tried in this pass, the waiting aliases in the next one.  The others are
bound, or they lead to no declared type and have been reported. -/
structure Pending (r : Registry) (aliases rest : List (String × String)) (s : Aliasing) : Prop where
  subset : s.waiting ++ rest ⊆ aliases
  nodup : (s.waiting ++ rest).Nodup
  known : ∀ n, n ∈ r.index → n ∈ s.registry.index
  bound : ∀ n, n ∈ s.registry.index → n ∈ r.index ∨ ∃ a ∈ aliases, a ∉ s.waiting ++ rest ∧ normalize a.1 = n
  unsettled : ∀ a ∈ s.waiting ++ rest, normalize a.1 ∈ s.unsettled
  grounded : ∀ a ∈ aliases, Registry.Grounded r aliases (normalize a.2) →
    a ∈ s.waiting ++ rest ∨ normalize a.1 ∈ s.registry.index
  problems : ∀ d ∈ s.problems, ∃ a ∈ aliases, ¬Registry.Grounded r aliases (normalize a.2) ∧ Reports a d

namespace Pending

variable {r : Registry} {aliases rest : List (String × String)} {a : String × String}

/-- The name of an alias that is to be bound is not taken. -/
private theorem not_mem_index (hn : r.NewNames aliases) (h : Pending r aliases rest s) (ha : a ∈ s.waiting ++ rest) :
    normalize a.1 ∉ s.registry.index := by
  intro hmem
  rcases h.bound _ hmem with hmem | ⟨b, hb, hnot, heq⟩
  · exact hn.new a (h.subset ha) hmem
  · exact hnot (hn.eq_of_name hb (h.subset ha) heq ▸ ha)

/-- An alias is bound as soon as its target is known. -/
private theorem exists_addAlias (hn : r.NewNames aliases) (h : Pending r aliases rest s) (ha : a ∈ s.waiting ++ rest)
    (htarget : normalize a.2 ∈ s.registry.index) : ∃ r', s.registry.addAlias a.1 a.2 = .ok r' :=
  Registry.addAlias_eq_ok_iff.2 ⟨hn.nonempty a (h.subset ha), h.not_mem_index hn ha, htarget⟩

/-- A name that leads to a declared type is known, or may become an alias. -/
private theorem mem_unsettled (h : Pending r aliases rest s) {n : String} (hn : Registry.Grounded r aliases n)
    (hunknown : n ∉ s.registry.index) : n ∈ s.unsettled := by
  cases hn with
  | declared hn => exact absurd (h.known n hn) hunknown
  | @through b hb hgrounded =>
    rcases h.grounded b hb hgrounded with hwaits | hbound
    · exact h.unsettled b hwaits
    · exact absurd hbound hunknown

/-- An alias that is refused leads to no declared type. -/
private theorem not_grounded {e : Registry.Refusal} (hn : r.NewNames aliases) (h : Pending r aliases rest s)
    (ha : a ∈ s.waiting ++ rest) (hadd : s.registry.addAlias a.1 a.2 = .error e)
    (hrefused : e.isUnknown → normalize a.2 ∉ s.unsettled) : ¬Registry.Grounded r aliases (normalize a.2) := by
  intro hgrounded
  have hunknown : normalize a.2 ∉ s.registry.index := by
    intro hmem
    obtain ⟨r', hok⟩ := h.exists_addAlias hn ha hmem
    rw [hok] at hadd
    cases hadd
  have herror := Registry.isUnknown_of_addAlias hadd (hn.nonempty a (h.subset ha)) (h.not_mem_index hn ha)
  exact hrefused herror (h.mem_unsettled hgrounded hunknown)

private theorem mem_append_cons {b : String × String} : b ∈ s.waiting ++ a :: rest ↔ b = a ∨ b ∈ s.waiting ++ rest := by
  rw [List.perm_middle.mem_iff, List.mem_cons]

/-- Names are different, so the other aliases stay unsettled when one is settled. -/
private theorem unsettled_settle (hn : r.NewNames aliases) (h : Pending r aliases (a :: rest) s) :
    ∀ b ∈ s.waiting ++ rest, normalize b.1 ∈ s.unsettled.filter (· != normalize a.1) := by
  intro b hb
  have ha : a ∈ s.waiting ++ a :: rest := by simp
  have hb' : b ∈ s.waiting ++ a :: rest := mem_append_cons.2 (Or.inr hb)
  have hout : a ∉ s.waiting ++ rest := (List.nodup_cons.1 (List.perm_middle.nodup_iff.1 h.nodup)).1
  have hne : normalize b.1 ≠ normalize a.1 := by
    intro hname
    exact hout (hn.eq_of_name (h.subset hb') (h.subset ha) hname ▸ hb)
  exact List.mem_filter.2 ⟨h.unsettled b hb', by simpa using hne⟩

/-- An alias that is bound is among the others from then on. -/
private theorem bindOne {r' : Registry} (hn : r.NewNames aliases) (h : Pending r aliases (a :: rest) s)
    (hadd : s.registry.addAlias a.1 a.2 = .ok r') :
    Pending r aliases rest ({ s with registry := r' }.settle a.1) := by
  have ha : a ∈ s.waiting ++ a :: rest := by simp
  have hindex := Registry.mem_index_addAlias hadd
  obtain ⟨hout, hnodup⟩ := List.nodup_cons.1 (List.perm_middle.nodup_iff.1 h.nodup)
  refine ⟨fun b hb => h.subset (mem_append_cons.2 (Or.inr hb)), hnodup, fun n hn => ?_, fun n hmem => ?_,
    h.unsettled_settle hn, fun b hb hgrounded => ?_, h.problems⟩
  · exact (hindex n).2 (Or.inr (h.known n hn))
  · rcases (hindex n).1 hmem with rfl | hmem
    · exact Or.inr ⟨a, h.subset ha, hout, rfl⟩
    · rcases h.bound n hmem with hmem | ⟨b, hb, hnot, heq⟩
      · exact Or.inl hmem
      · exact Or.inr ⟨b, hb, fun hin => hnot (mem_append_cons.2 (Or.inr hin)), heq⟩
  · rcases h.grounded b hb hgrounded with hin | hin
    · rcases mem_append_cons.1 hin with rfl | hin
      · exact Or.inr ((hindex _).2 (Or.inl rfl))
      · exact Or.inl hin
    · exact Or.inr ((hindex _).2 (Or.inr hin))

/-- An alias that leads to no declared type may be refused. -/
private theorem refuseOne {d : Diagnostic} (hn : r.NewNames aliases) (h : Pending r aliases (a :: rest) s)
    (hnot : ¬Registry.Grounded r aliases (normalize a.2)) (hd : Reports a d) :
    Pending r aliases rest ({ s with problems := s.problems ++ [d] }.settle a.1) := by
  have ha : a ∈ aliases := h.subset (by simp)
  refine ⟨fun b hb => h.subset (mem_append_cons.2 (Or.inr hb)),
    (List.nodup_cons.1 (List.perm_middle.nodup_iff.1 h.nodup)).2, h.known, fun n hmem => ?_, h.unsettled_settle hn,
    fun b hb hgrounded => ?_, ?_⟩
  · rcases h.bound n hmem with hmem | ⟨b, hb, hnot, heq⟩
    · exact Or.inl hmem
    · exact Or.inr ⟨b, hb, fun hin => hnot (mem_append_cons.2 (Or.inr hin)), heq⟩
  · rcases h.grounded b hb hgrounded with hin | hin
    · rcases mem_append_cons.1 hin with rfl | hin
      · exact absurd hgrounded hnot
      · exact Or.inl hin
    · exact Or.inr hin
  · exact List.forall_mem_append.2 ⟨h.problems, List.forall_mem_singleton.2 ⟨a, ha, hnot, hd⟩⟩

private theorem waitOne (h : Pending r aliases (a :: rest) s) :
    Pending r aliases rest { s with waiting := s.waiting ++ [a] } := by
  have hassoc : (s.waiting ++ [a]) ++ rest = s.waiting ++ a :: rest := by simp
  exact ⟨hassoc ▸ h.subset, hassoc ▸ h.nodup, h.known, hassoc ▸ h.bound, hassoc ▸ h.unsettled, hassoc ▸ h.grounded,
    h.problems⟩

protected theorem bind (hn : r.NewNames aliases) (h : Pending r aliases (a :: rest) s) :
    Pending r aliases rest (s.bind a) := by
  obtain ⟨r', hadd, heq⟩ | ⟨e, -, heq⟩ | ⟨e, hadd, hrefused, heq⟩ := s.bind_cases a
  · rw [heq]
    exact h.bindOne hn hadd
  · rw [heq]
    exact h.waitOne
  · rw [heq]
    exact h.refuseOne hn (h.not_grounded hn (by simp) hadd hrefused) (reports_aliasProblem a _)

private theorem foldl_bind (hn : r.NewNames aliases) (h : Pending r aliases rest s) :
    Pending r aliases [] (rest.foldl Aliasing.bind s) := by
  induction rest generalizing s with
  | nil => exact h
  | cons a rest ih =>
    rw [List.foldl_cons]
    exact ih (h.bind hn)

/-- At the end of a pass the next one starts with the aliases that wait. -/
private theorem next (h : Pending r aliases [] s) : Pending r aliases s.waiting { s with waiting := [] } := by
  have hrest : s.waiting ++ [] = [] ++ s.waiting := by simp
  exact ⟨hrest ▸ h.subset, hrest ▸ h.nodup, h.known, hrest ▸ h.bound, hrest ▸ h.unsettled, hrest ▸ h.grounded,
    h.problems⟩

/-- As long as an alias of a pass leads to a declared type, some alias can be bound at its start: otherwise no name
that leads to a declared type would be missing. -/
theorem exists_bound (hn : r.NewNames aliases) (h : Pending r aliases rest s) (hwaiting : s.waiting = [])
    (ha : a ∈ rest) (hgrounded : Registry.Grounded r aliases (normalize a.2)) :
    ∃ b ∈ rest, ∃ r', s.registry.addAlias b.1 b.2 = .ok r' := by
  by_contra hnone
  push Not at hnone
  have hrem : ∀ b, b ∈ s.waiting ++ rest ↔ b ∈ rest := by simp [hwaiting]
  have hknown : ∀ n, Registry.Grounded r aliases n → n ∈ s.registry.index := by
    intro n hgr
    induction hgr with
    | declared hn => exact h.known _ hn
    | @through b hb hgr ih =>
      rcases h.grounded b hb hgr with hmem | hbound
      · obtain ⟨r', hok⟩ := h.exists_addAlias hn hmem ih
        exact absurd hok (hnone b ((hrem b).1 hmem) r')
      · exact hbound
  obtain ⟨r', hok⟩ := h.exists_addAlias hn ((hrem a).2 ha) (hknown _ hgrounded)
  exact hnone a ha r' hok

end Pending

/-- If every alias of a pass waits, none could be bound at its start. -/
private theorem addAlias_ne_ok_of_stuck
    (h : (pending.foldl bind s).waiting.length = s.waiting.length + pending.length) :
    ∀ a ∈ pending, ∀ r', s.registry.addAlias a.1 a.2 ≠ .ok r' := by
  induction pending generalizing s with
  | nil => simp
  | cons a pending ih =>
    rw [List.foldl_cons, List.length_cons] at h
    have hrest := length_waiting_foldl_bind_le (s.bind a) pending
    have hone := s.length_waiting_bind_le a
    obtain ⟨r', -, heq⟩ | ⟨e, hadd, heq⟩ | ⟨e, -, -, heq⟩ := s.bind_cases a
    · rw [heq] at hrest h
      simp only [settle] at hrest h
      omega
    · have hregistry : (s.bind a).registry = s.registry := by rw [heq]
      have hlater := ih (s := s.bind a) (by omega)
      rw [hregistry] at hlater
      refine List.forall_mem_cons.2 ⟨fun r' hok => ?_, hlater⟩
      rw [hadd] at hok
      cases hok
    · rw [heq] at hrest h
      simp only [settle] at hrest h
      omega

/-- A run reports only aliases that lead to no declared type. -/
private theorem Pending.run {r : Registry} {aliases : List (String × String)} (hn : r.NewNames aliases) (fuel : Nat)
    (h : Pending r aliases pending { s with waiting := [] }) :
    ∀ d ∈ (Aliasing.run fuel pending s).problems,
      ∃ a ∈ aliases, ¬Registry.Grounded r aliases (normalize a.2) ∧ Reports a d := by
  induction fuel generalizing s pending with
  | zero => exact h.problems
  | succ fuel ih =>
    by_cases hpending : pending = []
    · subst hpending
      exact h.problems
    · rw [run_succ hpending]
      simp only
      have hpass := h.foldl_bind hn
      split
      · rename_i hstuck
        refine List.forall_mem_append.2 ⟨hpass.problems, ?_⟩
        rw [List.forall_mem_map]
        intro a ha
        have ha' : a ∈ pending := by simpa using waiting_subset { s with waiting := [] } pending ha
        refine ⟨a, h.subset (by simpa using ha'), fun hgrounded => ?_, reports_aliasProblem a _⟩
        obtain ⟨b, hb, r', hok⟩ := h.exists_bound hn rfl ha' hgrounded
        exact addAlias_ne_ok_of_stuck (s := { s with waiting := [] }) (by simpa using hstuck) b hb r' hok
      · exact ih hpass.next

end Aliasing

/-! ### All aliases -/

namespace Registry

variable {r : Registry} {aliases : List (String × String)}

private theorem NewNames.pending (h : r.NewNames aliases) : Aliasing.Pending r aliases aliases
    { registry := r, unsettled := (aliases.map fun a => normalize a.1).eraseDups } where
  subset := by simp
  nodup := by simpa using h.distinct.of_map
  known n hn := hn
  bound n hn := Or.inl hn
  unsettled a ha := List.mem_eraseDups.2 (List.mem_map_of_mem (by simpa using ha))
  grounded a ha _ := Or.inl (by simpa using ha)
  problems := by simp

/-- Every alias is bound, or reported once. -/
theorem exists_settles_declareAliases (r : Registry) (aliases : List (String × String)) :
    ∃ bound refused, r.addAliases bound = .ok (r.declareAliases aliases).1 ∧
      List.Forall₂ Aliasing.Reports refused (r.declareAliases aliases).2 ∧ (bound ++ refused).Perm aliases := by
  have hsorted : (aliases.mergeSort fun a b => decide (a.1 ≤ b.1)).Perm aliases := List.mergeSort_perm _ _
  obtain ⟨bound, refused, hsettles, hperm⟩ := Aliasing.exists_settles_run
    (Nat.lt_succ_self (aliases.mergeSort fun a b => decide (a.1 ≤ b.1)).length)
    { registry := r, unsettled := _ }
  obtain ⟨new, hnew, hreports⟩ := hsettles.problems
  refine ⟨bound, refused, hsettles.registry, ?_, hperm.trans hsorted⟩
  rw [List.nil_append] at hnew
  rw [← hnew] at hreports
  exact hreports

/-- If the names of the aliases are new and different, those reported lead to no declared type. -/
theorem NewNames.not_grounded (h : r.NewNames aliases) :
    ∀ d ∈ (r.declareAliases aliases).2,
      ∃ a ∈ aliases, ¬Grounded r aliases (normalize a.2) ∧ Aliasing.Reports a d := by
  have hperm : (aliases.mergeSort fun a b => decide (a.1 ≤ b.1)).Perm aliases := List.mergeSort_perm _ _
  intro d hd
  obtain ⟨a, ha, hnot, hreports⟩ := (h.perm hperm.symm).pending.run (h.perm hperm.symm) _ d hd
  refine ⟨a, hperm.subset ha, fun hgrounded => hnot ?_, hreports⟩
  exact hgrounded.mono (fun _ => .declared) hperm.symm.subset

/-- All aliases are bound if and only if their names are new and different and lead to declared types. -/
theorem declareAliases_eq_nil_iff : (r.declareAliases aliases).2 = [] ↔ r.Bindable aliases := by
  constructor
  · intro hnil
    obtain ⟨bound, refused, hbound, hreports, hperm⟩ := r.exists_settles_declareAliases aliases
    rw [hnil, List.forall₂_nil_right_iff] at hreports
    rw [hreports, List.append_nil] at hperm
    exact (bindable_of_addAliases hbound).perm hperm
  · intro h
    obtain ⟨hnames, hgrounded⟩ := bindable_iff.1 h
    rw [List.eq_nil_iff_forall_not_mem]
    intro d hd
    obtain ⟨a, ha, hnot, -⟩ := hnames.not_grounded d hd
    exact hnot (hgrounded a ha)

theorem isError_declareAliases (r : Registry) (aliases : List (String × String)) :
    ∀ d ∈ (r.declareAliases aliases).2, d.severity.isError = true := by
  obtain ⟨bound, refused, -, hreports, -⟩ := r.exists_settles_declareAliases aliases
  intro d hd
  obtain ⟨a, -, hreport⟩ := Aliasing.exists_reported hreports d hd
  rw [hreport.severity]
  rfl

end Registry

end Coercion
