import Coercion.Proofs.Resolver.Overloads
import Coercion.Proofs.Universe.Validity

/-!
# Loading the functions of a table

The functions of a table become the overload sets of a resolver.  Entries of one name are merged, a function without a
name is passed over, and so is an overload that cannot be read; each of these leaves an error behind.

* The resolver is the one that the `definitions` of the table build (`defineAll_fst`), so it always holds what can be
  read, in the order of the table (`functionNames_ofFunctions`, `overloads?_ofFunctions`).
* The bag of the errors is bounded, but it keeps the first one: it is empty of errors exactly if nothing was passed
  over (`errorText?_ofFunctions_eq_none_iff`).
* A resolved call names the place of its overload in its set (`getElem?_of_resolveAt`), whatever the reads of the
  resolution see.
-/

namespace Coercion

namespace Resolver

/-- Every function has a name, and all its overloads can be read. -/
def Loadable (reg : Registry) (functions : List Overloaded) : Prop :=
  ∀ f ∈ functions, f.name ≠ "" ∧ ∀ text ∈ f.overloads, ∃ sig, reg.parseSignature text = .ok sig

/-- The overloads of all entries of a table with a name. -/
def textsOf (functions : List Overloaded) (name : String) : List String :=
  (functions.filter (·.name = name)).flatMap (·.overloads)

/-- The signatures of the overloads that can be read. -/
def readable (reg : Registry) (texts : List String) : List Signature :=
  texts.filterMap fun text => (reg.parseSignature text).toOption

/-- The definitions that the functions of a table make. -/
def definitions (reg : Registry) (functions : List Overloaded) : List (String × List Signature) :=
  (functions.filter (·.name ≠ "")).map fun f => (f.name, readable reg f.overloads)

variable {reg : Registry} {functions : List Overloaded} {texts : List String}

/-! ### Overloads that can be read -/

private theorem readOverloads_fst (reg : Registry) (subject : String) (j : Nat) (texts : List String) :
    (readOverloads reg subject j texts).1 = readable reg texts := by
  induction texts generalizing j with
  | nil => rfl
  | cons text texts ih =>
    have hrest := ih (j + 1)
    rw [readOverloads]
    cases htext : reg.parseSignature text with
    | ok sig =>
      have hreadable : readable reg (text :: texts) = sig :: readable reg texts :=
        List.filterMap_cons_some (by rw [htext]; rfl)
      rw [hreadable, ← hrest]
    | error e =>
      have hreadable : readable reg (text :: texts) = readable reg texts :=
        List.filterMap_cons_none (by rw [htext]; rfl)
      rw [hreadable, ← hrest]

private theorem readOverloads_snd_eq_nil_iff (reg : Registry) (subject : String) (j : Nat) (texts : List String) :
    (readOverloads reg subject j texts).2 = [] ↔ ∀ text ∈ texts, ∃ sig, reg.parseSignature text = .ok sig := by
  induction texts generalizing j with
  | nil => simp [readOverloads]
  | cons text texts ih =>
    rw [List.forall_mem_cons, ← ih (j + 1), readOverloads]
    cases htext : reg.parseSignature text with
    | ok sig => simp
    | error e => simp

private theorem isError_readOverloads (reg : Registry) (subject : String) (j : Nat) (texts : List String) :
    ∀ d ∈ (readOverloads reg subject j texts).2, d.severity.isError = true := by
  induction texts generalizing j with
  | nil => simp [readOverloads]
  | cons text texts ih =>
    rw [readOverloads]
    cases reg.parseSignature text with
    | ok sig => exact ih (j + 1)
    | error e => exact List.forall_mem_cons.2 ⟨rfl, ih (j + 1)⟩

/-- If all overloads can be read, the readable ones are all of them. -/
private theorem map_parseSignature (h : ∀ text ∈ texts, ∃ sig, reg.parseSignature text = .ok sig) :
    texts.map reg.parseSignature = (readable reg texts).map .ok := by
  induction texts with
  | nil => rfl
  | cons text texts ih =>
    obtain ⟨⟨sig, hsig⟩, hrest⟩ := List.forall_mem_cons.1 h
    have hreadable : readable reg (text :: texts) = sig :: readable reg texts :=
      List.filterMap_cons_some (by rw [hsig]; rfl)
    rw [hreadable, List.map_cons, List.map_cons, hsig, ih hrest]

/-! ### The definitions of a table -/

theorem defineAll_fst (reg : Registry) (i : Nat) (functions : List Overloaded) (r : Resolver) :
    (defineAll reg i functions r).1 = (definitions reg functions).foldl (fun r d => r.define d.1 d.2) r := by
  induction functions generalizing i r with
  | nil => rfl
  | cons f fs ih =>
    unfold defineAll definitions
    by_cases hname : f.name = ""
    · rw [List.filter_cons_of_neg (by simpa using hname)]
      simp only [hname, if_true]
      exact ih (i + 1) r
    · rw [List.filter_cons_of_pos (by simpa using hname), List.map_cons, List.foldl_cons]
      simp only [hname, if_false, readOverloads_fst]
      exact ih (i + 1) _

private theorem defineAll_snd_eq_nil_iff (reg : Registry) (i : Nat) (functions : List Overloaded) (r : Resolver) :
    (defineAll reg i functions r).2 = [] ↔ Loadable reg functions := by
  induction functions generalizing i r with
  | nil => simp [defineAll, Loadable]
  | cons f fs ih =>
    have hcons : Loadable reg (f :: fs) ↔
        (f.name ≠ "" ∧ ∀ text ∈ f.overloads, ∃ sig, reg.parseSignature text = .ok sig) ∧ Loadable reg fs :=
      List.forall_mem_cons
    rw [hcons]
    unfold defineAll
    by_cases hname : f.name = ""
    · simp [hname]
    · simp only [hname, if_false, List.append_eq_nil_iff, readOverloads_snd_eq_nil_iff, ih, ne_eq, not_false_eq_true,
        true_and]

private theorem isError_defineAll (reg : Registry) (i : Nat) (functions : List Overloaded) (r : Resolver) :
    ∀ d ∈ (defineAll reg i functions r).2, d.severity.isError = true := by
  induction functions generalizing i r with
  | nil => simp [defineAll]
  | cons f fs ih =>
    unfold defineAll
    by_cases hname : f.name = ""
    · simp only [hname, if_true]
      exact List.forall_mem_cons.2 ⟨rfl, ih (i + 1) r⟩
    · simp only [hname, if_false]
      exact List.forall_mem_append.2 ⟨isError_readOverloads _ _ _ _, ih (i + 1) _⟩

private theorem ofFunctions_fst (reg : Registry) (functions : List Overloaded) (policy : Policy) :
    (ofFunctions reg functions policy).1 = build policy (some reg) (definitions reg functions) :=
  defineAll_fst reg 0 functions _

private theorem defined_definitions_iff {name : String} :
    Defined (definitions reg functions) name ↔ name ≠ "" ∧ name ∈ functions.map (·.name) := by
  unfold Defined definitions
  constructor
  · rintro ⟨d, hd, rfl⟩
    obtain ⟨f, hf, rfl⟩ := List.mem_map.1 hd
    obtain ⟨hmem, hname⟩ := List.mem_filter.1 hf
    exact ⟨of_decide_eq_true hname, List.mem_map_of_mem hmem⟩
  · rintro ⟨hname, hmem⟩
    obtain ⟨f, hf, rfl⟩ := List.mem_map.1 hmem
    exact ⟨_, List.mem_map_of_mem (List.mem_filter.2 ⟨hf, decide_eq_true hname⟩), rfl⟩

/-- What the definitions give to a name are the readable ones of its overloads, across its entries. -/
private theorem overloadsOf_definitions {name : String} (hname : name ≠ "") :
    overloadsOf (definitions reg functions) name = readable reg (textsOf functions name) := by
  have hfilter : (functions.filter (·.name ≠ "")).filter (·.name = name) = functions.filter (·.name = name) := by
    rw [List.filter_filter]
    refine List.filter_congr (fun f _ => ?_)
    by_cases hf : f.name = name
    · simp [hf, hname]
    · simp [hf]
  unfold overloadsOf definitions
  rw [List.filter_map, List.flatMap_map, textsOf, readable, List.filterMap_flatMap, ← hfilter]
  rfl

theorem overloads?_ofFunctions (reg : Registry) (functions : List Overloaded) (policy : Policy) (name : String) :
    (ofFunctions reg functions policy).1.overloads? name =
      if name ≠ "" ∧ name ∈ functions.map (·.name) then some (readable reg (textsOf functions name)) else none := by
  rw [ofFunctions_fst, overloads?_build]
  by_cases h : name ≠ "" ∧ name ∈ functions.map (·.name)
  · rw [if_pos h, if_pos (defined_definitions_iff.2 h), overloadsOf_definitions h.1]
  · rw [if_neg h, if_neg (fun hdefined => h (defined_definitions_iff.1 hdefined))]

/-! ### The order of names -/

private theorem map_fst_defineIn (name : String) (overloads : List Signature) (fs : List (String × List Signature)) :
    (defineIn name overloads fs).map (·.1) =
      if name ∈ fs.map (·.1) then fs.map (·.1) else fs.map (·.1) ++ [name] := by
  induction fs with
  | nil => rfl
  | cons f fs ih =>
    unfold defineIn
    by_cases hf : f.1 = name
    · simp [hf]
    · rw [if_neg hf, List.map_cons, ih, List.map_cons]
      have hmem : name ∈ f.1 :: fs.map (·.1) ↔ name ∈ fs.map (·.1) := by simp [Ne.symm hf]
      simp only [hmem]
      split
      · rfl
      · rfl

/-- A resolver lists each name where it is defined first. -/
private theorem functionNames_build (policy : Policy) (names : Option Registry)
    (defs : List (String × List Signature)) :
    (build policy names defs).functionNames = (defs.map (·.1)).eraseDups := by
  -- the last definition adds its name unless one before it did
  induction defs using List.reverseRecOn with
  | nil => rfl
  | append_singleton defs d ih =>
    have hbuild : build policy names (defs ++ [d]) = (build policy names defs).define d.1 d.2 := List.foldl_concat ..
    have hdefine : (build policy names (defs ++ [d])).functionNames =
        if d.1 ∈ (build policy names defs).functionNames then (build policy names defs).functionNames
        else (build policy names defs).functionNames ++ [d.1] := by
      rw [hbuild]
      exact map_fst_defineIn _ _ _
    rw [hdefine, ih, List.map_append, List.eraseDups_append]
    by_cases hd : d.1 ∈ defs.map (·.1)
    · rw [if_pos (List.mem_eraseDups.2 hd)]
      simp [List.removeAll, hd]
    · rw [if_neg (fun hmem => hd (List.mem_eraseDups.1 hmem))]
      simp [List.removeAll, hd, List.eraseDups_cons]

theorem functionNames_ofFunctions (reg : Registry) (functions : List Overloaded) (policy : Policy) :
    (ofFunctions reg functions policy).1.functionNames = ((functions.map (·.name)).filter (· ≠ "")).eraseDups := by
  rw [ofFunctions_fst, functionNames_build, definitions, List.map_map, List.filter_map]
  rfl

/-! ### The verdict -/

/-- However many errors there are, the first one is in the bag. -/
private theorem errorText?_collect_eq_none_iff {problems : List Diagnostic}
    (herrors : ∀ d ∈ problems, d.severity.isError = true) :
    (Universe.collect (.ofCapacity 64) problems).errorText? = none ↔ problems = [] := by
  cases problems with
  | nil => exact iff_of_true rfl rfl
  | cons d ds =>
    have hitems := Universe.toList_collect (.ofCapacity 64) (d :: ds)
    have hfirst : d ∈ (Universe.collect (.ofCapacity 64) (d :: ds)).items.toList := by
      rw [hitems]
      exact List.mem_append_right _ List.mem_cons_self
    have hhas : (Universe.collect (.ofCapacity 64) (d :: ds)).hasErrors = true := by
      rw [Bag.hasErrors, ← Array.any_toList, List.any_eq_true]
      exact ⟨d, hfirst, herrors d List.mem_cons_self⟩
    obtain ⟨text, htext⟩ := Bag.exists_errorText?_eq_some hhas
    rw [htext]
    exact iff_of_false (Option.some_ne_none text) (List.cons_ne_nil d ds)

theorem errorText?_ofFunctions_eq_none_iff (reg : Registry) (functions : List Overloaded) (policy : Policy) :
    (ofFunctions reg functions policy).2.errorText? = none ↔ Loadable reg functions := by
  rw [← defineAll_snd_eq_nil_iff reg 0 functions { policy, names := some reg }]
  exact errorText?_collect_eq_none_iff (isError_defineAll reg 0 functions _)

/-! ### The place of a resolved overload -/

section Place

variable {r : Resolver} {view : ℕ → Manager} {args : Signature} {allowLossy : Bool} {cs : List Candidate}

private theorem exists_of_bind_eq_ok {α β : Type} {x : Except Fault α} {f : α → Except Fault β} {b : β}
    (h : x >>= f = .ok b) : ∃ a, x = .ok a ∧ f a = .ok b := by
  cases x with
  | error e => cases h
  | ok a => exact ⟨a, rfl, h⟩

private theorem candidate_challenge (leader : Option Leader) (c : Candidate) (rates : List Rating) :
    (challenge leader c rates).candidate = c ∨ ∃ l ∈ leader, (challenge leader c rates).candidate = l.candidate := by
  unfold challenge
  cases leader with
  | none => exact Or.inl rfl
  | some l =>
    simp only
    split
    · exact Or.inl rfl
    · exact Or.inr ⟨l, rfl, rfl⟩
    · exact Or.inr ⟨l, rfl, rfl⟩

/-- The leader of a search is one of the candidates, or the leader that the search started with. -/
private theorem candidate_leaderOf {n : ℕ} {leader : Option Leader} {l : Leader}
    (h : leaderOf view allowLossy args n leader cs = .ok (some l)) :
    l.candidate ∈ cs ∨ ∃ l' ∈ leader, l.candidate = l'.candidate := by
  induction cs generalizing n leader with
  | nil => exact Or.inr ⟨l, Except.ok.inj h, rfl⟩
  | cons c cs ih =>
    rw [leaderOf] at h
    obtain ⟨rates, -, h⟩ := exists_of_bind_eq_ok h
    cases rates with
    | none => exact (ih h).imp_left (List.mem_cons_of_mem c)
    | some rates =>
      rcases ih h with hmem | ⟨l', hl', heq⟩
      · exact Or.inl (List.mem_cons_of_mem c hmem)
      · cases hl'
        rcases candidate_challenge leader c rates with hc | ⟨l', hl', hc⟩
        · exact Or.inl (heq.trans hc ▸ List.mem_cons_self)
        · exact Or.inr ⟨l', hl', heq.trans hc⟩

private theorem mem_of_breakTie {c : Candidate} (h : breakTie view allowLossy args cs = .ok (some c)) : c ∈ cs := by
  obtain ⟨leader, hleader, h⟩ := exists_of_bind_eq_ok h
  cases leader with
  | none => cases h
  | some l =>
    have hmem : l.candidate ∈ cs := (candidate_leaderOf hleader).resolve_right (by simp)
    have hwinner : (if l.alone then some l.candidate else none) = some c := Except.ok.inj h
    obtain ⟨-, hc⟩ := Option.ite_none_right_eq_some.1 hwinner
    exact Option.some.inj hc ▸ hmem

private theorem mem_of_resolveTie {name : String} {best : Rating} {res : Resolution}
    (h : r.resolveTie view name args cs best = .ok (.ok res)) :
    res.function = name ∧ (res.signature, res.index) ∈ cs := by
  obtain ⟨ratings, -, h⟩ := exists_of_bind_eq_ok h
  have htied : ∀ c ∈ ((cs.zip ratings).filter fun c => c.2 == best).map (·.1), c ∈ cs := by
    intro c hc
    obtain ⟨⟨c', rating⟩, hmem, rfl⟩ := List.mem_map.1 hc
    exact (List.of_mem_zip (List.mem_of_mem_filter hmem)).1
  simp only at h
  generalize ((cs.zip ratings).filter fun c => c.2 == best).map (·.1) = tied at h htied
  cases tied with
  | nil => cases h
  | cons first rest =>
    simp only at h
    split at h
    · cases h
      exact ⟨rfl, htied first List.mem_cons_self⟩
    · -- only the asymmetric policy has a winner here
      split at h
      · obtain ⟨winner, hwinner, h⟩ := exists_of_bind_eq_ok h
        cases winner with
        | none => cases h
        | some c =>
          cases h
          exact ⟨rfl, htied c (mem_of_breakTie hwinner)⟩
      · cases h

private theorem getElem?_of_mem_candidates {overloads : List Signature} {arity index : ℕ} {sig : Signature}
    (h : (sig, index) ∈ candidates overloads arity) : overloads[index]? = some sig :=
  List.mem_zipIdx_iff_getElem?.1 (List.mem_of_mem_filter h)

/-- A resolved call names its overload by its place in the set of its name, whatever the reads see. -/
theorem getElem?_of_resolveAt {name : String} {res : Resolution} (h : r.resolveAt view name args = .ok (.ok res)) :
    res.function = name ∧
      ∃ overloads, r.overloads? name = some overloads ∧ overloads[res.index]? = some res.signature := by
  unfold resolveAt at h
  cases hover : r.overloads? name with
  | none =>
    rw [hover] at h
    cases h
  | some overloads =>
    rw [hover] at h
    suffices hmem : res.function = name ∧ (res.signature, res.index) ∈ candidates overloads args.length from
      ⟨hmem.1, overloads, rfl, getElem?_of_mem_candidates hmem.2⟩
    simp only at h
    split at h
    · cases h
    · obtain ⟨sel, -, h⟩ := exists_of_bind_eq_ok h
      cases houtcome : sel.outcome with
      | noMatch =>
        simp only [houtcome] at h
        split at h
        · cases h
        · obtain ⟨lossyOnly, -, h⟩ := exists_of_bind_eq_ok h
          cases h
      | unique =>
        simp only [houtcome] at h
        cases hc : (candidates overloads args.length)[sel.best.toNat]? with
        | none =>
          rw [hc] at h
          cases h
        | some c =>
          rw [hc] at h
          cases h
          exact ⟨rfl, List.mem_of_getElem? hc⟩
      | ambiguous =>
        simp only [houtcome] at h
        exact mem_of_resolveTie h

end Place

/-- The functions of a table are loaded without a failure if and only if each has a name and all its overloads can be
read.  Then the names are listed where they occur first, the overloads of a name are those of all its entries in order,
and the place that a resolved call gives is the place of its overload in the table.  Otherwise the resolver still holds
the overloads that can be read, of the functions with a name. -/
theorem ofFunctions_loads_declared (reg : Registry) (functions : List Overloaded) (policy : Policy) :
    let r := (ofFunctions reg functions policy).1
    let failure? := (ofFunctions reg functions policy).2.errorText?
    (failure? = none ↔ Loadable reg functions) ∧
      r.functionNames = ((functions.map (·.name)).filter (· ≠ "")).eraseDups ∧
      (∀ name, r.overloads? name =
        if name ≠ "" ∧ name ∈ functions.map (·.name) then some (readable reg (textsOf functions name)) else none) ∧
      (failure? = none →
        r.functionNames = (functions.map (·.name)).eraseDups ∧
        (∀ name ∈ functions.map (·.name), ∃ sigs, r.overloads? name = some sigs ∧
          (textsOf functions name).map reg.parseSignature = sigs.map .ok) ∧
        ∀ view name args res, r.resolveAt view name args = .ok (.ok res) →
          res.function = name ∧ ∃ text, (textsOf functions name)[res.index]? = some text ∧
            reg.parseSignature text = .ok res.signature) := by
  intro r failure?
  have hverdict := errorText?_ofFunctions_eq_none_iff reg functions policy
  have hnames := functionNames_ofFunctions reg functions policy
  have hover := overloads?_ofFunctions reg functions policy
  refine ⟨hverdict, hnames, hover, fun hok => ?_⟩
  have hload := hverdict.1 hok
  have hread (name : String) :
      (textsOf functions name).map reg.parseSignature = (readable reg (textsOf functions name)).map .ok := by
    refine map_parseSignature fun text htext => ?_
    obtain ⟨f, hf, htext⟩ := List.mem_flatMap.1 htext
    exact (hload f (List.mem_of_mem_filter hf)).2 text htext
  refine ⟨?_, fun name hmem => ?_, fun view name args res hres => ?_⟩
  · have hnamed : (functions.map (·.name)).filter (· ≠ "") = functions.map (·.name) := by
      refine List.filter_eq_self.2 fun name hmem => ?_
      obtain ⟨f, hf, rfl⟩ := List.mem_map.1 hmem
      exact decide_eq_true (hload f hf).1
    exact hnames.trans (congrArg _ hnamed)
  · obtain ⟨f, hf, rfl⟩ := List.mem_map.1 hmem
    exact ⟨_, (hover f.name).trans (if_pos ⟨(hload f hf).1, hmem⟩), hread f.name⟩
  · obtain ⟨hfunction, overloads, hoverloads, hplace⟩ := getElem?_of_resolveAt hres
    obtain ⟨-, hsome⟩ := Option.ite_none_right_eq_some.1 ((hover name).symm.trans hoverloads)
    rw [← Option.some.inj hsome] at hplace
    -- the same place in the texts and in what they are read as
    have hsame := congrArg (·[res.index]?) (hread name)
    simp only [List.getElem?_map, hplace, Option.map_some] at hsame
    exact ⟨hfunction, Option.map_eq_some_iff.1 hsame⟩

/-! ### Two entries of one name -/

/-- The overloads of one function stand in two entries, with another function between them. -/
def splitEntries : List Overloaded := [⟨"f", some ["d"]⟩, ⟨"g", some ["()"]⟩, ⟨"f", some ["b", "c"]⟩]

private theorem parseSignature_single {name : String} {t : TypeId}
    (hplain : Registry.stripParens (Text.trimChars name.toList) = name.toList)
    (hone : Text.splitChars ',' name.toList = [name.toList]) (hne : (Text.trimChars name.toList).isEmpty = false)
    (h : reg.lookup name = .ok t) : reg.parseSignature name = .ok [t] := by
  unfold Registry.parseSignature
  simp only [hplain, hne, hone, Bool.false_eq_true, if_false, List.mapM_cons, List.mapM_nil, String.ofList_toList, h]
  rfl

private theorem parseSignature_splitEntries :
    let reg := Universe.rowOfThree.declare.registry
    reg.parseSignature "d" = .ok [⟨0⟩] ∧ reg.parseSignature "b" = .ok [⟨1⟩] ∧ reg.parseSignature "c" = .ok [⟨2⟩] ∧
      reg.parseSignature "()" = .ok [] := by
  obtain ⟨hd, hb, hc⟩ := Universe.lookup_rowOfThree
  exact ⟨parseSignature_single (by decide) (by decide) (by decide) hd,
    parseSignature_single (by decide) (by decide) (by decide) hb,
    parseSignature_single (by decide) (by decide) (by decide) hc, rfl⟩

/-- Both entries give to one set, and a call that matches the second overload of the set is resolved to its place. -/
theorem ofFunctions_splitEntries :
    let reg := Universe.rowOfThree.declare.registry
    let r := (ofFunctions reg splitEntries {}).1
    (ofFunctions reg splitEntries {}).2.errorText? = none ∧ r.functionNames = ["f", "g"] ∧
      r.overloads? "f" = some [[⟨0⟩], [⟨1⟩], [⟨2⟩]] ∧
      ∃ res, r.resolve {} "f" [⟨1⟩] = .ok (.ok res) ∧ ∃ text, (textsOf splitEntries "f")[res.index]? = some text ∧
        reg.parseSignature text = .ok res.signature := by
  intro reg r
  obtain ⟨hd, hb, hc, hnone⟩ := parseSignature_splitEntries
  have hload : Loadable reg splitEntries := by
    simp [Loadable, splitEntries, Overloaded.overloads, reg, hd, hb, hc, hnone]
  obtain ⟨hverdict, -, hover, hloaded⟩ := ofFunctions_loads_declared reg splitEntries {}
  obtain ⟨hnames, -, hplace⟩ := hloaded (hverdict.2 hload)
  have hset : r.overloads? "f" = some [[⟨0⟩], [⟨1⟩], [⟨2⟩]] := by
    rw [hover, if_pos (by decide)]
    simp [readable, textsOf, splitEntries, Overloaded.overloads, reg, hd, hb, hc, Except.toOption]
  have hpolicy : r.policy = {} := (congrArg policy (ofFunctions_fst reg splitEntries {})).trans (policy_build _ _ _)
  have hresolve : r.resolve {} "f" [⟨1⟩] = .ok (.ok ⟨"f", 1, [⟨1⟩], ⟨0, 0, 0⟩, false⟩) := by
    unfold resolve resolveAt
    rw [hset, hpolicy]
    rfl
  exact ⟨hverdict.2 hload, hnames, hset, _, hresolve, (hplace _ "f" [⟨1⟩] _ hresolve).2⟩

end Resolver

end Coercion
