import Coercion.Proofs.Resolver.Classification
import Mathlib.Data.Finset.Dedup

/-!
# Overload sets as sets

Which overloads tie for a call depends on the set of signatures alone (`isTied_congr`), and so does the answer to the
call up to the places of overloads, its `verdict`, with one exception.  Under the asymmetric policy a tie is broken in
favour of the costliest candidate if no other is as costly, and a second copy of the same overload is as costly
(`onlyCostliest_tied_iff`): the winner loses by being defined twice.

`verdict_resolve_eq_iff` says that this is the only exception, and `resolve_winner_defined_twice` that it exists.
-/

namespace Coercion

namespace Resolver

/-- What a call comes to, apart from the places of overloads. -/
inductive Verdict where
  | resolved (signature : Signature) (rating : Rating) (tieBroken : Bool)
  | unknownFunction
  | arity
  | noMatch (lossyOnly : Bool)
  | ambiguous (tied : Finset Signature)
  deriving DecidableEq

/-- The verdict of an answer. -/
def verdict : Except Failure Resolution → Verdict
  | .ok res => .resolved res.signature res.rating res.tieBroken
  | .error (.unknownFunction _ _) => .unknownFunction
  | .error (.arity _ _) => .arity
  | .error (.noMatch _ _ lossyOnly) => .noMatch lossyOnly
  | .error (.ambiguous _ _ tied) => .ambiguous (tied.map (·.1)).toFinset

/-- An overload for a call is admitted at the least cost. -/
def IsTied (m : Manager) (allowLossy : Bool) (args : Signature) (overloads : List Signature) (sig : Signature) : Prop :=
  sig ∈ ofArity overloads args.length ∧ m.Optimal allowLossy args (ofArity overloads args.length) sig

/-- A tied overload is costlier, at the first difference, than every other one, and there is another one. -/
structure WinsTie (m : Manager) (allowLossy : Bool) (args : Signature) (overloads : List Signature) (w : Signature) :
    Prop where
  tied : IsTied m allowLossy args overloads w
  contested : ∃ sig, IsTied m allowLossy args overloads sig ∧ sig ≠ w
  costlier : ∀ sig, IsTied m allowLossy args overloads sig → sig ≠ w → m.weights args sig < m.weights args w

section Sets

variable {m : Manager} {allowLossy : Bool} {args : Signature} {overloads overloads' : List Signature}

/-! ### What depends on the set of signatures alone -/

private theorem mem_ofArity {arity : Nat} {sig : Signature} :
    sig ∈ ofArity overloads arity ↔ sig ∈ overloads ∧ sig.length = arity := by
  simp [ofArity]

variable (hset : ∀ sig, sig ∈ overloads ↔ sig ∈ overloads')

include hset

private theorem mem_ofArity_congr (arity : Nat) (sig : Signature) :
    sig ∈ ofArity overloads arity ↔ sig ∈ ofArity overloads' arity := by
  rw [mem_ofArity, mem_ofArity, hset]

theorem isTied_congr (sig : Signature) :
    IsTied m allowLossy args overloads sig ↔ IsTied m allowLossy args overloads' sig := by
  simp only [IsTied, Manager.Optimal, mem_ofArity_congr hset]

private theorem winsTie_congr (w : Signature) :
    WinsTie m allowLossy args overloads w ↔ WinsTie m allowLossy args overloads' w := by
  have hiff : ∀ sig, IsTied m allowLossy args overloads sig ↔ IsTied m allowLossy args overloads' sig :=
    isTied_congr hset
  constructor
  · rintro ⟨htied, ⟨sig, hsig, hne⟩, hcost⟩
    exact ⟨(hiff w).1 htied, ⟨sig, (hiff sig).1 hsig, hne⟩, fun s hs => hcost s ((hiff s).2 hs)⟩
  · rintro ⟨htied, ⟨sig, hsig, hne⟩, hcost⟩
    exact ⟨(hiff w).2 htied, ⟨sig, (hiff sig).2 hsig, hne⟩, fun s hs => hcost s ((hiff s).1 hs)⟩

omit hset

/-! ### Tied candidates and their signatures -/

private theorem mem_tied {c : Candidate} :
    c ∈ tied m allowLossy args overloads ↔ c ∈ overloads.zipIdx ∧ IsTied m allowLossy args overloads c.1 := by
  unfold tied
  rw [List.mem_filter, decide_eq_true_iff]
  constructor
  · rintro ⟨hmem, hlen, hopt⟩
    exact ⟨hmem, mem_ofArity.2 ⟨List.fst_mem_of_mem_zipIdx hmem, hlen⟩, hopt⟩
  · rintro ⟨hmem, harity, hopt⟩
    exact ⟨hmem, (mem_ofArity.1 harity).2, hopt⟩

private theorem exists_mem_tied_iff {sig : Signature} :
    (∃ c ∈ tied m allowLossy args overloads, c.1 = sig) ↔ IsTied m allowLossy args overloads sig := by
  constructor
  · rintro ⟨c, hc, rfl⟩
    exact (mem_tied.1 hc).2
  · intro h
    have hmem : sig ∈ overloads.zipIdx.map Prod.fst := by
      rw [List.zipIdx_map_fst]
      exact (mem_ofArity.1 h.1).1
    obtain ⟨c, hc, rfl⟩ := List.mem_map.1 hmem
    exact ⟨c, mem_tied.2 ⟨hc, h⟩, rfl⟩

private theorem tied_eq_nil_iff :
    tied m allowLossy args overloads = [] ↔ ∀ sig, ¬IsTied m allowLossy args overloads sig := by
  rw [List.eq_nil_iff_forall_not_mem]
  constructor
  · intro h sig hsig
    obtain ⟨c, hc, -⟩ := exists_mem_tied_iff.2 hsig
    exact h c hc
  · intro h c hc
    exact h c.1 (mem_tied.1 hc).2

private theorem uniform_tied_iff :
    Uniform (tied m allowLossy args overloads) ↔
      ∀ sig sig', IsTied m allowLossy args overloads sig → IsTied m allowLossy args overloads sig' → sig = sig' := by
  constructor
  · intro h sig sig' hsig hsig'
    obtain ⟨c, hc, rfl⟩ := exists_mem_tied_iff.2 hsig
    obtain ⟨c', hc', rfl⟩ := exists_mem_tied_iff.2 hsig'
    exact h c hc c' hc'
  · intro h c hc c' hc'
    exact h c.1 c'.1 (mem_tied.1 hc).2 (mem_tied.1 hc').2

/-- The signatures of the tied candidates. -/
def tiedSet (m : Manager) (allowLossy : Bool) (args : Signature) (overloads : List Signature) : Finset Signature :=
  ((tied m allowLossy args overloads).map (·.1)).toFinset

private theorem mem_tiedSet {sig : Signature} :
    sig ∈ tiedSet m allowLossy args overloads ↔ IsTied m allowLossy args overloads sig := by
  rw [tiedSet, List.mem_toFinset, List.mem_map, exists_mem_tied_iff]

private theorem tiedSet_congr (hset : ∀ sig, sig ∈ overloads ↔ sig ∈ overloads') :
    tiedSet m allowLossy args overloads = tiedSet m allowLossy args overloads' := by
  ext sig
  rw [mem_tiedSet, mem_tiedSet, isTied_congr hset]

/-- An overload is defined once if it has one place. -/
private theorem count_eq_one_iff {w : Signature} :
    overloads.count w = 1 ↔ ∃ d : Candidate, ∀ c, c ∈ overloads.zipIdx ∧ c.1 = w ↔ c = d := by
  have hcount : overloads.count w = (overloads.zipIdx.filter fun c => c.1 = w).length := by
    rw [← List.countP_eq_length_filter]
    conv_lhs => rw [← List.zipIdx_map_fst 0 overloads]
    rw [List.count, List.countP_map]
    exact List.countP_congr (fun c _ => by simp)
  have hmem (c : Candidate) : c ∈ overloads.zipIdx.filter (fun c => c.1 = w) ↔ c ∈ overloads.zipIdx ∧ c.1 = w := by
    simp
  have hnodup : (overloads.zipIdx.filter fun c => c.1 = w).Nodup :=
    ((pairwise_zipIdx overloads).filter _).imp (fun hlt heq => hlt.ne (congrArg Prod.snd heq))
  rw [hcount, List.length_eq_one_iff]
  constructor
  · rintro ⟨d, hd⟩
    refine ⟨d, fun c => ?_⟩
    rw [← hmem, hd, List.mem_singleton]
  · rintro ⟨d, hd⟩
    refine ⟨d, List.perm_singleton.1 ?_⟩
    rw [List.perm_ext_iff_of_nodup hnodup (List.nodup_singleton d)]
    intro c
    rw [hmem, hd, List.mem_singleton]

/-- A tie has a winner if one signature is costlier than the others and is defined once. -/
theorem onlyCostliest_tied_iff (huni : ¬Uniform (tied m allowLossy args overloads)) {w : Signature} :
    (∃ d, OnlyCostliest m args (tied m allowLossy args overloads) d ∧ d.1 = w) ↔
      WinsTie m allowLossy args overloads w ∧ overloads.count w = 1 := by
  rw [count_eq_one_iff]
  constructor
  · rintro ⟨d, honly, rfl⟩
    obtain ⟨hmem, hmax⟩ := (honly d).2 rfl
    obtain ⟨hplace, htied⟩ := mem_tied.1 hmem
    -- a candidate as costly as `d` is `d`
    have hsame : ∀ c ∈ tied m allowLossy args overloads, m.weights args d.1 ≤ m.weights args c.1 → c = d := by
      intro c hc hle
      exact (honly c).1 ⟨hc, fun c' hc' => (hmax c' hc').trans hle⟩
    refine ⟨⟨htied, ?_, ?_⟩, d, fun c => ⟨?_, ?_⟩⟩
    · by_contra hnone
      push Not at hnone
      refine huni (uniform_tied_iff.2 (fun sig sig' hsig hsig' => ?_))
      rw [hnone sig hsig, hnone sig' hsig']
    · intro sig hsig hne
      obtain ⟨c, hc, rfl⟩ := exists_mem_tied_iff.2 hsig
      by_contra hlt
      exact hne (congrArg Prod.fst (hsame c hc (not_lt.1 hlt)))
    · rintro ⟨hc, hsig⟩
      exact hsame c (mem_tied.2 ⟨hc, hsig ▸ htied⟩) (by rw [hsig])
    · rintro rfl
      exact ⟨hplace, rfl⟩
  · rintro ⟨hwins, d, hd⟩
    obtain ⟨hplace, rfl⟩ := (hd d).2 rfl
    have hmem : d ∈ tied m allowLossy args overloads := mem_tied.2 ⟨hplace, hwins.tied⟩
    refine ⟨d, fun c => ⟨?_, ?_⟩, rfl⟩
    · rintro ⟨hc, hmax⟩
      have hle := hmax d hmem
      by_contra hne
      have hsig : c.1 ≠ d.1 := fun heq => hne ((hd c).1 ⟨(mem_tied.1 hc).1, heq⟩)
      exact (hwins.costlier c.1 (mem_tied.1 hc).2 hsig).not_ge hle
    · rintro rfl
      refine ⟨hmem, fun c' hc' => ?_⟩
      by_cases heq : c'.1 = c.1
      · rw [heq]
      · exact (hwins.costlier c'.1 (mem_tied.1 hc').2 heq).le

private theorem WinsTie.unique {w w' : Signature} (h : WinsTie m allowLossy args overloads w)
    (h' : WinsTie m allowLossy args overloads w') : w = w' := by
  by_contra hne
  exact (h.costlier w' h'.tied (Ne.symm hne)).asymm (h'.costlier w h.tied hne)

end Sets

/-! ### Verdicts -/

section Verdicts

variable {r : Resolver} {policy : Policy} {m : Manager} {name : String} {args : Signature} {overloads : List Signature}

private theorem verdict_of_no_arity (h : r.overloads? name = some overloads)
    (harity : ∀ sig, sig ∉ ofArity overloads args.length) :
    (r.resolve m name args).map verdict = .ok .arity := by
  rw [resolve_of_ofArity_eq_nil h (List.eq_nil_iff_forall_not_mem.2 harity)]
  rfl

variable (hpolicy : r.policy = policy) (h : r.overloads? name = some overloads) (hargs : args.Valid)
  (hlen : args.length < UInt32.size) (hov : ∀ params ∈ overloads, params.Valid)

include hpolicy h hargs hlen hov

private theorem verdict_of_not_isTied {sig : Signature} (hsig : sig ∈ ofArity overloads args.length)
    (hnone : ∀ sig, ¬IsTied m policy.allowLossy args overloads sig) :
    (r.resolve m name args).map verdict = .ok (.noMatch (decide (policy.allowLossy = false ∧
      ∃ params ∈ ofArity overloads args.length, m.Admits true args params))) := by
  subst hpolicy
  rw [resolve_of_tied_eq_nil h hargs hlen hov (List.ne_nil_of_mem hsig) (tied_eq_nil_iff.2 hnone)]
  rfl

private theorem verdict_of_isTied_alone {sig : Signature} (hsig : IsTied m policy.allowLossy args overloads sig)
    (halone : ∀ sig', IsTied m policy.allowLossy args overloads sig' → sig' = sig) :
    (r.resolve m name args).map verdict = .ok (.resolved sig (m.ratingOf policy.allowLossy args sig) false) := by
  subst hpolicy
  have huni : Uniform (tied m r.policy.allowLossy args overloads) := by
    refine uniform_tied_iff.2 (fun s s' hs hs' => ?_)
    rw [halone s hs, halone s' hs']
  cases hT : tied m r.policy.allowLossy args overloads with
  | nil => exact absurd hsig (tied_eq_nil_iff.1 hT sig)
  | cons c rest =>
    have hc : c.1 = sig := halone c.1 (mem_tied.1 (mem_tied_of_eq_cons hT)).2
    rw [resolve_of_uniform h hargs hlen hov hT (hT ▸ huni), ← hc]
    rfl

private theorem verdict_of_winsTie {w : Signature} (hasym : policy.asymmetric = true)
    (hwins : WinsTie m policy.allowLossy args overloads w) (honce : overloads.count w = 1) :
    (r.resolve m name args).map verdict = .ok (.resolved w (m.ratingOf policy.allowLossy args w) true) := by
  subst hpolicy
  have huni : ¬Uniform (tied m r.policy.allowLossy args overloads) := by
    intro huni
    obtain ⟨sig, hsig, hne⟩ := hwins.contested
    exact hne (uniform_tied_iff.1 huni sig w hsig hwins.tied)
  obtain ⟨d, honly, rfl⟩ := (onlyCostliest_tied_iff huni).2 ⟨hwins, honce⟩
  cases hT : tied m r.policy.allowLossy args overloads with
  | nil => exact absurd hwins.tied (tied_eq_nil_iff.1 hT d.1)
  | cons c rest =>
    rw [resolve_of_onlyCostliest h hargs hlen hov hT (hT ▸ huni) hasym (hT ▸ honly)]
    rfl

private theorem verdict_of_no_winner {sig sig' : Signature} (hsig : IsTied m policy.allowLossy args overloads sig)
    (hsig' : IsTied m policy.allowLossy args overloads sig') (hne : sig ≠ sig')
    (hnone : policy.asymmetric = true → ∀ w, WinsTie m policy.allowLossy args overloads w → overloads.count w ≠ 1) :
    (r.resolve m name args).map verdict = .ok (.ambiguous (tiedSet m policy.allowLossy args overloads)) := by
  subst hpolicy
  have huni : ¬Uniform (tied m r.policy.allowLossy args overloads) :=
    fun huni => hne (uniform_tied_iff.1 huni sig sig' hsig hsig')
  have hlost : ¬(r.policy.asymmetric = true ∧
      ∃ d, OnlyCostliest m args (tied m r.policy.allowLossy args overloads) d) := by
    rintro ⟨hasym, d, hd⟩
    obtain ⟨hwins, honce⟩ := (onlyCostliest_tied_iff huni).1 ⟨d, hd, rfl⟩
    exact hnone hasym d.1 hwins honce
  unfold tiedSet
  cases hT : tied m r.policy.allowLossy args overloads with
  | nil => exact absurd hsig (tied_eq_nil_iff.1 hT sig)
  | cons c rest =>
    rw [resolve_of_ambiguous h hargs hlen hov hT (hT ▸ huni) (hT ▸ hlost)]
    rfl

/-- The winner of a tie is taken if it is defined once; otherwise its copies leave the tie open. -/
private theorem verdict_of_contested {w : Signature} (hasym : policy.asymmetric = true)
    (hwins : WinsTie m policy.allowLossy args overloads w) :
    (r.resolve m name args).map verdict =
      .ok (if overloads.count w = 1 then .resolved w (m.ratingOf policy.allowLossy args w) true
        else .ambiguous (tiedSet m policy.allowLossy args overloads)) := by
  by_cases honce : overloads.count w = 1
  · rw [if_pos honce]
    exact verdict_of_winsTie hpolicy h hargs hlen hov hasym hwins honce
  · rw [if_neg honce]
    obtain ⟨sig, hsig, hne⟩ := hwins.contested
    refine verdict_of_no_winner hpolicy h hargs hlen hov hsig hwins.tied hne (fun _ w' hwins' => ?_)
    rwa [hwins'.unique hwins]

end Verdicts

private theorem exists_of_map_verdict_eq_ok {answer : Except Fault (Except Failure Resolution)} {v : Verdict}
    (h : answer.map verdict = .ok v) : ∃ a, answer = .ok a ∧ verdict a = v := by
  cases answer with
  | error f => cases h
  | ok a => exact ⟨a, rfl, Except.ok.inj h⟩

/-! ### Two resolvers -/

section Two

variable {r r' : Resolver} {policy : Policy} {name : String} {args : Signature} {overloads overloads' : List Signature}
  (hpolicy : r.policy = policy) (hpolicy' : r'.policy = policy) (h : r.overloads? name = some overloads)
  (h' : r'.overloads? name = some overloads') (hset : ∀ sig, sig ∈ overloads ↔ sig ∈ overloads')
  (hov : ∀ params ∈ overloads, params.Valid) (hargs : args.Valid) (hlen : args.length < UInt32.size)

include hpolicy hpolicy' h h' hset hov hargs hlen

private theorem verdict_eq_of_uncontested {m : Manager}
    (hone : ∀ sig sig', IsTied m policy.allowLossy args overloads sig → IsTied m policy.allowLossy args overloads sig' →
      sig = sig') :
    ∃ v, (r.resolve m name args).map verdict = .ok v ∧ (r'.resolve m name args).map verdict = .ok v := by
  have hov' : ∀ params ∈ overloads', params.Valid := fun params hmem => hov params ((hset params).2 hmem)
  have harity : ∀ sig, sig ∈ ofArity overloads args.length ↔ sig ∈ ofArity overloads' args.length :=
    mem_ofArity_congr hset _
  have htied : ∀ sig, IsTied m policy.allowLossy args overloads sig ↔ IsTied m policy.allowLossy args overloads' sig :=
    isTied_congr hset
  by_cases hnone : ∀ sig, sig ∉ ofArity overloads args.length
  · exact ⟨_, verdict_of_no_arity h hnone, verdict_of_no_arity h' (fun sig hsig => hnone sig ((harity sig).2 hsig))⟩
  · push Not at hnone
    obtain ⟨sig₀, hsig₀⟩ := hnone
    by_cases hany : ∃ sig, IsTied m policy.allowLossy args overloads sig
    · obtain ⟨sig, hsig⟩ := hany
      refine ⟨_, verdict_of_isTied_alone hpolicy h hargs hlen hov hsig (fun s hs => hone s sig hs hsig), ?_⟩
      exact verdict_of_isTied_alone hpolicy' h' hargs hlen hov' ((htied sig).1 hsig)
        (fun s hs => hone s sig ((htied s).2 hs) hsig)
    · push Not at hany
      refine ⟨_, verdict_of_not_isTied hpolicy h hargs hlen hov hsig₀ hany, ?_⟩
      simp only [harity]
      exact verdict_of_not_isTied hpolicy' h' hargs hlen hov' ((harity sig₀).1 hsig₀)
        (fun s hs => hany s ((htied s).2 hs))

/-- Where the policy names no winner, the set of signatures decides. -/
private theorem exists_common_verdict {m : Manager}
    (hlost : policy.asymmetric = true → ∀ w, ¬WinsTie m policy.allowLossy args overloads w) :
    ∃ v, (r.resolve m name args).map verdict = .ok v ∧ (r'.resolve m name args).map verdict = .ok v := by
  have hov' : ∀ params ∈ overloads', params.Valid := fun params hmem => hov params ((hset params).2 hmem)
  by_cases hone : ∀ sig sig', IsTied m policy.allowLossy args overloads sig →
      IsTied m policy.allowLossy args overloads sig' → sig = sig'
  · exact verdict_eq_of_uncontested hpolicy hpolicy' h h' hset hov hargs hlen hone
  · push Not at hone
    obtain ⟨sig, sig', hsig, hsig', hne⟩ := hone
    refine ⟨.ambiguous (tiedSet m policy.allowLossy args overloads), ?_, ?_⟩
    · exact verdict_of_no_winner hpolicy h hargs hlen hov hsig hsig' hne
        (fun hasym w hwins => absurd hwins (hlost hasym w))
    · rw [tiedSet_congr hset]
      exact verdict_of_no_winner hpolicy' h' hargs hlen hov' ((isTied_congr hset sig).1 hsig)
        ((isTied_congr hset sig').1 hsig') hne
        (fun hasym w hwins => absurd ((winsTie_congr hset w).2 hwins) (hlost hasym w))

/-- Two resolvers of one policy that know the same signatures for a name agree on a call of it, unless the policy breaks
a tie in favour of a signature that one of them has once and the other has repeatedly. -/
theorem verdict_resolve_eq_iff (m : Manager) :
    ∃ a a', r.resolve m name args = .ok a ∧ r'.resolve m name args = .ok a' ∧
      (verdict a = verdict a' ↔ (policy.asymmetric = true → ∀ w, WinsTie m policy.allowLossy args overloads w →
        (overloads.count w = 1 ↔ overloads'.count w = 1))) := by
  have hov' : ∀ params ∈ overloads', params.Valid := fun params hmem => hov params ((hset params).2 hmem)
  by_cases hwin : policy.asymmetric = true ∧ ∃ w, WinsTie m policy.allowLossy args overloads w
  · -- both take the winner or both leave the tie open, unless only one of them defines it once
    obtain ⟨hasym, w, hwins⟩ := hwin
    have hv := verdict_of_contested hpolicy h hargs hlen hov hasym hwins
    have hv' := verdict_of_contested hpolicy' h' hargs hlen hov' hasym ((winsTie_congr hset w).1 hwins)
    rw [← tiedSet_congr hset] at hv'
    obtain ⟨a, ha, hva⟩ := exists_of_map_verdict_eq_ok hv
    obtain ⟨a', ha', hva'⟩ := exists_of_map_verdict_eq_ok hv'
    refine ⟨a, a', ha, ha', ?_⟩
    have hall : (policy.asymmetric = true → ∀ w', WinsTie m policy.allowLossy args overloads w' →
        (overloads.count w' = 1 ↔ overloads'.count w' = 1)) ↔ (overloads.count w = 1 ↔ overloads'.count w = 1) := by
      constructor
      · exact fun hall => hall hasym w hwins
      · intro hw _ w' hwins'
        rwa [hwins'.unique hwins]
    rw [hall, hva, hva']
    by_cases honce : overloads.count w = 1 <;> by_cases honce' : overloads'.count w = 1 <;> simp [honce, honce']
  · have hlost : policy.asymmetric = true → ∀ w, ¬WinsTie m policy.allowLossy args overloads w :=
      fun hasym w hwins => hwin ⟨hasym, w, hwins⟩
    obtain ⟨v, hv, hv'⟩ := exists_common_verdict hpolicy hpolicy' h h' hset hov hargs hlen hlost
    obtain ⟨a, ha, rfl⟩ := exists_of_map_verdict_eq_ok hv
    obtain ⟨a', ha', hva'⟩ := exists_of_map_verdict_eq_ok hv'
    exact ⟨a, a', ha, ha', iff_of_true hva'.symm (fun hasym w hwins => absurd hwins (hlost hasym w))⟩

end Two

/-! ### A tie with copies -/

/-- Two overloads that tie, in two orders, the loser of the tie copied. -/
theorem verdict_of_loser_defined_twice :
    ∃ a a', (build { asymmetric := true } none [("f", [[⟨1⟩, ⟨2⟩], [⟨2⟩, ⟨1⟩]])]).resolve Manager.oneToTwo "f"
        [⟨0⟩, ⟨0⟩] = .ok a ∧
      (build { asymmetric := true } none [("f", [[⟨2⟩, ⟨1⟩], [⟨1⟩, ⟨2⟩], [⟨1⟩, ⟨2⟩]])]).resolve Manager.oneToTwo "f"
        [⟨0⟩, ⟨0⟩] = .ok a' ∧ verdict a = verdict a' := by
  have hov : ∀ params ∈ ([[⟨1⟩, ⟨2⟩], [⟨2⟩, ⟨1⟩]] : List Signature), params.Valid := by
    unfold Signature.Valid
    decide
  have hargs : Signature.Valid [⟨0⟩, ⟨0⟩] := by unfold Signature.Valid; decide
  have hset : ∀ sig, sig ∈ ([[⟨1⟩, ⟨2⟩], [⟨2⟩, ⟨1⟩]] : List Signature) ↔
      sig ∈ ([[⟨2⟩, ⟨1⟩], [⟨1⟩, ⟨2⟩], [⟨1⟩, ⟨2⟩]] : List Signature) := by
    intro sig
    simp only [List.mem_cons, List.not_mem_nil, or_false]
    tauto
  obtain ⟨a, a', ha, ha', hiff⟩ := verdict_resolve_eq_iff
    (policy_build { asymmetric := true } none _) (policy_build { asymmetric := true } none _)
    (overloads?_build { asymmetric := true } none [("f", [[⟨1⟩, ⟨2⟩], [⟨2⟩, ⟨1⟩]])] "f")
    (overloads?_build { asymmetric := true } none [("f", [[⟨2⟩, ⟨1⟩], [⟨1⟩, ⟨2⟩], [⟨1⟩, ⟨2⟩]])] "f")
    hset hov hargs (by decide) Manager.oneToTwo
  refine ⟨a, a', ha, ha', hiff.2 (fun _ w hwins => ?_)⟩
  have hother : IsTied Manager.oneToTwo false [⟨0⟩, ⟨0⟩] [[⟨1⟩, ⟨2⟩], [⟨2⟩, ⟨1⟩]] [⟨2⟩, ⟨1⟩] := by
    unfold IsTied
    decide
  rcases List.mem_pair.1 (mem_ofArity.1 hwins.tied.1).1 with rfl | rfl
  · exact absurd (hwins.costlier _ hother (by decide)) (by decide)
  · decide

/-- The winner of a tie, defined a second time, no longer wins. -/
theorem resolve_winner_defined_twice :
    (build { asymmetric := true } none [("f", [[⟨1⟩, ⟨2⟩], [⟨2⟩, ⟨1⟩]])]).resolve Manager.oneToTwo "f" [⟨0⟩, ⟨0⟩] =
        .ok (.ok ⟨"f", 1, [⟨2⟩, ⟨1⟩], ⟨1, 1, 0⟩, true⟩) ∧
      (build { asymmetric := true } none [("f", [[⟨1⟩, ⟨2⟩], [⟨2⟩, ⟨1⟩]]), ("f", [[⟨2⟩, ⟨1⟩]])]).resolve
          Manager.oneToTwo "f" [⟨0⟩, ⟨0⟩] =
        .ok (.error (.ambiguous "f" [⟨0⟩, ⟨0⟩] [([⟨1⟩, ⟨2⟩], 0), ([⟨2⟩, ⟨1⟩], 1), ([⟨2⟩, ⟨1⟩], 2)])) := by
  constructor
  · rfl
  · rfl

end Resolver

end Coercion
