import Coercion.Proofs.Selection.Positions
import Coercion.Resolver
import Mathlib.Data.List.Induction
import Mathlib.Data.List.Lex

/-!
# Breaking ties

Under the asymmetric policy, candidates that tie are told apart by the costs of their positions, read from the first
position on: `Manager.weights`, compared lexicographically.

The search keeps the costliest candidate so far and whether it stands alone (`Leads`, kept by a step in
`Leads.challenge`).  So a tie is broken in favour of a candidate exactly if it is the only costliest one
(`breakTie_eq_ok`).
-/

namespace Coercion

namespace Resolver

/-! ### Positions one by one -/

private theorem compares_cons {α : Type} [LinearOrder α] {o o' : Ordering} {a b : α} {as bs : List α}
    (h : o.Compares a b) (h' : o'.Compares as bs) : (o.then o').Compares (a :: as) (b :: bs) := by
  cases o with
  | lt => exact List.cons_lt_cons_iff.2 (Or.inl h)
  | gt => exact List.cons_lt_cons_iff.2 (Or.inl h)
  | eq =>
    obtain rfl : a = b := h
    cases o' with
    | lt => exact List.cons_lt_cons_iff.2 (Or.inr ⟨rfl, h'⟩)
    | gt => exact List.cons_lt_cons_iff.2 (Or.inr ⟨rfl, h'⟩)
    | eq => exact congrArg (a :: ·) h'

private theorem compares_comparePositions {as bs : List Rating} (hlen : as.length = bs.length) :
    (comparePositions as bs).Compares (as.map Rating.cost) (bs.map Rating.cost) := by
  induction as generalizing bs with
  | nil =>
    obtain rfl : bs = [] := List.length_eq_zero_iff.1 hlen.symm
    rfl
  | cons a as ih =>
    obtain _ | ⟨b, bs⟩ := bs
    · simp at hlen
    · exact compares_cons (Rating.compares_cost a b) (ih (by simpa using hlen))

/-! ### The costliest of tied candidates -/

/-- A candidate is among the costliest of a list. -/
def Costliest (m : Manager) (args : Signature) (cs : List Candidate) (c : Candidate) : Prop :=
  c ∈ cs ∧ ∀ c' ∈ cs, m.weights args c'.1 ≤ m.weights args c.1

/-- A candidate is the costliest of a list, and no other is as costly. -/
def OnlyCostliest (m : Manager) (args : Signature) (cs : List Candidate) (c : Candidate) : Prop :=
  ∀ c', Costliest m args cs c' ↔ c' = c

theorem OnlyCostliest.exists_and_iff {m : Manager} {args : Signature} {cs : List Candidate} {c : Candidate}
    (h : OnlyCostliest m args cs c) (P : Candidate → Prop) : (∃ d, OnlyCostliest m args cs d ∧ P d) ↔ P c := by
  constructor
  · rintro ⟨d, hd, hP⟩
    obtain rfl : c = d := (hd c).1 ((h c).2 rfl)
    exact hP
  · exact fun hP => ⟨c, h, hP⟩

/-- What the search knows after the candidates of a list. -/
structure Leads (m : Manager) (args : Signature) (cs : List Candidate) (l : Leader) : Prop where
  costliest : Costliest m args cs l.candidate
  rates : l.rates = m.rates args l.candidate.1
  alone : l.alone = true ↔ ∀ c, Costliest m args cs c → c = l.candidate

section Search

variable {m : Manager} {allowLossy : Bool} {args : Signature}

/-- One more candidate: it is the only costliest one, or one of them, or none of them. -/
private theorem costliest_append_iff {cs : List Candidate} {b : Candidate} (hb : Costliest m args cs b)
    (c c' : Candidate) :
    Costliest m args (cs ++ [c]) c' ↔
      (m.weights args b.1 ≤ m.weights args c.1 ∧ c' = c) ∨
        (m.weights args c.1 ≤ m.weights args b.1 ∧ Costliest m args cs c') := by
  constructor
  · rintro ⟨hmem, hall⟩
    obtain ⟨hmax, hlast⟩ := List.forall_mem_append.1 hall
    rcases List.mem_append.1 hmem with hmem | hmem
    · exact Or.inr ⟨(hlast c (by simp)).trans (hb.2 c' hmem), hmem, hmax⟩
    · obtain rfl := List.mem_singleton.1 hmem
      exact Or.inl ⟨hmax b hb.1, rfl⟩
  · rintro (⟨hle, rfl⟩ | ⟨hle, hmem, hmax⟩)
    · refine ⟨by simp, List.forall_mem_append.2 ⟨fun c' hc' => (hb.2 c' hc').trans hle, ?_⟩⟩
      exact List.forall_mem_singleton.2 le_rfl
    · refine ⟨List.mem_append_left _ hmem, List.forall_mem_append.2 ⟨hmax, ?_⟩⟩
      exact List.forall_mem_singleton.2 (hle.trans (hmax b hb.1))

private theorem leads_singleton (m : Manager) (args : Signature) (c : Candidate) :
    Leads m args [c] (challenge none c (m.rates args c.1)) where
  costliest := ⟨List.mem_singleton_self c, fun c' hc' => by rw [List.mem_singleton.1 hc']; exact le_rfl⟩
  rates := rfl
  alone := by
    refine iff_of_true rfl (fun c' hc' => ?_)
    exact List.mem_singleton.1 hc'.1

private theorem compares_weights {c c' : Candidate} (hlen : c.1.length = args.length)
    (hlen' : c'.1.length = args.length) :
    (comparePositions (m.rates args c.1) (m.rates args c'.1)).Compares (m.weights args c.1) (m.weights args c'.1) := by
  rw [← m.map_cost_rates, ← m.map_cost_rates]
  apply compares_comparePositions
  rw [Manager.length_rates hlen, Manager.length_rates hlen']

theorem Leads.challenge {cs : List Candidate} {l : Leader} (h : Leads m args cs l) {c : Candidate} (hc : c ∉ cs)
    (hlen : ∀ c' ∈ cs ++ [c], c'.1.length = args.length) :
    Leads m args (cs ++ [c]) (Resolver.challenge (some l) c (m.rates args c.1)) := by
  have hlast : c ∈ cs ++ [c] := by simp
  have hlead : l.candidate ∈ cs ++ [c] := List.mem_append_left _ h.costliest.1
  have hcomp : (comparePositions (m.rates args c.1) l.rates).Compares (m.weights args c.1)
      (m.weights args l.candidate.1) := by
    rw [h.rates]
    exact compares_weights (hlen c hlast) (hlen _ hlead)
  have happend := costliest_append_iff h.costliest c
  cases ho : comparePositions (m.rates args c.1) l.rates with
  | gt =>
    have hlt := hcomp.eq_gt.1 ho
    have hiff (c' : Candidate) : Costliest m args (cs ++ [c]) c' ↔ c' = c := by
      rw [happend]
      simp [hlt.le, hlt.not_ge]
    simp only [Resolver.challenge, ho]
    exact ⟨(hiff c).2 rfl, rfl, iff_of_true rfl (fun c' => (hiff c').1)⟩
  | eq =>
    have heq := hcomp.eq_eq.1 ho
    have hiff (c' : Candidate) : Costliest m args (cs ++ [c]) c' ↔ c' = c ∨ Costliest m args cs c' := by
      rw [happend, heq]
      simp
    -- the new candidate is as costly as the leader and not the leader itself
    have hne : c ≠ l.candidate := fun hcl => hc (hcl ▸ h.costliest.1)
    simp only [Resolver.challenge, ho]
    refine ⟨(hiff _).2 (Or.inr h.costliest), h.rates, iff_of_false Bool.false_ne_true (fun hall => ?_)⟩
    exact hne (hall c ((hiff c).2 (Or.inl rfl)))
  | lt =>
    have hlt := hcomp.eq_lt.1 ho
    have hiff (c' : Candidate) : Costliest m args (cs ++ [c]) c' ↔ Costliest m args cs c' := by
      rw [happend]
      simp [hlt.le, hlt.not_ge]
    simp only [Resolver.challenge, ho]
    exact ⟨(hiff _).2 h.costliest, h.rates, by simp only [hiff]; exact h.alone⟩

private theorem exists_leads_foldl {cs : List Candidate} (hne : cs ≠ []) (hnodup : cs.Nodup)
    (hlen : ∀ c ∈ cs, c.1.length = args.length) :
    ∃ l, cs.foldl (fun l c => some (Resolver.challenge l c (m.rates args c.1))) none = some l ∧ Leads m args cs l := by
  induction cs using List.reverseRecOn with
  | nil => exact absurd rfl hne
  | append_singleton cs c ih =>
    obtain ⟨hnodup', -, hdisj⟩ := List.nodup_append.1 hnodup
    have hc : c ∉ cs := fun hmem => hdisj c hmem c (List.mem_singleton_self c) rfl
    rw [List.foldl_append, List.foldl_cons, List.foldl_nil]
    by_cases hcs : cs = []
    · subst hcs
      exact ⟨_, rfl, leads_singleton m args c⟩
    · obtain ⟨l, hl, hleads⟩ := ih hcs hnodup' (fun c' hc' => hlen c' (List.mem_append_left _ hc'))
      rw [hl]
      exact ⟨_, rfl, hleads.challenge hc hlen⟩

/-- Candidates that a call reaches: of valid types, as many as there are arguments, and admitted. -/
def Reached (m : Manager) (allowLossy : Bool) (args : Signature) (cs : List Candidate) : Prop :=
  ∀ c ∈ cs, c.1.Valid ∧ c.1.length = args.length ∧ m.Admits allowLossy args c.1

private theorem leaderOf_eq_ok (hargs : args.Valid) {cs : List Candidate} (hcs : Reached m allowLossy args cs) (n : Nat)
    (leader : Option Leader) :
    leaderOf (fun _ => m) allowLossy args n leader cs =
      .ok (cs.foldl (fun l c => some (Resolver.challenge l c (m.rates args c.1))) leader) := by
  induction cs generalizing n leader with
  | nil => rfl
  | cons c cs ih =>
    obtain ⟨⟨hvalid, hlen, hadm⟩, hrest⟩ := List.forall_mem_cons.1 hcs
    rw [leaderOf, m.rateArguments_eq_ok allowLossy hargs hvalid hlen, if_pos hadm]
    exact ih hrest (n + 1) _

/-- A tie is broken in favour of the only costliest candidate, if there is just one. -/
theorem breakTie_eq_ok (hargs : args.Valid) {cs : List Candidate} (hcs : Reached m allowLossy args cs) (hne : cs ≠ [])
    (hnodup : cs.Nodup) :
    ∃ w, breakTie (fun _ => m) allowLossy args cs = .ok w ∧
      ∀ c, w = some c ↔ OnlyCostliest m args cs c := by
  obtain ⟨l, hl, hleads⟩ := exists_leads_foldl (m := m) hne hnodup (fun c hc => (hcs c hc).2.1)
  refine ⟨if l.alone then some l.candidate else none, ?_, fun c => ?_⟩
  · unfold breakTie
    rw [leaderOf_eq_ok hargs hcs, hl]
    rfl
  · by_cases halone : l.alone = true
    · rw [if_pos halone, Option.some.injEq]
      have hsole := hleads.alone.1 halone
      constructor
      · rintro rfl c'
        exact ⟨hsole c', fun hc' => hc' ▸ hleads.costliest⟩
      · intro h
        exact (h l.candidate).1 hleads.costliest
    · rw [if_neg halone]
      refine iff_of_false (by simp) (fun h => halone (hleads.alone.2 (fun c' hc' => ?_)))
      rw [(h c').1 hc', (h l.candidate).1 hleads.costliest]

end Search

end Resolver

end Coercion
