import Coercion.Proofs.Graph.Closedness
import Coercion.Proofs.Graph.DeclarationOrder
import Coercion.Proofs.Graph.Points

/-!
# Replaying the writes of a closure

The writes of a closure, made again one by one on the kinds from before it, give the kinds from after it, and each of
them says truly whether its pair had a kind (`recounted_close`).  So a pair gets its first kind once,
before any better one, and its kinds only get better (`Recounts.pairwise`).

The writes of a graph that came about by actions join its own types by conversions, so that the points which trace them
can be read (`WellFormed.legible_close`).
-/

namespace Coercion.Graph

variable {kinds : Pair → Option Kind} {writes : List Write} {w : Write} {s : Closing} {p : Pair}

/-! ### Writes on kinds -/

/-- The kinds after some writes. -/
def replay (kinds : Pair → Option Kind) (writes : List Write) : Pair → Option Kind :=
  writes.foldl (fun kinds w => Function.update kinds w.pair (some w.kind)) kinds

/-- A write fits the kinds that it finds: it is a first kind for its pair, or better than the kind held. -/
def Write.Fits (kinds : Pair → Option Kind) (w : Write) : Prop :=
  match kinds w.pair with
  | none => w.fresh = true
  | some held => w.fresh = false ∧ w.kind.code < held.code

/-- Each of some writes fits what those before it leave. -/
def Recounts (kinds : Pair → Option Kind) : List Write → Prop
  | [] => True
  | w :: writes => w.Fits kinds ∧ Recounts (Function.update kinds w.pair (some w.kind)) writes

private theorem replay_concat (kinds : Pair → Option Kind) (writes : List Write) (w : Write) :
    replay kinds (writes ++ [w]) = Function.update (replay kinds writes) w.pair (some w.kind) := by
  simp only [replay, List.foldl_append, List.foldl_cons, List.foldl_nil]

private theorem Recounts.concat (h : Recounts kinds writes) (hw : w.Fits (replay kinds writes)) :
    Recounts kinds (writes ++ [w]) := by
  induction writes generalizing kinds with
  | nil => exact ⟨hw, trivial⟩
  | cons w' writes ih => exact ⟨h.1, ih h.2 hw⟩

/-- A pair that holds a kind gets better kinds only. -/
private theorem Recounts.fresh_eq_false_and_lt (h : Recounts kinds writes) {held : Kind} (hheld : kinds p = some held)
    (hw : w ∈ writes) (hpair : w.pair = p) : w.fresh = false ∧ w.kind.code < held.code := by
  induction writes generalizing kinds held with
  | nil => cases hw
  | cons w' writes ih =>
    obtain ⟨hfits, htail⟩ := h
    by_cases hp : w'.pair = p
    · -- the first write of the pair is better, and those after it are better still
      subst hp
      rw [Write.Fits, hheld] at hfits
      rcases List.mem_cons.1 hw with rfl | hw
      · exact hfits
      · obtain ⟨hfresh, hlt⟩ := ih htail (Function.update_self _ _ _) hw
        exact ⟨hfresh, Nat.lt_trans hlt hfits.2⟩
    · rcases List.mem_cons.1 hw with rfl | hw
      · exact absurd hpair hp
      · have hsame : Function.update kinds w'.pair (some w'.kind) p = some held := by
          rw [Function.update_of_ne (Ne.symm hp), hheld]
        exact ih htail hsame hw

/-- Of two writes to a pair, the later one is not its first, and gives it a better kind. -/
theorem Recounts.pairwise (h : Recounts kinds writes) :
    writes.Pairwise fun w w' => w.pair = w'.pair → w'.fresh = false ∧ w'.kind.code < w.kind.code := by
  induction writes generalizing kinds with
  | nil => exact List.Pairwise.nil
  | cons w writes ih =>
    refine List.Pairwise.cons ?_ (ih h.2)
    intro w' hw' hpair
    exact h.2.fresh_eq_false_and_lt (Function.update_self _ _ _) hw' hpair.symm

/-! ### The log of a closure -/

/-- An offer that changes a closure logs one write, which fits what the pair held and is what it holds then. -/
private theorem relax_eq_self_or_write (s : Closing) (p : Pair) (a : Kind) :
    relax s p a = s ∨ ∃ fresh, (relax s p a).log = ⟨p, a, fresh⟩ :: s.log ∧
      Write.Fits (kindsOf s.rel) ⟨p, a, fresh⟩ ∧
      kindsOf (relax s p a).rel = Function.update (kindsOf s.rel) p (some a) := by
  have hkinds : ∀ r, (∀ q, (relax s p a).rel q = if p = q then some r else s.rel q) → r.kind = a →
      kindsOf (relax s p a).rel = Function.update (kindsOf s.rel) p (some a) := by
    intro r hrel hkind
    funext q
    unfold kindsOf
    rw [hrel]
    by_cases hpq : p = q
    · subst hpq
      rw [if_pos rfl, Function.update_self, Option.map_some, hkind]
    · rw [if_neg hpq, Function.update_of_ne (Ne.symm hpq)]
  have hrel := relax_rel s p
  cases hheld : s.rel p with
  | none =>
    refine Or.inr ⟨true, ?_, ?_, hkinds _ (fun q => hrel q a) ?_⟩
    · rw [relax_log, hheld]
    · simp only [Write.Fits, kindsOf, hheld, Option.map_none]
    · rw [hheld]
      rfl
  | some r =>
    by_cases hlt : a.code < r.kind.code
    · refine Or.inr ⟨false, ?_, ?_, hkinds _ (fun q => hrel q a) ?_⟩
      · rw [relax_log, hheld]
        exact if_pos hlt
      · simpa only [Write.Fits, kindsOf, hheld, Option.map_some, true_and] using hlt
      · simp only [hheld, offered, if_pos hlt, kind_improve]
    · left
      have hread : s.relations[p]? = some r := hheld
      simp only [relax, hread, if_neg hlt]

/-- The log tells how the relations came about from some kinds. -/
structure Recounted (kinds : Pair → Option Kind) (s : Closing) : Prop where
  recounts : Recounts kinds s.log.reverse
  replay_eq : replay kinds s.log.reverse = kindsOf s.rel

private theorem Recounted.relax (h : Recounted kinds s) (p : Pair) (a : Kind) :
    Recounted kinds (Graph.relax s p a) := by
  rcases relax_eq_self_or_write s p a with hsame | ⟨fresh, hlog, hfits, hkinds⟩
  · rwa [hsame]
  · constructor
    · rw [hlog, List.reverse_cons]
      exact h.recounts.concat (h.replay_eq ▸ hfits)
    · rw [hlog, List.reverse_cons, replay_concat, h.replay_eq, hkinds]

theorem recounted_close (g : Graph) :
    Recounts g.kind? g.close.2 ∧ replay g.kind? g.close.2 = g.propagate.1.kind? := by
  have hstart : Recounted g.kind? ⟨g.relations, []⟩ := ⟨trivial, rfl⟩
  have hend := foldl_relaxThrough_induction (fun _ p a h => h.relax p a) hstart g.sortedNodes g.sortedNodes
  exact ⟨hend.recounts, hend.replay_eq⟩

/-! ### Legible writes -/

/-- A closure of conversions whose log can be read from a trace. -/
structure Legible (s : Closing) : Prop where
  conversions : Conversions s.rel
  writes : ∀ w ∈ s.log, w.Legible

private theorem Legible.relax (h : Legible s) {p : Pair} {a : Kind} (hw : ∀ fresh, Write.Legible ⟨p, a, fresh⟩) :
    Legible (Graph.relax s p a) := by
  rcases relax_eq_self_or_write s p a with hsame | ⟨fresh, hlog, -, hkinds⟩
  · rwa [hsame]
  · constructor
    · intro q r hr
      have hq : kindsOf (Graph.relax s p a).rel q = some r.kind := by rw [kindsOf, hr, Option.map_some]
      rw [hkinds] at hq
      by_cases hpq : q = p
      · subst hpq
        rw [Function.update_self, Option.some.injEq] at hq
        exact hq ▸ (hw fresh).conversion
      · rw [Function.update_of_ne hpq, kindsOf, Option.map_eq_some_iff] at hq
        obtain ⟨held, hheld, hkind⟩ := hq
        exact hkind ▸ h.conversions q held hheld
    · rw [hlog]
      exact List.forall_mem_cons.2 ⟨hw fresh, h.writes⟩

private theorem Legible.foldl_relaxThrough (h : Legible s) {nodes : List TypeId} (hvalid : ∀ t ∈ nodes, t.valid = true)
    (ks : List TypeId) : Legible (ks.foldl (fun s k => relaxThrough nodes k s) s) := by
  refine List.foldlRecOn ks _ h fun s h k _ => List.foldlRecOn nodes _ h fun s h i hi => ?_
  split
  · exact h
  · split
    · exact h
    · rename_i first hfirst
      have hfirst' : first.kind.isConversion = true := h.conversions ⟨i, k⟩ first hfirst
      refine List.foldlRecOn nodes _ h fun s h j hj => ?_
      split
      · exact h
      · split
        · exact h
        · rename_i second hsecond
          have hsecond' : second.kind.isConversion = true := h.conversions ⟨k, j⟩ second hsecond
          refine h.relax fun fresh => ⟨hvalid i hi, hvalid j hj, ?_⟩
          rcases Kind.compose_eq_left_or_right first.kind second.kind with e | e
          · rwa [e]
          · rwa [e]

theorem WellFormed.legible_close {g : Graph} (hg : g.WellFormed) : ∀ w ∈ g.close.2, w.Legible := by
  have hstart : Legible ⟨g.relations, []⟩ := ⟨hg.conversions, fun w hw => absurd hw (List.not_mem_nil)⟩
  have hend := hstart.foldl_relaxThrough (fun t ht => hg.valid t (mem_sortedNodes.1 ht)) g.sortedNodes
  exact fun w hw => hend.writes w (List.mem_reverse.1 hw)

end Coercion.Graph
