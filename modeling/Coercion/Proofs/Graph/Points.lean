import Coercion.Graph.Closure
import Std.Data.String.ToNat

/-!
# Reading the points of a trace

A write of a closure is traced as a point: its name tells a first relation from a better one, its detail gives the pair
and the kind.  `Write.ofPoint?` reads a point back.  Types are written as a letter and a number, so a reader of a pair
sees where a type ends (`TypeId.read?_render`), and what is written of a conversion between valid types can be read
(`Write.ofPoint?_eq_some`).
-/

namespace Coercion

variable {t : TypeId} {p : Pair} {rest : List Char}

/-! ### Types and pairs -/

/-- Reads a type at the start of a text; also gives the rest of the text. -/
def TypeId.read? : List Char → Option (TypeId × List Char)
  | 'T' :: cs =>
    (String.ofList (cs.takeWhile Char.isDigit)).toNat?.map fun n : Nat =>
      (⟨Int32.ofInt n⟩, cs.dropWhile Char.isDigit)
  | _ => Option.none

/-- Reads a pair at the start of a text; also gives the rest of the text. -/
def Pair.read? (cs : List Char) : Option (Pair × List Char) :=
  match TypeId.read? cs with
  | some (source, '-' :: '>' :: cs) => (TypeId.read? cs).map fun (target, rest) => (⟨source, target⟩, rest)
  | _ => none

private theorem TypeId.exists_render_eq (h : t.valid = true) :
    ∃ n : Nat, t.id.toInt = n ∧ t.render = "T" ++ n.repr := by
  have hnonneg : 0 ≤ t.id.toInt := by
    have hle : (0 : Int32) ≤ t.id := of_decide_eq_true h
    rw [Int32.le_iff_toInt_le] at hle
    exact hle
  obtain ⟨n, hn⟩ := Int.eq_ofNat_of_zero_le hnonneg
  refine ⟨n, hn, ?_⟩
  rw [render, if_pos h, hn]
  rfl

/-- A type is read back from its text, if no digit follows. -/
theorem TypeId.read?_render (h : t.valid = true) (hrest : ∀ c ∈ rest.head?, c.isDigit = false) :
    read? (t.render.toList ++ rest) = some (t, rest) := by
  obtain ⟨n, hn, hrender⟩ := exists_render_eq h
  have hdigits : ∀ c ∈ Nat.toDigits 10 n, c.isDigit = true :=
    fun c hc => Nat.isDigit_of_mem_toDigits (by decide) (by decide) hc
  have hstop : rest.takeWhile Char.isDigit = [] ∧ rest.dropWhile Char.isDigit = rest := by
    cases rest with
    | nil => exact ⟨rfl, rfl⟩
    | cons c rest =>
      have hc : c.isDigit = false := hrest c rfl
      simp [hc]
  have htext : t.render.toList ++ rest = 'T' :: (Nat.toDigits 10 n ++ rest) := by
    rw [hrender, String.toList_append, Nat.toList_repr]
    rfl
  have htype : (⟨Int32.ofInt n⟩ : TypeId) = t := by
    rw [← hn, Int32.ofInt_toInt]
  simp only [htext, read?, List.takeWhile_append_of_pos hdigits, List.dropWhile_append_of_pos hdigits, hstop.1,
    hstop.2, List.append_nil, ← Nat.repr_eq_ofList_toDigits, Nat.toNat?_repr, Option.map_some, htype]

theorem Pair.read?_render (hsource : p.source.valid = true) (htarget : p.target.valid = true)
    (hrest : ∀ c ∈ rest.head?, c.isDigit = false) : read? (p.render.toList ++ rest) = some (p, rest) := by
  have htext : p.render.toList ++ rest =
      p.source.render.toList ++ '-' :: '>' :: (p.target.render.toList ++ rest) := by
    simp [render]
  have hdash : ∀ c ∈ ('-' :: '>' :: (p.target.render.toList ++ rest)).head?, c.isDigit = false := by
    intro c hc
    cases hc
    rfl
  simp only [htext, read?, TypeId.read?_render hsource hdash, TypeId.read?_render htarget hrest, Option.map_some]

/-! ### Writes -/

namespace Graph.Write

/-- What a write is called in a trace. -/
def label (w : Write) : String := if w.fresh then "derive" else "improve"

/-- What a trace tells about a write. -/
def detail (w : Write) : String := w.pair.render ++ " " ++ w.kind.name

/-- Reads a write from a point of a trace. -/
def ofPoint? (e : Trace.Event) : Option Write :=
  match Pair.read? e.detail.toList with
  | some (pair, ' ' :: name) =>
    match [Kind.promote, .safe, .lossy].find? fun k => k.name.toList = name with
    | some kind =>
      if e.name = "derive" then some ⟨pair, kind, true⟩
      else if e.name = "improve" then some ⟨pair, kind, false⟩
      else none
    | none => none
  | _ => none

/-- A write that joins valid types by a conversion. -/
structure Legible (w : Write) : Prop where
  source : w.pair.source.valid = true
  target : w.pair.target.valid = true
  conversion : w.kind.isConversion = true

private theorem find?_name {k : Kind} (h : k.isConversion = true) :
    ([Kind.promote, .safe, .lossy].find? fun k' => k'.name.toList = k.name.toList) = some k := by
  cases k with
  | promote => decide
  | safe => decide
  | lossy => decide
  | _ => cases h

theorem ofPoint?_eq_some {w : Write} (hw : w.Legible) {e : Trace.Event} (hname : e.name = w.label)
    (hdetail : e.detail = w.detail) : ofPoint? e = some w := by
  have htext : e.detail.toList = w.pair.render.toList ++ ' ' :: w.kind.name.toList := by
    rw [hdetail]
    simp [detail]
  have hspace : ∀ c ∈ (' ' :: w.kind.name.toList).head?, c.isDigit = false := by
    intro c hc
    cases hc
    rfl
  simp only [ofPoint?, htext, Pair.read?_render hw.source hw.target hspace, find?_name hw.conversion, hname, label]
  obtain ⟨p, k, fresh⟩ := w
  cases fresh <;> rfl

end Graph.Write

end Coercion
