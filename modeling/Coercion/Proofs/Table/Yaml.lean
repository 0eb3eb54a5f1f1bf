import Coercion.Table.Yaml
import Mathlib.Data.List.Forall2
import Mathlib.Data.List.Nodup

/-!
# Tables in YAML read back

If the nodes of a text are those that were written (`Layout.isReadAs`), then a table reads back from its text with its
aliases in order and all the lists that are written (`Table.laidOut`); unless it has no types, for which it is refused
(`ofYaml_toYaml`).
-/

namespace Coercion

namespace Yaml

/-! ### Nodes as they were written -/

/-- Whether a node is the text `s`: it has no tag, and stands between quotes unless a plain `s` is a text. -/
def Node.isText (s : String) : Node → Bool
  | .scalar text plain tag => text == s && tag == "" && (!plain || (ScalarType.ofPlain s == .text && s != "<<"))
  | _ => false

mutual

/-- Whether a node is what was written. -/
def Layout.isReadAs : Layout → Node → Bool
  | .text s, n => n.isText s
  | .list items, .sequence ns => itemsReadAs items ns
  | .record fs, .mapping es => fieldsReadAs fs es
  | _, _ => false

/-- Whether the entries of a sequence are what was written. -/
def itemsReadAs : List Layout → List Node → Bool
  | [], [] => true
  | i :: items, n :: ns => i.isReadAs n && itemsReadAs items ns
  | _, _ => false

/-- Whether the entries of a mapping are what was written. -/
def fieldsReadAs : List (String × Layout) → List (Node × Node) → Bool
  | [], [] => true
  | (k, v) :: fs, (kn, vn) :: es => kn.isText k && v.isReadAs vn && fieldsReadAs fs es
  | _, _ => false

end

private theorem itemsReadAs_iff {items : List Layout} {ns : List Node} :
    itemsReadAs items ns = true ↔ List.Forall₂ (fun i n => i.isReadAs n = true) items ns := by
  induction items generalizing ns with
  | nil => cases ns <;> simp [itemsReadAs]
  | cons i items ih => cases ns <;> simp [itemsReadAs, ih]

/-- An entry of a mapping is what was written. -/
def FieldReadAs (f : String × Layout) (e : Node × Node) : Prop := e.1.isText f.1 = true ∧ f.2.isReadAs e.2 = true

private theorem fieldsReadAs_iff {fs : List (String × Layout)} {es : List (Node × Node)} :
    fieldsReadAs fs es = true ↔ List.Forall₂ FieldReadAs fs es := by
  induction fs generalizing es with
  | nil => cases es <;> simp [fieldsReadAs]
  | cons f fs ih => cases es <;> simp [fieldsReadAs, ih, FieldReadAs]

end Yaml

/-- A function with its list of overloads, which is always laid out. -/
def Overloaded.laidOut (f : Overloaded) : Overloaded := { f with overloads? := some f.overloads }

namespace Table

open Yaml (Node Layout ScalarType FieldReadAs)

/-! ### Values -/

variable {n : Node} {s : String}

private theorem exists_eq_scalar_of_isText (h : n.isText s = true) :
    ∃ plain, n = .scalar s plain "" ∧ (plain = true → ScalarType.ofPlain s = .text ∧ s ≠ "<<") := by
  cases n with
  | scalar text plain tag =>
    simp only [Node.isText, Bool.and_eq_true, beq_iff_eq, Bool.or_eq_true, Bool.not_eq_true', bne_iff_ne] at h
    obtain ⟨⟨rfl, rfl⟩, h⟩ := h
    exact ⟨plain, rfl, fun hplain => h.resolve_left (by simp [hplain])⟩
  | _ => cases h

private theorem nodeText_of_isText (h : n.isText s = true) : nodeText n = some (some s) := by
  obtain ⟨plain, rfl, hplain⟩ := exists_eq_scalar_of_isText h
  cases plain with
  | false => simp [nodeText, deref, scalarText]
  | true =>
    obtain ⟨htype, hmerge⟩ := hplain rfl
    simp [nodeText, deref, scalarText, htype, hmerge]

private theorem isMergeKey_of_isText (h : n.isText s = true) : isMergeKey n = false := by
  obtain ⟨plain, rfl, hplain⟩ := exists_eq_scalar_of_isText h
  unfold isMergeKey
  split
  · rename_i heq
    simp_all
  · rename_i heq
    simp_all
  · rfl

private theorem keyMark_of_isText (h : n.isText s = true) : keyMark n = (0, s) := by
  obtain ⟨plain, rfl, -⟩ := exists_eq_scalar_of_isText h
  rfl

private theorem mapM_eq_some {α β γ : Type} {f : β → Option γ} {g : α → γ} {as : List α} {bs : List β}
    (h : List.Forall₂ (fun a b => f b = some (g a)) as bs) : bs.mapM f = some (as.map g) := by
  induction h with
  | nil => rfl
  | cons hab _ ih =>
    rw [List.mapM_cons, hab, ih]
    rfl

/-- A sequence without nulls is a list. -/
private theorem nodeList_eq_some {α β : Type} {item : Node → Option (Option β)} {g : α → β} {as : List α}
    {ns : List Node} (h : List.Forall₂ (fun a n => item n = some (some (g a))) as ns) :
    nodeList item (.sequence ns) = some (some (as.map g)) := by
  simp [nodeList, deref, mapM_eq_some (g := fun a => some (g a)) h]

/-! ### Mappings -/

/-- Keys that are texts are read, and stand with their values in order. -/
private theorem exists_mapM_nodeText {ks : List String} {es : List (Node × Node)}
    (h : List.Forall₂ (fun k e => e.1.isText k = true) ks es) :
    ∃ own, es.mapM (fun (k, v) => (nodeText k).map fun s => (k, s, v)) = some own ∧
      (own.filterMap fun x => x.2.1.map fun s => (s, x.2.2, isTextKey x.1)).map (fun x => (x.1, x.2.1)) =
        ks.zip (es.map Prod.snd) := by
  induction h with
  | nil => exact ⟨[], rfl, rfl⟩
  | @cons k e ks es hk _ ih =>
    obtain ⟨own, hmap, hfields⟩ := ih
    obtain ⟨kn, vn⟩ := e
    refine ⟨(kn, some k, vn) :: own, ?_, ?_⟩
    · simp [nodeText_of_isText hk, hmap]
    · simpa using hfields

/-- A mapping with different keys has its entries for fields. -/
private theorem fields_eq_some {ks : List String} {es : List (Node × Node)}
    (h : List.Forall₂ (fun k e => e.1.isText k = true) ks es) (hks : ks.Nodup) (fuel : Nat) :
    ∃ taken, fields (fuel + 1) none es = some (ks.zip (es.map Prod.snd), taken) := by
  have hmarks : (es.map fun e => keyMark e.1) = ks.map fun k => (0, k) := by
    clear hks
    induction h with
    | nil => rfl
    | cons hk _ ih => simp [keyMark_of_isText hk, ih]
  have hnodup : (es.map fun e => keyMark e.1).Nodup := by
    rw [hmarks]
    exact List.Nodup.map (fun a b hab => (Prod.mk.inj hab).2) hks
  -- nothing is merged from elsewhere: a key `<<` is written between quotes
  have hmerge : ∀ e ∈ es, isMergeKey e.1 = false := by
    clear hks hmarks hnodup
    induction h with
    | nil => simp
    | cons hk _ ih => exact List.forall_mem_cons.2 ⟨isMergeKey_of_isText hk, ih⟩
  have hown : (es.filter fun e => !isMergeKey e.1) = es :=
    List.filter_eq_self.2 fun e he => by simp [hmerge e he]
  have hnone : (es.find? fun e => isMergeKey e.1) = none :=
    List.find?_eq_none.2 fun e he => by simp [hmerge e he]
  obtain ⟨own, hmap, hfields⟩ := exists_mapM_nodeText h
  unfold fields
  simp only [hnodup, hown, hmap, hnone, decide_true, Bool.not_true, Bool.false_eq_true, ↓reduceIte,
    Option.bind_eq_bind, Option.bind_some, hfields]
  exact ⟨_, rfl⟩

section Takes

variable {α : Type} {put : α → String → Node → Option α} {a b c : α} {f : String × Layout} {fs : List (String × Layout)}

/-- From `a`, the fields of a record are taken in up to `b`. -/
def Takes (put : α → String → Node → Option α) (a : α) (fs : List (String × Layout)) (b : α) : Prop :=
  ∀ es, List.Forall₂ FieldReadAs fs es →
    ((fs.map Prod.fst).zip (es.map Prod.snd)).foldlM (fun a e => put a e.1 e.2) a = some b

private theorem takes_nil : Takes put a [] a := fun _ _ => rfl

private theorem Takes.cons (h : Takes put b fs c) (hput : ∀ n, f.2.isReadAs n = true → put a f.1 n = some b) :
    Takes put a (f :: fs) c := by
  rintro _ (_ | ⟨hf, hes⟩)
  simp only [List.map_cons, List.zip_cons_cons, List.foldlM_cons, hput _ hf.2]
  exact h _ hes

/-- A field may be left out if it would change nothing. -/
private theorem Takes.optional (h : Takes put b fs c) {omitted : Prop} [Decidable omitted] (homitted : omitted → b = a)
    (hput : ¬omitted → ∀ n, f.2.isReadAs n = true → put a f.1 n = some b) :
    Takes put a ((if omitted then [] else [f]) ++ fs) c := by
  split_ifs with hom
  · rw [← homitted hom]
    exact h
  · exact h.cons (hput hom)

/-- A record takes in its fields, which have different names. -/
private theorem Takes.nodeRecord (h : Takes put a fs b) (hfs : (fs.map Prod.fst).Nodup) {es : List (Node × Node)}
    (hes : List.Forall₂ FieldReadAs fs es) (fuel : Nat) :
    nodeRecord (fuel + 1) a put (.mapping es) = some (some b) := by
  have hkeys : List.Forall₂ (fun k e => e.1.isText k = true) (fs.map Prod.fst) es :=
    List.forall₂_map_left_iff.2 (hes.imp fun _ _ h => h.1)
  obtain ⟨taken, hfields⟩ := fields_eq_some hkeys hfs fuel
  have hnames : (((fs.map Prod.fst).zip (es.map Prod.snd)).map fun e => e.1) = fs.map Prod.fst := by
    rw [List.map_fst_zip]
    simp [hes.length_eq]
  simp only [Table.nodeRecord, deref, Option.bind_eq_bind, Option.bind_some, hfields, hnames, hfs, h es hes,
    decide_true, Bool.not_true, Bool.false_eq_true, ↓reduceIte]
  rfl

end Takes

/-- A mapping of texts with different keys is a map. -/
private theorem nodeMap_eq_some {as : List (String × String)} {es : List (Node × Node)}
    (h : List.Forall₂ (fun a e => e.1.isText a.1 = true ∧ e.2.isText a.2 = true) as es) (has : (as.map Prod.fst).Nodup)
    (fuel : Nat) : nodeMap (fuel + 1) (.mapping es) = some (some as) := by
  have hkeys : List.Forall₂ (fun k e => e.1.isText k = true) (as.map Prod.fst) es :=
    List.forall₂_map_left_iff.2 (h.imp fun _ _ h => h.1)
  obtain ⟨taken, hfields⟩ := fields_eq_some hkeys has fuel
  have hfold : ∀ acc : List (String × String), (acc.map Prod.fst ++ as.map Prod.fst).Nodup →
      ((as.map Prod.fst).zip (es.map Prod.snd)).foldlM
        (fun acc (e : String × Node) => do
          let s := (← nodeText e.2).getD ""
          return if acc.any (·.1 == e.1) then acc.map fun a => if a.1 = e.1 then (e.1, s) else a else acc ++ [(e.1, s)])
        acc = some (acc ++ as) := by
    clear hkeys has hfields
    induction h with
    | nil => simp
    | @cons a e as es hae _ ih =>
      intro acc hacc
      have hnew : acc.any (·.1 == a.1) = false := by
        rw [List.map_cons, List.nodup_append] at hacc
        rw [List.any_eq_false]
        intro b hb hba
        exact hacc.2.2 b.1 (List.mem_map_of_mem hb) a.1 List.mem_cons_self (by simpa using hba)
      have hrest := ih (acc ++ [a]) (by simpa using hacc)
      simp only [List.map_cons, List.zip_cons_cons, List.foldlM_cons, nodeText_of_isText hae.2, hnew]
      simpa using hrest
  have hall := hfold [] (by simpa using has)
  simp only [Option.bind_eq_bind, List.nil_append] at hall
  simp only [nodeMap, deref, Option.bind_eq_bind, Option.bind_some, hfields, hall]
  rfl

/-! ### Layouts -/

/-- A list of texts as it is laid out. -/
def textsLayout (l : List String) : Layout := .list (l.map .text)

/-- A conversion as it is laid out. -/
def ruleLayout (r : Rule) : List (String × Layout) :=
  [("from", .text r.source), ("to", .text r.target), ("kind", .text r.kind)] ++
    if r.reverse = "" then [] else [("reverse", .text r.reverse)]

/-- A function as it is laid out. -/
def functionLayout (f : Overloaded) : List (String × Layout) :=
  [("name", .text f.name), ("overloads", textsLayout f.overloads)]

/-- The aliases in the order in which they are laid out. -/
def naturalAliases (t : Table) : List (String × String) := t.aliases.mergeSort fun a b => !Text.naturalLt b.1 a.1

private theorem layout_eq (t : Table) : t.layout =
    [("name", .text t.name), ("types", textsLayout t.types)] ++
      (if t.naturalAliases.isEmpty then [] else
        [("aliases", .record (t.naturalAliases.map fun (k, v) => (k, .text v)))]) ++
      [("rules", .list (t.rules.map fun r => .record (ruleLayout r)))] ++
      if t.functions.isEmpty then [] else
        [("functions", .list (t.functions.map fun f => .record (functionLayout f)))] :=
  rfl

private theorem exists_eq_sequence {items : List Layout} (h : (Layout.list items).isReadAs n = true) :
    ∃ ns, n = .sequence ns ∧ List.Forall₂ (fun i n => i.isReadAs n = true) items ns := by
  cases n with
  | sequence ns => exact ⟨ns, rfl, Yaml.itemsReadAs_iff.1 (by simpa [Layout.isReadAs] using h)⟩
  | _ => simp [Layout.isReadAs] at h

private theorem exists_eq_mapping {fs : List (String × Layout)} (h : (Layout.record fs).isReadAs n = true) :
    ∃ es, n = .mapping es ∧ List.Forall₂ FieldReadAs fs es := by
  cases n with
  | mapping es => exact ⟨es, rfl, Yaml.fieldsReadAs_iff.1 (by simpa [Layout.isReadAs] using h)⟩
  | _ => simp [Layout.isReadAs] at h

private theorem isText_of_isReadAs (h : (Layout.text s).isReadAs n = true) : n.isText s = true := by
  simpa [Layout.isReadAs] using h

/-- A list of things that are each read as `g` of them. -/
private theorem nodeList_of_isReadAs {α β : Type} {item : Node → Option (Option β)} {g : α → β} {layout : α → Layout}
    (hitem : ∀ a n, (layout a).isReadAs n = true → item n = some (some (g a))) {as : List α}
    (h : (Layout.list (as.map layout)).isReadAs n = true) : nodeList item n = some (some (as.map g)) := by
  obtain ⟨ns, rfl, hns⟩ := exists_eq_sequence h
  rw [List.forall₂_map_left_iff] at hns
  exact nodeList_eq_some (hns.imp hitem)

private theorem nodeList_texts {l : List String} (h : (textsLayout l).isReadAs n = true) :
    nodeList nodeText n = some (some l) := by
  simpa using nodeList_of_isReadAs (g := id) (fun _ _ h => nodeText_of_isText (isText_of_isReadAs h)) h

private theorem ruleOfNode_eq_some {r : Rule} (h : (Layout.record (ruleLayout r)).isReadAs n = true) (fuel : Nat) :
    ruleOfNode (fuel + 1) n = some (some r) := by
  obtain ⟨es, rfl, hes⟩ := exists_eq_mapping h
  have hnames : ((ruleLayout r).map Prod.fst).Nodup := by
    simp only [ruleLayout]
    split_ifs <;> simp
  refine Takes.nodeRecord ?_ hnames hes fuel
  rw [ruleLayout, ← List.append_nil (ite _ _ _)]
  refine Takes.cons (b := { source := r.source }) ?_ fun n h => ?source
  refine Takes.cons (b := { source := r.source, target := r.target }) ?_ fun n h => ?target
  refine Takes.cons (b := { r with reverse := "" }) ?_ fun n h => ?kind
  refine takes_nil.optional (fun hempty => by rw [← hempty]) fun _ n h => ?reverse
  all_goals simp [nodeText_of_isText (isText_of_isReadAs h)]

private theorem functionOfNode_eq_some {f : Overloaded} (h : (Layout.record (functionLayout f)).isReadAs n = true)
    (fuel : Nat) : functionOfNode (fuel + 1) n = some (some f.laidOut) := by
  obtain ⟨es, rfl, hes⟩ := exists_eq_mapping h
  refine Takes.nodeRecord ?_ (by simp [functionLayout]) hes fuel
  refine Takes.cons (b := { name := f.name }) (Takes.cons takes_nil fun n h => ?_) fun n h => ?_
  · simp [nodeList_texts h, Overloaded.laidOut]
  · simp [nodeText_of_isText (isText_of_isReadAs h)]

private theorem nodeMap_of_isReadAs {as : List (String × String)} (has : (as.map Prod.fst).Nodup)
    (h : (Layout.record (as.map fun a => (a.1, .text a.2))).isReadAs n = true) (fuel : Nat) :
    nodeMap (fuel + 1) n = some (some as) := by
  obtain ⟨es, rfl, hes⟩ := exists_eq_mapping h
  rw [List.forall₂_map_left_iff] at hes
  exact nodeMap_eq_some (hes.imp fun _ _ h => ⟨h.1, isText_of_isReadAs h.2⟩) has fuel

/-- A list that is laid out only if it has entries. -/
def unlessEmpty {α : Type} (l : List α) : Option (List α) := if l.isEmpty then none else some l

theorem getD_unlessEmpty {α : Type} (l : List α) : (unlessEmpty l).getD [] = l := by
  cases l <;> rfl

/-- A table with the lists that are laid out. -/
def laidOut (t : Table) : Table where
  name := t.name
  types? := some t.types
  aliases? := unlessEmpty t.naturalAliases
  rules? := some t.rules
  functions? := unlessEmpty (t.functions.map Overloaded.laidOut)

theorem types_laidOut (t : Table) : t.laidOut.types = t.types := rfl

private theorem ofNode_eq_some {t : Table} (ht : (t.aliases.map Prod.fst).Nodup)
    (h : (Layout.record t.layout).isReadAs n = true) (fuel : Nat) :
    ofNode (fuel + 1) n = some (some t.laidOut) := by
  have haliases : (t.naturalAliases.map Prod.fst).Nodup := ((List.mergeSort_perm _ _).map _).nodup_iff.2 ht
  obtain ⟨es, rfl, hes⟩ := exists_eq_mapping h
  have hnames : (t.layout.map Prod.fst).Nodup := by
    rw [layout_eq]
    split_ifs <;> simp
  refine Takes.nodeRecord ?_ hnames hes fuel
  rw [layout_eq, ← List.append_nil (ite (t.functions.isEmpty = true) _ _), List.append_assoc, List.append_assoc]
  refine Takes.cons (b := { name := t.name }) ?_ fun n h => ?name
  refine Takes.cons (b := { name := t.name, types? := some t.types }) ?_ fun n h => ?types
  refine Takes.optional (b := { name := t.name, types? := some t.types, aliases? := t.laidOut.aliases? }) ?_
    (fun hnone => by simp [laidOut, unlessEmpty, hnone]) fun hsome n h => ?aliases
  refine Takes.cons (b := { t.laidOut with functions? := none }) ?_ fun n h => ?rules
  refine takes_nil.optional (fun hnone => by simp [laidOut, unlessEmpty, hnone]) fun hsome n h => ?functions
  case name => simp [nodeText_of_isText (isText_of_isReadAs h)]
  case types => simp [nodeList_texts h]
  case aliases => simp [nodeMap_of_isReadAs haliases h, laidOut, unlessEmpty, hsome]
  case rules => simp [nodeList_of_isReadAs (g := id) (fun r n h => ruleOfNode_eq_some h fuel) h, laidOut]
  case functions =>
    simp [nodeList_of_isReadAs (fun f n h => functionOfNode_eq_some h fuel) h, laidOut, unlessEmpty, hsome]

/-- A table reads back from what is written of it, with its aliases in order, if it has types.  This rests on nodes that
are read as they were written. -/
theorem ofYaml_toYaml {t : Table} (ht : (t.aliases.map Prod.fst).Nodup) (hparse : Node.parse t.toYaml = some n)
    (hn : (Layout.record t.layout).isReadAs n = true) :
    ofYaml t.toYaml =
      if t.types = [] then .error .missingTypes else .ok t.laidOut := by
  simp only [ofYaml, hparse, Option.bind_some, ofNode_eq_some ht hn, Option.getD_some, List.isEmpty_iff, types_laidOut]

end Table

end Coercion
