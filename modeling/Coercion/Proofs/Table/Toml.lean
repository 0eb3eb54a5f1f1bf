import Coercion.Proofs.Toml.Outline
import Coercion.Table.Toml

/-!
# Tables in TOML read back

A table is written as an outline (`toToml_eq`), and what is read from the entries of that outline is the table, with its
aliases in order (`gives_readEntries`).  So a table reads back if its types are given, and is refused if they are not
(`ofToml_toToml`).
-/

namespace Coercion

/-! ### Readings -/

namespace Toml.Reading

variable {α β γ : Type}

/-- A reading that succeeds with `a`, and uses all of the given keys. -/
def Gives (r : Reading α) (a : α) (keys : List Key) : Prop :=
  ∀ used, ∃ used', r.run used = some (a, used') ∧ ∀ k, k ∈ used ∨ k ∈ keys → k ∈ used'

theorem gives_pure (a : α) : Gives (pure a) a [] := fun used => ⟨used, rfl, by simp⟩

theorem gives_use (key : Key) : Gives (modify (key :: ·)) () [key] := fun used => ⟨key :: used, rfl, by simp [or_comm]⟩

theorem gives_string (s : String) : Gives (string (.string s)) s [] := gives_pure s

private theorem Gives.mono {r : Reading α} {a : α} {ks ls : List Key} (hr : r.Gives a ks) (h : ∀ k ∈ ls, k ∈ ks) :
    r.Gives a ls := by
  intro used
  obtain ⟨used', hrun, hused⟩ := hr used
  exact ⟨used', hrun, fun k hk => hused k (hk.imp_right (h k))⟩

private theorem Gives.bind {r : Reading α} {f : α → Reading β} {a : α} {b : β} {ks ls : List Key} (hr : r.Gives a ks)
    (hf : (f a).Gives b ls) : Gives (r >>= f) b (ks ++ ls) := by
  intro used
  obtain ⟨used₁, hrun₁, hused₁⟩ := hr used
  obtain ⟨used₂, hrun₂, hused₂⟩ := hf used₁
  refine ⟨used₂, ?_, fun k hk => ?_⟩
  · rw [StateT.run_bind, hrun₁]
    exact hrun₂
  · rw [List.mem_append, ← or_assoc] at hk
    exact hused₂ k (hk.imp_left (hused₁ k))

private theorem Gives.map {r : Reading α} {a : α} {ks : List Key} (hr : r.Gives a ks) (f : α → β) :
    Gives (do return f (← r)) (f a) ks :=
  (hr.bind (gives_pure (f a))).mono (by simp)

theorem gives_mapM {f : α → Reading β} {v : γ → α} {b : γ → β} {ks : γ → List Key} {l : List γ}
    (h : ∀ c ∈ l, Gives (f (v c)) (b c) (ks c)) : Gives ((l.map v).mapM f) (l.map b) (l.flatMap ks) := by
  induction l with
  | nil => exact gives_pure []
  | cons c l ih =>
    obtain ⟨hc, hl⟩ := List.forall_mem_cons.1 h
    rw [List.map_cons, List.mapM_cons]
    exact (hc.bind (((ih hl).map (b c :: ·)))).mono (by simp)

theorem gives_strings (ss : List String) : Gives (list string (.array (ss.map .string))) ss [] := by
  have h := gives_mapM (f := string) (v := Value.string) (b := id) (l := ss) fun s _ => gives_string s
  rw [List.map_id] at h
  exact h.mono (by simp)

/-! ### Records -/

variable {path : Key} {fields : List String} {a b c : α} {put : α → String → Key → Value → Reading α}
  {es es' : Entries} {ks ls : List Key}

theorem gives_record_nil : Gives (record path fields a put (.table [])) a [] := gives_pure a

/-- A record takes in its entries one after the other. -/
private theorem Gives.record_append (h : Gives (record path fields a put (.table es)) b ks)
    (h' : Gives (record path fields b put (.table es')) c ls) :
    Gives (record path fields a put (.table (es ++ es'))) c (ks ++ ls) := by
  simp only [record, List.foldlM_append] at h h' ⊢
  exact h.bind h'

theorem Gives.record_singleton {k : String} {v : Value} (hput : Gives (put a k (path ++ [k]) v) b ks)
    (hk : field? fields k = some k) : Gives (record path fields a put (.table [(k, v)])) b ((path ++ [k]) :: ks) := by
  have huse := (gives_use (path ++ [k])).bind (f := fun _ => put a k (path ++ [k]) v) hput
  simp only [record, List.foldlM_cons, List.foldlM_nil, hk]
  exact (huse.bind (gives_pure b)).mono (by simp)

/-- A record takes in a field without keys of its own, and then the others. -/
theorem Gives.record_cons {k : String} {v : Value} (hput : Gives (put a k (path ++ [k]) v) b [])
    (hk : field? fields k = some k) (h : Gives (record path fields b put (.table es)) c ls) :
    Gives (record path fields a put (.table ((k, v) :: es))) c ((path ++ [k]) :: ls) :=
  (hput.record_singleton hk).record_append h

end Toml.Reading

namespace Table

open Toml (Key Value Reading Outline Field Fields Section)

/-! ### Writing -/

/-- The fields of a conversion. -/
def ruleFields (r : Rule) : Fields :=
  [("from", .text r.source), ("to", .text r.target), ("kind", .text r.kind)] ++
    if r.reverse = "" then [] else [("reverse", .text r.reverse)]

/-- The fields of a function. -/
def functionFields (f : Overloaded) : Fields :=
  [("name", .text f.name)] ++ if f.overloads? = none then [] else [("overloads", .texts f.overloads)]

/-- A table as an outline. -/
def outline (t : Table) : Outline where
  fields :=
    [("name", .text t.name)] ++ (if t.types? = none then [] else [("types", .texts t.types)]) ++
    (if t.rules? ≠ some [] then [] else [("rules", .texts [])]) ++
    (if t.functions? ≠ some [] then [] else [("functions", .texts [])])
  sections :=
    (if t.aliases? = none then [] else [("aliases", .table (t.sortedAliases.map fun a => (a.1, .text a.2)))]) ++
    (if t.rules = [] then [] else [("rules", .tables (t.rules.map ruleFields))]) ++
    (if t.functions = [] then [] else [("functions", .tables (t.functions.map functionFields))])

private theorem toList_assignText (k v : String) : (assignText k v).toList =
    (Toml.writeKeyPart k).toList ++ ' ' :: '=' :: ' ' :: (Toml.writeString v).toList ++ ['\n'] := by
  simp [assignText]

private theorem toList_assignTexts (k : String) (vs : List String) : (assignTexts k vs).toList =
    (Toml.writeKeyPart k).toList ++ ' ' :: '=' :: ' ' :: '[' :: (Toml.stringItems vs ++ [']']) ++ ['\n'] := by
  simp [assignTexts, Toml.stringItems, String.toList_intercalate, Function.comp_def]

private theorem toList_rule (r : Rule) :
    ("\n[[rules]]\n  " ++ assignText "from" r.source ++ "  " ++ assignText "to" r.target ++ "  " ++
      assignText "kind" r.kind ++ if r.reverse = "" then "" else "  " ++ assignText "reverse" r.reverse).toList =
    (Section.tables [ruleFields r]).chars "rules" := by
  have hkey : Toml.writeKeyPart "rules" = "rules" := by decide +kernel
  simp only [Section.chars, Fields.chars, ruleFields, hkey]
  split_ifs <;> simp [toList_assignText, Field.chars]

private theorem toList_function (f : Overloaded) :
    ("\n[[functions]]\n  " ++ assignText "name" f.name ++
      if f.overloads? = none then "" else "  " ++ assignTexts "overloads" f.overloads).toList =
    (Section.tables [functionFields f]).chars "functions" := by
  have hkey : Toml.writeKeyPart "functions" = "functions" := by decide +kernel
  simp only [Section.chars, Fields.chars, functionFields, hkey]
  split_ifs <;> simp [toList_assignText, toList_assignTexts, Field.chars]

private theorem toList_aliases (as : List (String × String)) :
    ("\n[aliases]\n" ++ String.join (as.map fun (k, v) => "  " ++ assignText k v)).toList =
    (Section.table (as.map fun a => (a.1, .text a.2))).chars "aliases" := by
  have hkey : Toml.writeKeyPart "aliases" = "aliases" := by decide +kernel
  simp [Section.chars, Fields.chars, hkey, toList_assignText, Field.chars, List.flatMap_map]

/-- Tables of an array are written one after the other, and an array without tables is not written. -/
private theorem flatMap_chars_tables {α : Type} (k : String) (f : α → Fields) (as : List α) :
    (if as = [] then [] else [(k, Section.tables (as.map f))]).flatMap (fun s => s.2.chars s.1) =
      as.flatMap fun a => (Section.tables [f a]).chars k := by
  split_ifs with has
  · simp [has]
  · simp [Section.chars, List.flatMap_map]

/-- A table is written as its outline. -/
theorem toToml_eq (t : Table) : t.toToml = String.ofList t.outline.chars := by
  rw [← String.toList_inj, String.toList_ofList, Outline.chars, outline, List.flatMap_append, List.flatMap_append,
    flatMap_chars_tables, flatMap_chars_tables]
  unfold toToml
  extract_lets types noRules noFunctions aliases rules functions
  have hfields : (assignText "name" t.name ++ types ++ noRules ++ noFunctions).toList =
      t.outline.fields.chars [] := by
    simp only [types, noRules, noFunctions, outline, ne_eq, ite_not]
    split_ifs <;> simp [toList_assignText, toList_assignTexts, Fields.chars, Field.chars]
  have haliases : aliases.toList = (if t.aliases? = none then [] else
      [("aliases", Section.table (t.sortedAliases.map fun a => (a.1, .text a.2)))]).flatMap
        fun s => s.2.chars s.1 := by
    simp only [aliases]
    split_ifs
    · rfl
    · simpa using toList_aliases t.sortedAliases
  have hrules : (String.join rules).toList =
      t.rules.flatMap fun r => (Section.tables [ruleFields r]).chars "rules" := by
    rw [String.toList_join, List.flatMap_map]
    exact List.flatMap_congr fun r _ => toList_rule r
  have hfunctions : (String.join functions).toList =
      t.functions.flatMap fun f => (Section.tables [functionFields f]).chars "functions" := by
    rw [String.toList_join, List.flatMap_map]
    exact List.flatMap_congr fun f _ => toList_function f
  rw [String.toList_append, String.toList_append, String.toList_append, hfields, haliases, hrules, hfunctions]
  simp only [outline, List.append_assoc]

/-- A list of tables is a field or a section, but not both. -/
private theorem nodup_keys_outline (t : Table) :
    (t.outline.fields.map Prod.fst ++ t.outline.sections.map Prod.fst).Nodup := by
  obtain ⟨name, types?, aliases?, rules?, functions?⟩ := t
  cases types? <;> cases aliases? <;> rcases rules? with _ | _ | _ <;> rcases functions? with _ | _ | _ <;>
    simp [outline, rules, functions]

private theorem distinct_outline {t : Table} (ht : (t.aliases.map Prod.fst).Nodup) : t.outline.Distinct := by
  refine ⟨nodup_keys_outline t, ?_⟩
  have haliases : (t.sortedAliases.map Prod.fst).Nodup := ((List.mergeSort_perm _ _).map _).nodup_iff.2 ht
  have hrule (r : Rule) : (ruleFields r).Distinct := by
    simp only [ruleFields, Fields.Distinct]
    split_ifs <;> simp
  have hfunction (f : Overloaded) : (functionFields f).Distinct := by
    simp only [functionFields, Fields.Distinct]
    split_ifs <;> simp
  intro s hs
  simp only [outline, List.mem_append, List.mem_ite_nil_left, List.mem_singleton] at hs
  obtain (⟨-, rfl⟩ | ⟨hne, rfl⟩) | ⟨hne, rfl⟩ := hs
  · simpa [Section.Distinct, Fields.Distinct, Function.comp_def] using haliases
  · refine ⟨by simpa using hne, fun fs hfs => ?_⟩
    obtain ⟨r, -, rfl⟩ := List.mem_map.1 hfs
    exact hrule r
  · refine ⟨by simpa using hne, fun fs hfs => ?_⟩
    obtain ⟨f, -, rfl⟩ := List.mem_map.1 hfs
    exact hfunction f

/-! ### Reading -/

/-- Takes in a field of a conversion. -/
def putRule (r : Rule) (field : String) (_ : Key) (v : Value) : Reading Rule := do
  let s ← Reading.string v
  match field with
  | "from" => return { r with source := s }
  | "to" => return { r with target := s }
  | "kind" => return { r with kind := s }
  | _ => return { r with reverse := s }

private theorem readRule_eq (path : Key) :
    readRule path = Reading.record path ["from", "to", "kind", "reverse"] {} putRule :=
  rfl

private theorem gives_readRule (path : Key) (r : Rule) :
    (readRule path (.table (ruleFields r).entries)).Gives r ((ruleFields r).keys path) := by
  have hfield : ∀ k ∈ ["from", "to", "kind", "reverse"],
      Reading.field? ["from", "to", "kind", "reverse"] k = some k := by simp [Reading.field?]
  rw [readRule_eq]
  refine Reading.Gives.record_cons (b := ({ source := r.source } : Rule)) ?_ (hfield "from" (by simp)) ?_
  · exact (Reading.gives_string r.source).map fun s => ({ source := s } : Rule)
  refine Reading.Gives.record_cons (b := ({ source := r.source, target := r.target } : Rule)) ?_
    (hfield "to" (by simp)) ?_
  · exact (Reading.gives_string r.target).map fun s => ({ source := r.source, target := s } : Rule)
  refine Reading.Gives.record_cons (b := { r with reverse := "" }) ?_ (hfield "kind" (by simp)) ?_
  · exact (Reading.gives_string r.kind).map fun s => { r with kind := s, reverse := "" }
  split_ifs with hempty
  · rw [← hempty]
    exact Reading.gives_record_nil
  refine Reading.Gives.record_cons (b := r) ?_ (hfield "reverse" (by simp)) Reading.gives_record_nil
  exact (Reading.gives_string r.reverse).map fun s => { r with reverse := s }

/-- Takes in a field of a function. -/
def putFunction (f : Overloaded) (field : String) (_ : Key) (v : Value) : Reading Overloaded := do
  match field with
  | "name" => return { f with name := ← Reading.string v }
  | _ => return { f with overloads? := some (← Reading.list Reading.string v) }

private theorem readFunction_eq (path : Key) :
    readFunction path = Reading.record path ["name", "overloads"] {} putFunction :=
  rfl

private theorem gives_readFunction (path : Key) (f : Overloaded) :
    (readFunction path (.table (functionFields f).entries)).Gives f ((functionFields f).keys path) := by
  have hfield : ∀ k ∈ ["name", "overloads"], Reading.field? ["name", "overloads"] k = some k := by
    simp [Reading.field?]
  rw [readFunction_eq]
  refine Reading.Gives.record_cons (b := ({ name := f.name } : Overloaded)) ?_ (hfield "name" (by simp)) ?_
  · exact (Reading.gives_string f.name).map fun s => ({ name := s } : Overloaded)
  split_ifs with hnone
  · rw [← hnone]
    exact Reading.gives_record_nil
  refine Reading.Gives.record_cons (b := f) ?_ (hfield "overloads" (by simp)) Reading.gives_record_nil
  have hgiven : some f.overloads = f.overloads? := Option.getD_of_ne_none hnone []
  have h := (Reading.gives_strings f.overloads).map fun ss => ({ name := f.name, overloads? := some ss } : Overloaded)
  rwa [hgiven] at h

/-- Takes in an entry of a table. -/
def putEntry (t : Table) (field : String) (path : Key) (v : Value) : Reading Table := do
  match field with
  | "name" => return { t with name := ← Reading.string v }
  | "types" => return { t with types? := some (← Reading.list Reading.string v) }
  | "aliases" => return { t with aliases? := ← Reading.map path Reading.string v }
  | "rules" => return { t with rules? := some (← Reading.list (readRule path) v) }
  | _ => return { t with functions? := some (← Reading.list (readFunction path) v) }

/-- The names of the entries of a table. -/
def entryNames : List String := ["name", "types", "aliases", "rules", "functions"]

private theorem readEntries_eq : readEntries = Reading.record [] entryNames {} putEntry := rfl

private theorem gives_list_tables {α : Type} (k : String) {read : Value → Reading α} {f : α → Fields}
    (h : ∀ a, (read (.table (f a).entries)).Gives a ((f a).keys [k])) (as : List α) :
    (Reading.list read (Section.tables (as.map f)).value).Gives as (as.flatMap fun a => (f a).keys [k]) := by
  have h := Reading.gives_mapM (f := fun es => read (.table es)) (v := fun a => (f a).entries) (b := id) (l := as)
    fun a _ => h a
  rw [List.map_id] at h
  simpa [Section.value, Reading.list, Function.comp_def] using h

private theorem gives_map_texts (path : Key) (as : List (String × String)) :
    (Reading.map path Reading.string (.table (Fields.entries (as.map fun a => (a.1, .text a.2))))).Gives (some as)
      (as.map fun a => path ++ [a.1]) := by
  have hone (a : String × String) : Reading.Gives
      (do modify ((path ++ [a.1]) :: ·); return (a.1, ← Reading.string (.string a.2))) a [path ++ [a.1]] :=
    (Reading.gives_use (path ++ [a.1])).bind ((Reading.gives_string a.2).map fun s => (a.1, s))
  have h := Reading.gives_mapM
    (f := fun (e : String × Value) => do modify ((path ++ [e.1]) :: ·); return (e.1, ← Reading.string e.2))
    (v := fun a => (a.1, Value.string a.2)) (b := id) (l := as) fun a _ => hone a
  rw [List.map_id] at h
  simpa [Reading.map, Fields.entries, Function.comp_def, Field.value, ← List.map_eq_flatMap] using h.map some

/-- The entries of sections. -/
abbrev sectionEntries (ss : List (String × Section)) : Toml.Entries := ss.map fun s => (s.1, s.2.value)

/-- The keys of sections. -/
abbrev sectionKeys (ss : List (String × Section)) : List Key := ss.flatMap fun s => s.2.keys s.1

private theorem field?_entryNames {k : String} (hk : k ∈ entryNames) : Reading.field? entryNames k = some k := by
  revert k
  simp [Reading.field?, entryNames]

section

variable {omitted : Prop} [Decidable omitted] {t t' : Table} {k : String} (hk : k ∈ entryNames)
  (homitted : omitted → t' = t)
include hk homitted

/-- A field is taken in, unless it is left out because it would change nothing. -/
private theorem gives_field {f : Field} (hput : ¬omitted → (putEntry t k [k] f.value).Gives t' []) :
    (Reading.record [] entryNames t putEntry (.table (Fields.entries (if omitted then [] else [(k, f)])))).Gives t'
      (Fields.keys [] (if omitted then [] else [(k, f)])) := by
  split_ifs with h
  · rw [homitted h]
    exact Reading.gives_record_nil
  · exact (hput h).record_singleton (field?_entryNames hk)

/-- A section is taken in, unless it is left out because it would change nothing. -/
private theorem gives_section {s : Section} {ks : List Key} (hput : ¬omitted → (putEntry t k [k] s.value).Gives t' ks)
    (hkeys : ∀ key ∈ s.keys k, key = [k] ∨ key ∈ ks) :
    (Reading.record [] entryNames t putEntry (.table (sectionEntries (if omitted then [] else [(k, s)])))).Gives t'
      (sectionKeys (if omitted then [] else [(k, s)])) := by
  split_ifs with h
  · rw [homitted h]
    exact Reading.gives_record_nil
  · refine ((hput h).record_singleton (field?_entryNames hk)).mono fun key hkey => ?_
    simpa using hkeys key (by simpa using hkey)

end

private theorem gives_putEntry_name (t : Table) (name : String) :
    (putEntry t "name" ["name"] (Field.text name).value).Gives { t with name := name } [] :=
  (Reading.gives_string name).map fun s => ({ t with name := s } : Table)

private theorem gives_putEntry_types (t : Table) (names : List String) :
    (putEntry t "types" ["types"] (Field.texts names).value).Gives { t with types? := some names } [] :=
  (Reading.gives_strings names).map fun ss => ({ t with types? := some ss } : Table)

private theorem gives_putEntry_noRules (t : Table) :
    (putEntry t "rules" ["rules"] (Field.texts []).value).Gives { t with rules? := some [] } [] :=
  (Reading.gives_pure []).map fun rs => ({ t with rules? := some rs } : Table)

private theorem gives_putEntry_noFunctions (t : Table) :
    (putEntry t "functions" ["functions"] (Field.texts []).value).Gives { t with functions? := some [] } [] :=
  (Reading.gives_pure []).map fun fs => ({ t with functions? := some fs } : Table)

private theorem gives_putEntry_aliases (t : Table) (as : List (String × String)) :
    (putEntry t "aliases" ["aliases"] (Section.table (as.map fun a => (a.1, .text a.2))).value).Gives
      { t with aliases? := some as } (as.map fun a => ["aliases", a.1]) :=
  (gives_map_texts ["aliases"] as).map fun as? => ({ t with aliases? := as? } : Table)

private theorem gives_putEntry_rules (t : Table) (rs : List Rule) :
    (putEntry t "rules" ["rules"] (Section.tables (rs.map ruleFields)).value).Gives { t with rules? := some rs }
      (rs.flatMap fun r => (ruleFields r).keys ["rules"]) :=
  (gives_list_tables "rules" (gives_readRule ["rules"]) rs).map fun rs => ({ t with rules? := some rs } : Table)

private theorem gives_putEntry_functions (t : Table) (fs : List Overloaded) :
    (putEntry t "functions" ["functions"] (Section.tables (fs.map functionFields)).value).Gives
      { t with functions? := some fs } (fs.flatMap fun f => (functionFields f).keys ["functions"]) :=
  (gives_list_tables "functions" (gives_readFunction ["functions"]) fs).map fun fs =>
    ({ t with functions? := some fs } : Table)

/-- The keys of an array of tables are those of its tables, and its own. -/
private theorem mem_keys_tables {α : Type} (k : String) (f : α → Fields) (as : List α) :
    ∀ key ∈ (Section.tables (as.map f)).keys k, key = [k] ∨ key ∈ as.flatMap fun a => (f a).keys [k] := by
  intro key hkey
  simp only [Section.keys, List.mem_flatMap, List.mem_map, List.mem_cons] at hkey ⊢
  obtain ⟨_, ⟨a, ha, rfl⟩, rfl | hkey⟩ := hkey
  · exact .inl rfl
  · exact .inr ⟨a, ha, hkey⟩

/-- The table with its aliases in order. -/
def inOrder (t : Table) : Table := { t with aliases? := t.aliases?.map fun _ => t.sortedAliases }

section

variable {α : Type} {l? : Option (List α)}

private theorem filter_isEmpty_eq_none (h : l? ≠ some []) : l?.filter List.isEmpty = none := by
  rcases l? with _ | _ | _ <;> simp_all

private theorem filter_isEmpty_eq_self (h : l?.getD [] = []) : l?.filter List.isEmpty = l? := by
  rcases l? with _ | _ | _ <;> simp_all

private theorem some_getD_of_ne_nil (h : l?.getD [] ≠ []) : some (l?.getD []) = l? := by
  cases l? <;> simp_all

end

/-- What the fields of a table tell of it: among its lists of tables, those that are empty. -/
def ofFields (t : Table) : Table where
  name := t.name
  types? := t.types?
  rules? := t.rules?.filter List.isEmpty
  functions? := t.functions?.filter List.isEmpty

private theorem gives_fields (t : Table) :
    (Reading.record [] entryNames {} putEntry (.table t.outline.fields.entries)).Gives t.ofFields
      (t.outline.fields.keys []) := by
  let t₀ : Table := { name := t.name }
  let t₁ : Table := { t₀ with types? := t.types? }
  let t₂ : Table := { t₁ with rules? := t.rules?.filter List.isEmpty }
  have hname : (Reading.record [] entryNames {} putEntry (.table (Fields.entries [("name", .text t.name)]))).Gives t₀
      (Fields.keys [] [("name", .text t.name)]) :=
    Reading.Gives.record_singleton (gives_putEntry_name {} t.name) (field?_entryNames (by simp [entryNames]))
  have htypes := gives_field (k := "types") (f := .texts t.types) (by simp [entryNames])
    (fun hnone : t.types? = none => show t₁ = t₀ by simp [t₁, t₀, hnone]) fun hgiven => by
      simpa [t₁, types, Option.getD_of_ne_none hgiven] using gives_putEntry_types t₀ t.types
  have hrules := gives_field (k := "rules") (f := .texts []) (by simp [entryNames])
    (fun h : t.rules? ≠ some [] => show t₂ = t₁ by simp [t₂, t₁, t₀, filter_isEmpty_eq_none h]) fun hempty => by
      simpa [t₂, not_not.1 hempty, Option.filter_some] using gives_putEntry_noRules t₁
  have hfunctions := gives_field (k := "functions") (f := .texts []) (by simp [entryNames])
    (fun h : t.functions? ≠ some [] => show t.ofFields = t₂ by
      simp [ofFields, t₂, t₁, t₀, filter_isEmpty_eq_none h]) fun hempty => by
      simpa [ofFields, not_not.1 hempty, Option.filter_some] using gives_putEntry_noFunctions t₂
  have hfields := ((hname.record_append htypes).record_append hrules).record_append hfunctions
  simpa only [outline, Fields.entries, Fields.keys, List.map_append] using hfields

private theorem gives_sections (t : Table) :
    (Reading.record [] entryNames t.ofFields putEntry (.table (sectionEntries t.outline.sections))).Gives t.inOrder
      (sectionKeys t.outline.sections) := by
  let t₁ : Table := { t.ofFields with aliases? := t.inOrder.aliases? }
  let t₂ : Table := { t₁ with rules? := t.rules? }
  have haliases := gives_section (k := "aliases") (by simp [entryNames])
    (fun hnone : t.aliases? = none => show t₁ = t.ofFields by simp [t₁, ofFields, inOrder, hnone])
    (fun hgiven => by
      have hsorted : t.inOrder.aliases? = some t.sortedAliases := by
        rw [inOrder, ← Option.getD_of_ne_none hgiven []]
        rfl
      simpa [t₁, hsorted] using gives_putEntry_aliases t.ofFields t.sortedAliases)
    (by simp [Section.keys, Fields.keys])
  have hrules := gives_section (k := "rules") (by simp [entryNames])
    (fun hnone : t.rules = [] => show t₂ = t₁ by simp [t₂, t₁, ofFields, filter_isEmpty_eq_self hnone])
    (fun hsome => by
      have h := gives_putEntry_rules t₁ t.rules
      rwa [show some t.rules = t.rules? from some_getD_of_ne_nil hsome] at h)
    (mem_keys_tables "rules" ruleFields t.rules)
  have hfunctions := gives_section (k := "functions") (by simp [entryNames])
    (fun hnone : t.functions = [] => show t.inOrder = t₂ by
      simp [inOrder, t₂, t₁, ofFields, filter_isEmpty_eq_self hnone])
    (fun hsome => by
      have h := gives_putEntry_functions t₂ t.functions
      rwa [show some t.functions = t.functions? from some_getD_of_ne_nil hsome] at h)
    (mem_keys_tables "functions" functionFields t.functions)
  have hsections := (haliases.record_append hrules).record_append hfunctions
  simpa only [outline, sectionEntries, sectionKeys, List.map_append, List.flatMap_append] using hsections

/-- Everything that is written of a table is taken in. -/
theorem gives_readEntries (t : Table) : (readEntries (.table t.outline.entries)).Gives t.inOrder t.outline.keys := by
  rw [readEntries_eq]
  exact (gives_fields t).record_append (gives_sections t)

private theorem isSome_get?_types (t : Table) :
    (Toml.Entries.get? "types" t.outline.entries).isSome = true ↔ t.types? ≠ none := by
  rw [← not_iff_not, not_not, Bool.not_eq_true, Option.isSome_eq_false_iff, Option.isNone_iff_eq_none,
    Toml.Entries.get?_eq_none_iff]
  simp only [Outline.entries, outline, Fields.entries]
  split_ifs <;> simp_all

/-- A table reads back from what is written of it, with its aliases in order, if its types are given. -/
theorem ofToml_toToml {t : Table} (ht : (t.aliases.map Prod.fst).Nodup) :
    ofToml t.toToml = if t.types? = none then .error .missingTypes else .ok t.inOrder := by
  have hparse : Toml.Document.parse t.toToml = some ⟨t.outline.entries, t.outline.keys⟩ := by
    rw [toToml_eq]
    exact Outline.parse_eq_some (distinct_outline ht) (by simp [outline])
  obtain ⟨used, hrun, hused⟩ := gives_readEntries t []
  have hread : Toml.Document.read ⟨t.outline.entries, t.outline.keys⟩ readEntries = some (t.inOrder, []) := by
    simpa [Toml.Document.read, hrun] using fun key hkey => hused key (.inr hkey)
  simp only [ofToml, hparse, hread, isSome_get?_types]
  split_ifs <;> simp_all

end Table

end Coercion
