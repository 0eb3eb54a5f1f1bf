import Coercion.Proofs.Toml.Writing

/-!
# Documents of texts

An outline is a document of texts and lists of texts: some fields, and then sections, each a table or an array of
tables.  Written down, it has the statements (`Outline.holds`) and in the end the entries (`Outline.parse_eq_some`) that
one expects, if no key is given twice.
-/

namespace Coercion.Toml

/-! ### Outlines -/

/-- A value of a field. -/
inductive Field where
  | text (s : String)
  | texts (ss : List String)

namespace Field

/-- A field as it is written. -/
def chars : Field → List Char
  | text s => (writeString s).toList
  | texts ss => '[' :: (stringItems ss ++ [']'])

/-- A field as it is read. -/
def expr : Field → Expr
  | text s => .string s
  | texts ss => .array (ss.map .string)

/-- The value of a field. -/
def value : Field → Value
  | text s => .string s
  | texts ss => .array (ss.map .string)

end Field

/-- The fields of a table. -/
abbrev Fields := List (String × Field)

namespace Fields

/-- The lines of some fields, each behind the same blanks. -/
def chars (blanks : List Char) (fs : Fields) : List Char :=
  fs.flatMap fun f => blanks ++ ((writeKeyPart f.1).toList ++ ' ' :: '=' :: ' ' :: f.2.chars ++ ['\n'])

/-- The statements of some fields. -/
def statements (fs : Fields) : List Statement := fs.map fun f => .assign [f.1] f.2.expr

/-- The entries of some fields. -/
def entries (fs : Fields) : Entries := fs.map fun f => (f.1, f.2.value)

/-- The keys of some fields in a table. -/
def keys (path : Key) (fs : Fields) : List Key := fs.map fun f => path ++ [f.1]

/-- No key is given twice. -/
def Distinct (fs : Fields) : Prop := (fs.map Prod.fst).Nodup

end Fields

/-- A section of a document. -/
inductive Section where
  | table (fs : Fields)
  | tables (items : List Fields)

namespace Section

/-- A section as it is written. -/
def chars (k : String) : Section → List Char
  | table fs => ['\n'] ++ ('[' :: ((writeKeyPart k).toList ++ [']']) ++ ['\n']) ++ fs.chars [' ', ' ']
  | tables items => items.flatMap fun fs =>
    ['\n'] ++ ('[' :: '[' :: ((writeKeyPart k).toList ++ [']', ']']) ++ ['\n']) ++ fs.chars [' ', ' ']

/-- The statements of a section. -/
def statements (k : String) : Section → List Statement
  | table fs => .table [k] :: fs.statements
  | tables items => items.flatMap fun fs => .arrayTable [k] :: fs.statements

/-- The value of a section. -/
def value : Section → Value
  | table fs => .table fs.entries
  | tables items => .tables (items.map Fields.entries)

/-- The keys of a section. -/
def keys (k : String) : Section → List Key
  | table fs => [k] :: fs.keys [k]
  | tables items => items.flatMap fun fs => [k] :: fs.keys [k]

/-- No key is given twice in one table, and an array has tables. -/
def Distinct : Section → Prop
  | table fs => fs.Distinct
  | tables items => items ≠ [] ∧ ∀ fs ∈ items, fs.Distinct

end Section

/-- A document of texts. -/
structure Outline where
  fields : Fields
  sections : List (String × Section)

namespace Outline

/-- A document as it is written. -/
def chars (o : Outline) : List Char := o.fields.chars [] ++ o.sections.flatMap fun s => s.2.chars s.1

/-- The statements of a document. -/
def statements (o : Outline) : List Statement := o.fields.statements ++ o.sections.flatMap fun s => s.2.statements s.1

/-- The entries of a document. -/
def entries (o : Outline) : Entries := o.fields.entries ++ o.sections.map fun s => (s.1, s.2.value)

/-- The keys of a document. -/
def keys (o : Outline) : List Key := o.fields.keys [] ++ o.sections.flatMap fun s => s.2.keys s.1

/-- No key is given twice. -/
structure Distinct (o : Outline) : Prop where
  keys : (o.fields.map Prod.fst ++ o.sections.map Prod.fst).Nodup
  sections : ∀ s ∈ o.sections, s.2.Distinct

end Outline

/-! ### Lines -/

variable {ss : List Statement} {r : List Char}

private theorem Holds.field (h : Holds ss r) {blanks : List Char} (hblanks : ∀ b ∈ blanks, isBlockBlank b = true)
    (k : String) (f : Field) : Holds (.assign [k] f.expr :: ss)
      (blanks ++ ((writeKeyPart k).toList ++ ' ' :: '=' :: ' ' :: f.chars ++ '\n' :: r)) := by
  cases f with
  | text s => exact h.string hblanks k s
  | texts ss => exact h.strings hblanks k ss

private theorem Holds.fields (h : Holds ss r) {blanks : List Char} (hblanks : ∀ b ∈ blanks, isBlockBlank b = true)
    (fs : Fields) : Holds (fs.statements ++ ss) (fs.chars blanks ++ r) := by
  induction fs with
  | nil => exact h
  | cons f fs ih => simpa [Fields.chars, Fields.statements] using ih.field hblanks f.1 f.2

private theorem Holds.section (h : Holds ss r) (k : String) (s : Section) :
    Holds (s.statements k ++ ss) (s.chars k ++ r) := by
  have hindent : ∀ b ∈ [' ', ' '], isBlockBlank b = true := by simp [isBlockBlank, isSpace]
  have hline : ∀ b ∈ ['\n'], isBlockBlank b = true := by simp [isBlockBlank, isLineEnd]
  cases s with
  | table fs => simpa [Section.chars, Section.statements] using (h.fields hindent fs).table hline k
  | tables items =>
    induction items with
    | nil => exact h
    | cons fs items ih =>
      simpa [Section.chars, Section.statements] using (ih.fields hindent fs).arrayTable hline k

theorem Outline.holds (o : Outline) : Holds o.statements o.chars := by
  have hsections : Holds (o.sections.flatMap fun s => s.2.statements s.1)
      (o.sections.flatMap fun s => s.2.chars s.1) := by
    induction o.sections with
    | nil => exact holds_nil
    | cons s sections ih => exact ih.section s.1 s.2
  exact hsections.fields (by simp) o.fields

/-! ### Entries -/

namespace Entries

variable {es : Entries} {k : String} {v v' : Value}

theorem get?_eq_none_iff : get? k es = none ↔ k ∉ es.map Prod.fst := by
  rw [get?, List.lookup_eq_none_iff]
  constructor
  · rintro h hmem
    obtain ⟨e, he, rfl⟩ := List.mem_map.1 hmem
    simpa using h e he
  · rintro h e he
    rw [bne_iff_ne]
    rintro rfl
    exact h (List.mem_map_of_mem he)

private theorem get?_append_last (h : k ∉ es.map Prod.fst) : get? k (es ++ [(k, v)]) = some v := by
  have hnone : List.lookup k es = none := get?_eq_none_iff.2 h
  simp [get?, List.lookup_append, hnone]

private theorem set_of_not_mem (h : k ∉ es.map Prod.fst) : set k v es = es ++ [(k, v)] := by
  induction es with
  | nil => rfl
  | cons e es ih =>
    rw [List.map_cons, List.mem_cons, not_or] at h
    rw [set, if_neg (Ne.symm h.1), ih h.2]
    rfl

private theorem set_append_last (h : k ∉ es.map Prod.fst) : set k v' (es ++ [(k, v)]) = es ++ [(k, v')] := by
  induction es with
  | nil => simp [set]
  | cons e es ih =>
    rw [List.map_cons, List.mem_cons, not_or] at h
    rw [List.cons_append, set, if_neg (Ne.symm h.1), ih h.2]
    rfl

end Entries

/-! ### Drafts -/

namespace Draft

/-- The parts of a draft that matter as long as all keys are new. -/
structure At (d : Draft) (root : Entries) (context : Key) (written : List Key) : Prop where
  root : d.root = root
  context : d.context = context
  written : d.written = written

variable {d : Draft} {root root' es : Entries} {context : Key} {written : List Key} {k : String}

private theorem evaluateItems_strings (k : String) (ss : List String) (d : Draft) :
    evaluateItems k (ss.map .string) d = some (ss.map .string, d) := by
  induction ss with
  | nil => rfl
  | cons s ss ih =>
    rw [List.map_cons, evaluateItems, evaluate]
    simp only [Option.bind_eq_bind, Option.bind_some, ih]
    rfl

private theorem At.evaluate (h : d.At root context written) (k : String) (f : Field) :
    ∃ d', Draft.evaluate false k f.expr d = some (f.value, d') ∧ d'.At root context written := by
  cases f with
  | text s => exact ⟨d, by rw [Field.expr, Draft.evaluate]; rfl, h⟩
  | texts ss =>
    refine ⟨d.markArray k true, ?_, h.root, h.context, h.written⟩
    rw [Field.expr, Draft.evaluate, evaluateItems_strings]
    rfl

private theorem At.setValue (h : d.At root context written) (hentries : entriesAt context root = some es)
    (hk : k ∉ es.map Prod.fst) {v : Value}
    (hroot : Entries.modifyAt context (fun es => some (Entries.set k v es)) root = some root') :
    ∃ d', d.setValue k v = some d' ∧ d'.At root' context written := by
  refine ⟨{ d with root := root' }, ?_, rfl, h.context, h.written⟩
  rw [Draft.setValue, h.context, h.root, hentries]
  simp [Entries.get?_eq_none_iff.2 hk, hroot]

private theorem At.assign (h : d.At root context written) (hentries : entriesAt context root = some es)
    (hk : k ∉ es.map Prod.fst) (f : Field)
    (hroot : Entries.modifyAt context (fun es => some (Entries.set k f.value es)) root = some root') :
    ∃ d', d.add (.assign [k] f.expr) = some d' ∧ d'.At root' context ((context ++ [k]) :: written) := by
  have hwritten : (d.addWritten (d.pathOf k)).At root context ((context ++ [k]) :: written) :=
    ⟨h.root, h.context, by rw [addWritten, pathOf, h.context, h.written]⟩
  obtain ⟨d₁, hvalue, h₁⟩ := hwritten.evaluate k f
  obtain ⟨d₂, hset, h₂⟩ := h₁.setValue hentries hk hroot
  refine ⟨{ d₂.markArray k (isArray f.value) with context := d.context }, ?_, h₂.root, h.context, h₂.written⟩
  have hopen : openParts [k].dropLast d = some d := rfl
  have hlast : [k].getLastD "" = k := rfl
  rw [Draft.add, evaluateEntry]
  simp only [hopen, hlast, hvalue, hset, Option.bind_eq_bind, Option.bind_some]
  rfl

private theorem At.table (h : d.At root context written) (hk : k ∉ root.map Prod.fst) :
    ∃ d', d.add (.table [k]) = some d' ∧ d'.At (root ++ [(k, .table [])]) [k] ([k] :: written) := by
  have houter : { d with context := [] }.At root [] written := ⟨h.root, rfl, h.written⟩
  have hroot : Entries.modifyAt [] (fun es => some (Entries.set k (.table []) es)) root =
      some (root ++ [(k, .table [])]) := by
    rw [Entries.modifyAt, Entries.set_of_not_mem hk]
  obtain ⟨d₁, hset, h₁⟩ := houter.setValue rfl hk hroot
  have hopen : openTable [k] false d = some { d₁ with context := [k] } := by
    simp [openTable, mention, hset]
  refine ⟨({ d₁ with context := [k] }.markArray "" false).addWritten [k], ?_, h₁.root, rfl, ?_⟩
  · rw [Draft.add, hopen]
    rfl
  · exact congrArg ([k] :: ·) h₁.written

/-- The entries of a document with an array of tables at a key, if it has tables at all. -/
def putTables (root : Entries) (k : String) (items : List Entries) : Entries :=
  if items = [] then root else root ++ [(k, .tables items)]

private theorem At.arrayTable {items : List Entries} (h : d.At (putTables root k items) context written)
    (hk : k ∉ root.map Prod.fst) :
    ∃ d', d.add (.arrayTable [k]) = some d' ∧
      d'.At (root ++ [(k, .tables (items ++ [[]]))]) [k] ([k] :: written) := by
  have happend : appendTable k (putTables root k items) = some (root ++ [(k, .tables (items ++ [[]]))]) := by
    unfold appendTable putTables
    split_ifs with hitems
    · simp [Entries.get?_eq_none_iff.2 hk, Entries.set_of_not_mem hk, hitems]
    · simp [Entries.get?_append_last hk, Entries.set_append_last hk]
  let d₁ : Draft := { d with root := root ++ [(k, .tables (items ++ [[]]))], context := [k] }
  have hopen : openTable [k] true d = some d₁ := by
    simp [openTable, mention, Entries.modifyAt, h.root, happend, d₁]
  refine ⟨(d₁.markArray "" false).addWritten [k], ?_, rfl, rfl, ?_⟩
  · rw [Draft.add, hopen]
    rfl
  · exact congrArg ([k] :: ·) h.written

private theorem At.assign_root (h : d.At root [] written) (hk : k ∉ root.map Prod.fst) (f : Field) :
    ∃ d', d.add (.assign [k] f.expr) = some d' ∧ d'.At (root ++ [(k, f.value)]) [] ([k] :: written) :=
  h.assign rfl hk f (by rw [Entries.modifyAt, Entries.set_of_not_mem hk])

private theorem At.assign_table {k₀ : String} (h : d.At (root ++ [(k₀, .table es)]) [k₀] written)
    (hk₀ : k₀ ∉ root.map Prod.fst) (hk : k ∉ es.map Prod.fst) (f : Field) :
    ∃ d', d.add (.assign [k] f.expr) = some d' ∧
      d'.At (root ++ [(k₀, .table (es ++ [(k, f.value)]))]) [k₀] ([k₀, k] :: written) := by
  refine h.assign ?_ hk f ?_
  · simp [entriesAt, Entries.get?_append_last hk₀]
  · simp [Entries.modifyAt, Entries.get?_append_last hk₀, Entries.set_of_not_mem hk, Entries.set_append_last hk₀]

private theorem At.assign_tables {k₀ : String} {items : List Entries}
    (h : d.At (root ++ [(k₀, .tables (items ++ [es]))]) [k₀] written)
    (hk₀ : k₀ ∉ root.map Prod.fst) (hk : k ∉ es.map Prod.fst) (f : Field) :
    ∃ d', d.add (.assign [k] f.expr) = some d' ∧
      d'.At (root ++ [(k₀, .tables (items ++ [es ++ [(k, f.value)]]))]) [k₀] ([k₀, k] :: written) := by
  refine h.assign ?_ hk f ?_
  · simp [entriesAt, Entries.get?_append_last hk₀]
  · simp [Entries.modifyAt, Entries.get?_append_last hk₀, Entries.set_of_not_mem hk, Entries.set_append_last hk₀]

/-- Some fields, one after the other, wherever a field goes. -/
private theorem At.fields (place : Entries → Entries)
    (hplace : ∀ (d : Draft) es written k f, d.At (place es) context written → k ∉ es.map Prod.fst →
      ∃ d', d.add (.assign [k] (Field.expr f)) = some d' ∧
        d'.At (place (es ++ [(k, f.value)])) context ((context ++ [k]) :: written))
    (h : d.At (place es) context written) (fs : Fields) (hfs : (es.map Prod.fst ++ fs.map Prod.fst).Nodup) :
    ∃ d', fs.statements.foldlM Draft.add d = some d' ∧
      d'.At (place (es ++ fs.entries)) context ((fs.keys context).reverse ++ written) := by
  induction fs generalizing d es written with
  | nil => exact ⟨d, rfl, by simpa [Fields.entries, Fields.keys] using h⟩
  | cons f fs ih =>
    have hf : f.1 ∉ es.map Prod.fst := by
      rw [List.map_cons, List.nodup_append] at hfs
      exact fun hmem => hfs.2.2 _ hmem _ List.mem_cons_self rfl
    obtain ⟨d₁, hadd, h₁⟩ := hplace d es written f.1 f.2 h hf
    obtain ⟨d', hrest, h'⟩ := ih h₁ (by simpa using hfs)
    refine ⟨d', ?_, ?_⟩
    · rw [Fields.statements, List.map_cons, List.foldlM_cons, hadd]
      exact hrest
    · simpa [Fields.entries, Fields.keys] using h'

private theorem At.items {items : List Entries} (h : d.At (putTables root k items) context written)
    (hk : k ∉ root.map Prod.fst) {more : List Fields} (hmore : ∀ fs ∈ more, fs.Distinct) :
    ∃ d' context', ((Section.tables more).statements k).foldlM Draft.add d = some d' ∧
      d'.At (putTables root k (items ++ more.map Fields.entries)) context'
        (((Section.tables more).keys k).reverse ++ written) := by
  -- the array is not there before its first table, which is why the invariant is about `putTables`
  induction more generalizing d items context written with
  | nil => exact ⟨d, context, rfl, by simpa [Section.keys] using h⟩
  | cons fs more ih =>
    obtain ⟨hfs, hmore⟩ := List.forall_mem_cons.1 hmore
    obtain ⟨d₁, hadd, h₁⟩ := h.arrayTable hk
    obtain ⟨d₂, hfields, h₂⟩ := At.fields (fun es => root ++ [(k, .tables (items ++ [es]))])
      (fun d es written k' f h hk' => h.assign_tables hk hk' f) h₁ fs (by simpa [Fields.Distinct] using hfs)
    have hput : root ++ [(k, .tables (items ++ [[] ++ fs.entries]))] = putTables root k (items ++ [fs.entries]) := by
      simp [putTables]
    rw [hput] at h₂
    obtain ⟨d', context', hrest, h'⟩ := ih h₂ hmore
    refine ⟨d', context', ?_, ?_⟩
    · rw [Section.statements, List.flatMap_cons, List.cons_append, List.foldlM_cons, hadd]
      simp only [Option.bind_eq_bind, Option.bind_some, List.foldlM_append, hfields]
      exact hrest
    · simpa [Section.keys] using h'

private theorem At.section (h : d.At root context written) (hk : k ∉ root.map Prod.fst) {s : Section}
    (hs : s.Distinct) :
    ∃ d' context', (s.statements k).foldlM Draft.add d = some d' ∧
      d'.At (root ++ [(k, s.value)]) context' ((s.keys k).reverse ++ written) := by
  cases s with
  | table fs =>
    obtain ⟨d₁, hadd, h₁⟩ := h.table hk
    obtain ⟨d', hfields, h'⟩ := At.fields (fun es => root ++ [(k, .table es)])
      (fun d es written k' f h hk' => h.assign_table hk hk' f) h₁ fs
      (by simpa [Section.Distinct, Fields.Distinct] using hs)
    refine ⟨d', [k], ?_, ?_⟩
    · rw [Section.statements, List.foldlM_cons, hadd]
      exact hfields
    · simpa [Section.keys, Section.value] using h'
  | tables items =>
    obtain ⟨hne, hitems⟩ := hs
    have hnone : d.At (putTables root k []) context written := h
    obtain ⟨d', context', hfold, h'⟩ := hnone.items hk hitems
    exact ⟨d', context', hfold, by simpa [putTables, hne, Section.value] using h'⟩

private theorem At.sections (h : d.At root context written) (ss : List (String × Section))
    (hkeys : (root.map Prod.fst ++ ss.map Prod.fst).Nodup) (hss : ∀ s ∈ ss, s.2.Distinct) :
    ∃ d' context', (ss.flatMap fun s => s.2.statements s.1).foldlM Draft.add d = some d' ∧
      d'.At (root ++ ss.map fun s => (s.1, s.2.value)) context'
        ((ss.flatMap fun s => s.2.keys s.1).reverse ++ written) := by
  induction ss generalizing d root context written with
  | nil => exact ⟨d, context, rfl, by simpa using h⟩
  | cons s ss ih =>
    obtain ⟨hs, hss⟩ := List.forall_mem_cons.1 hss
    have hk : s.1 ∉ root.map Prod.fst := by
      rw [List.map_cons, List.nodup_append] at hkeys
      exact fun hmem => hkeys.2.2 _ hmem _ List.mem_cons_self rfl
    obtain ⟨d₁, context₁, hsection, h₁⟩ := h.section hk hs
    obtain ⟨d', context', hrest, h'⟩ := ih h₁ (by simpa using hkeys) hss
    refine ⟨d', context', ?_, by simpa using h'⟩
    rw [List.flatMap_cons, List.foldlM_append, hsection]
    exact hrest

end Draft

/-! ### Documents -/

namespace Outline

variable {o : Outline}

private theorem foldlM_add (ho : o.Distinct) :
    ∃ d, o.statements.foldlM Draft.add {} = some d ∧ d.root = o.entries ∧ d.written = o.keys.reverse := by
  have hempty : ({} : Draft).At [] [] [] := ⟨rfl, rfl, rfl⟩
  obtain ⟨d₁, hfields, h₁⟩ := Draft.At.fields id (fun d es written k f h hk => h.assign_root hk f) hempty
    o.fields (by simpa using (List.nodup_append.1 ho.keys).1)
  obtain ⟨d, context, hsections, h⟩ := h₁.sections o.sections
    (by simpa [Fields.entries, Function.comp_def] using ho.keys) ho.sections
  refine ⟨d, ?_, by simpa [entries] using h.root, by simpa [keys] using h.written⟩
  rw [statements, List.foldlM_append, hfields]
  exact hsections

private theorem isAdmissible_fields {blanks : List Char} (hblanks : ∀ b ∈ blanks, isAdmissible b = true) (fs : Fields) :
    ∀ c ∈ fs.chars blanks, isAdmissible c = true := by
  intro c hc
  obtain ⟨⟨k, f⟩, -, hc⟩ := List.mem_flatMap.1 hc
  have hfield : ∀ c ∈ f.chars, isAdmissible c = true := by
    cases f with
    | text s => exact isAdmissible_writeString s
    | texts ss =>
      have hbrackets : isAdmissible '[' = true ∧ isAdmissible ']' = true := ⟨rfl, rfl⟩
      simpa [Field.chars, or_imp, forall_and, hbrackets] using isAdmissible_stringItems ss
  simp only [List.append_assoc, List.cons_append, List.mem_append, List.mem_cons, List.not_mem_nil, or_false] at hc
  obtain hc | hc | rfl | rfl | rfl | hc | rfl := hc
  · exact hblanks c hc
  · exact isAdmissible_writeKeyPart k c hc
  · rfl
  · rfl
  · rfl
  · exact hfield c hc
  · rfl

private theorem isAdmissible_section (k : String) (s : Section) : ∀ c ∈ s.chars k, isAdmissible c = true := by
  have hindent : ∀ b ∈ [' ', ' '], isAdmissible b = true := by simp [isAdmissible]
  have hsigns : ∀ b ∈ ['[', ']', '\n'], isAdmissible b = true := by simp [isAdmissible]
  have hkey := isAdmissible_writeKeyPart k
  cases s with
  | table fs =>
    have hfields := isAdmissible_fields hindent fs
    simp only [Section.chars, List.append_assoc, List.cons_append, List.mem_append, List.mem_cons, List.nil_append]
    grind
  | tables items =>
    intro c hc
    obtain ⟨fs, -, hc⟩ := List.mem_flatMap.1 hc
    have hfields := isAdmissible_fields hindent fs
    simp only [List.append_assoc, List.cons_append, List.mem_append, List.mem_cons, List.nil_append] at hc
    grind

private theorem isAdmissible_chars (o : Outline) : ∀ c ∈ o.chars, isAdmissible c = true := by
  intro c hc
  obtain hc | hc := List.mem_append.1 hc
  · exact isAdmissible_fields (by simp) _ c hc
  · obtain ⟨s, -, hc⟩ := List.mem_flatMap.1 hc
    exact isAdmissible_section s.1 s.2 c hc

/-- A written document reads as its entries and keys. -/
theorem parse_eq_some (ho : o.Distinct) (hfields : o.fields ≠ []) :
    Document.parse (String.ofList o.chars) = some ⟨o.entries, o.keys⟩ := by
  -- a byte order mark would be skipped, but the document starts with a key
  have hmark : ∀ c ∈ o.chars.head?, c.toNat ≠ 0xfeff := by
    obtain ⟨f, fs, hcons⟩ := List.exists_cons_of_ne_nil hfields
    obtain ⟨c, cs, hk, hc⟩ := exists_writeKeyPart_eq_cons f.1
    have hhead : o.chars.head? = some c := by simp [chars, hcons, Fields.chars, hk]
    rw [hhead]
    rintro _ ⟨⟩ hmark
    have hne : c ≠ Char.ofNat 0xfeff := hc.ne (by decide) rfl
    exact hne (by rw [← hmark, Char.ofNat_toNat])
  have hstatements : Toml.statements (String.ofList o.chars) = some o.statements := by
    refine Holds.statements ?_ ?_ ?_ <;> rw [String.toList_ofList]
    · exact o.holds
    · exact o.isAdmissible_chars
    · exact hmark
  obtain ⟨d, hfold, hroot, hwritten⟩ := foldlM_add ho
  simp [Document.parse, hstatements, hfold, hroot, hwritten]

end Outline

end Coercion.Toml
