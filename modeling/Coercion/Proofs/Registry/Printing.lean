import Coercion.Proofs.Registry.Lifecycle
import Mathlib.Algebra.GroupWithZero.Nat

/-!
# Signatures as texts

A signature is written as the names of its types between parentheses, with a comma and a space between two names.
Reading removes the parentheses, whatever parentheses the names have of their own, and splits the text at its commas
(`parseSignature_nameAll`).  Each part is a name, perhaps behind a space, unless a name has a comma itself: then there
are more parts than names (`length_lt_splitOn_inner`).  So a signature is read back if and only if no name in it has a
comma (`parseSignature_nameAll_iff`).
-/

namespace Coercion

namespace Text

private theorem splitChars_eq_splitOn (sep : Char) (cs : List Char) : splitChars sep cs = cs.splitOn sep := by
  induction cs with
  | nil => rfl
  | cons c cs ih =>
    obtain ⟨part, rest, h⟩ := List.exists_cons_of_ne_nil (List.splitOn_ne_nil sep cs)
    rw [List.splitOn_cons_eq_if_modifyHead, h]
    rw [h, splitChars, splitAtChars] at ih
    rw [splitChars, splitAtChars, List.foldr_cons, ih]
    rfl

private theorem length_splitOn (sep : Char) (cs : List Char) : (cs.splitOn sep).length = cs.count sep + 1 := by
  induction cs with
  | nil => rfl
  | cons c cs ih =>
    rw [List.splitOn_cons_eq_if_modifyHead, List.count_cons]
    split
    · rw [List.length_cons, ih]
    · rw [List.length_modifyHead, ih, Nat.add_zero]

/-- Nothing is trimmed from a text between two characters that are not blank. -/
private theorem trimChars_enclosed {c d : Char} (hc : isBlank c = false) (hd : isBlank d = false) (cs : List Char) :
    trimChars (c :: (cs ++ [d])) = c :: (cs ++ [d]) := by
  have hreverse : (c :: (cs ++ [d])).reverse = d :: (c :: cs).reverse := by simp
  unfold trimChars trimLeft
  rw [List.dropWhile_cons_of_neg (by simp [hc]), hreverse, List.dropWhile_cons_of_neg (by simp [hd]), ← hreverse,
    List.reverse_reverse]

private theorem trimChars_cons_blank {c : Char} (hc : isBlank c = true) (cs : List Char) :
    trimChars (c :: cs) = trimChars cs := by
  unfold trimChars trimLeft
  rw [List.dropWhile_cons_of_pos hc]

private theorem trimChars_eq_nil_iff {cs : List Char} : trimChars cs = [] ↔ ∀ c ∈ cs, isBlank c = true := by
  have hends : trimChars cs = (cs.dropWhile isBlank).rdropWhile isBlank := rfl
  rw [hends, List.rdropWhile_eq_nil_iff]
  constructor
  · intro hleft c hc
    rw [← List.takeWhile_append_dropWhile (p := isBlank) (l := cs)] at hc
    rcases List.mem_append.1 hc with hc | hc
    · exact List.mem_takeWhile_imp hc
    · exact hleft c hc
  · intro hall c hc
    exact hall c ((List.dropWhile_sublist _).subset hc)

/-- A text that trimming does not change and that is not empty has a character that is not blank. -/
private theorem exists_not_blank_of_trim {s : String} (htrim : trim s = s) (hne : s ≠ "") :
    ∃ c ∈ s.toList, isBlank c = false := by
  by_contra hall
  push Not at hall
  have hnil : trimChars s.toList = [] := trimChars_eq_nil_iff.2 fun c hc => by simpa using hall c hc
  rw [trim, hnil] at htrim
  exact hne htrim.symm

end Text

namespace Registry

variable {r : Registry} {sig : Signature} {names : List String}

/-! ### The text of a signature -/

/-- The text between the parentheses. -/
def inner (names : List String) : List Char := [',', ' '].intercalate (names.map String.toList)

private theorem toList_nameAll (r : Registry) (sig : Signature) :
    (r.nameAll sig).toList = '(' :: (inner (sig.map r.name) ++ [')']) := by
  simp [nameAll, inner]

private theorem stripParens_enclosed (cs : List Char) : stripParens ('(' :: (cs ++ [')'])) = cs := by
  simp [stripParens]

/-- A written signature is read from the text between its own parentheses. -/
theorem parseSignature_nameAll (r : Registry) (sig : Signature) :
    r.parseSignature (r.nameAll sig) =
      if (Text.trimChars (inner (sig.map r.name))).isEmpty then .ok []
      else ((inner (sig.map r.name)).splitOn ',').mapM fun part => r.lookup (String.ofList part) := by
  simp only [parseSignature, toList_nameAll, Text.trimChars_enclosed (show Text.isBlank '(' = false by decide)
    (show Text.isBlank ')' = false by decide), stripParens_enclosed, Text.splitChars_eq_splitOn]

/-! ### Its parts -/

private theorem inner_cons_cons (name next : String) (names : List String) :
    inner (name :: next :: names) = name.toList ++ ',' :: ' ' :: inner (next :: names) := by
  simp [inner]

private theorem count_inner (names : List String) :
    (inner names).count ',' = (names.length - 1) + (names.map fun n => n.toList.count ',').sum := by
  induction names with
  | nil => simp [inner]
  | cons name names ih =>
    cases names with
    | nil => simp [inner]
    | cons next names =>
      rw [inner_cons_cons, List.count_append, List.count_cons, List.count_cons, ih]
      simp
      omega

private theorem mem_inner {name : String} {c : Char} (hname : name ∈ names) (hc : c ∈ name.toList) :
    c ∈ inner names := by
  induction names with
  | nil => cases hname
  | cons first names ih =>
    cases names with
    | nil => simpa [inner, List.mem_singleton.1 hname] using hc
    | cons next names =>
      rw [inner_cons_cons]
      rcases List.mem_cons.1 hname with rfl | hname
      · exact List.mem_append_left _ hc
      · exact List.mem_append_right _ (List.mem_cons_of_mem _ (List.mem_cons_of_mem _ (ih hname)))

/-- Without commas in the names, the parts are the names, with a space in front of all but the first. -/
private theorem splitOn_inner {name : String} (hcomma : ∀ n ∈ name :: names, ',' ∉ n.toList) :
    (inner (name :: names)).splitOn ',' = name.toList :: names.map fun n => ' ' :: n.toList := by
  induction names generalizing name with
  | nil => simp [inner, List.splitOn_eq_singleton (hcomma name List.mem_cons_self)]
  | cons next names ih =>
    have hnext : (' ' :: inner (next :: names)).splitOn ',' = (next :: names).map fun n => ' ' :: n.toList := by
      rw [List.splitOn_cons_eq_if_modifyHead, ih fun n hn => hcomma n (List.mem_cons_of_mem _ hn)]
      rfl
    rw [inner_cons_cons, List.splitOn_append_cons_self_of_not_mem (hcomma name List.mem_cons_self), hnext]

/-- A comma in a name makes more parts than there are names. -/
theorem length_lt_splitOn_inner {name : String} (hname : name ∈ names) (hcomma : ',' ∈ name.toList) :
    names.length < ((inner names).splitOn ',').length := by
  have hcount : 0 < name.toList.count ',' := List.count_pos_iff.2 hcomma
  have hpos : 0 < (names.map fun n => n.toList.count ',').sum :=
    List.sum_pos_iff_exists_pos_nat.2 ⟨_, List.mem_map_of_mem hname, hcount⟩
  rw [Text.length_splitOn, count_inner]
  omega

/-! ### Reading it -/

private theorem lookup_cons_space (r : Registry) (name : String) :
    r.lookup (String.ofList (' ' :: name.toList)) = r.lookup name := by
  have hnormalize : normalize (String.ofList (' ' :: name.toList)) = normalize name := by
    unfold normalize Text.trim
    rw [String.toList_ofList, Text.trimChars_cons_blank (by decide)]
  simp only [lookup, hnormalize]

/-- The names of types that are found under them are read as these types. -/
private theorem mapM_lookup_parts {t : TypeId} (hfound : ∀ u ∈ t :: sig, r.lookup (r.name u) = .ok u) :
    ((r.name t).toList :: (sig.map r.name).map fun n => ' ' :: n.toList).mapM
      (fun part => r.lookup (String.ofList part)) = .ok (t :: sig) := by
  have hrest : ((sig.map r.name).map fun n => ' ' :: n.toList).mapM
      (fun part => r.lookup (String.ofList part)) = .ok sig := by
    induction sig with
    | nil => rfl
    | cons u sig ih =>
      have hu := hfound u (by simp)
      have hsig := ih fun v hv => hfound v (by simp at hv ⊢; tauto)
      simp only [List.map_cons, List.mapM_cons, lookup_cons_space, hu, hsig]
      rfl
  rw [List.mapM_cons, hrest, String.ofList_toList, hfound t List.mem_cons_self]
  rfl

private theorem length_of_mapM_eq_ok {α β ε : Type} {f : α → Except ε β} {as : List α} {bs : List β}
    (h : as.mapM f = .ok bs) : bs.length = as.length := by
  induction as generalizing bs with
  | nil =>
    cases h
    rfl
  | cons a as ih =>
    rw [List.mapM_cons] at h
    cases ha : f a with
    | error e =>
      rw [ha] at h
      cases h
    | ok b =>
      cases has : as.mapM f with
      | error e =>
        rw [ha, has] at h
        cases h
      | ok rest =>
        rw [ha, has] at h
        cases h
        rw [List.length_cons, List.length_cons, ih has]

/-- A text that has a character other than blanks is not the empty list of types. -/
private theorem parseSignature_nameAll_of_not_blank {c : Char} (hc : c ∈ inner (sig.map r.name))
    (hblank : Text.isBlank c = false) :
    r.parseSignature (r.nameAll sig) =
      ((inner (sig.map r.name)).splitOn ',').mapM fun part => r.lookup (String.ofList part) := by
  have hne : Text.trimChars (inner (sig.map r.name)) ≠ [] := by
    intro hnil
    rw [Text.trimChars_eq_nil_iff.1 hnil c hc] at hblank
    cases hblank
  rw [parseSignature_nameAll, if_neg (by simpa using hne)]

/-- Without commas in its names, a signature is read back from its text. -/
private theorem parseSignature_nameAll_eq_ok (hfound : ∀ t ∈ sig, r.lookup (r.name t) = .ok t)
    (hnames : ∀ t ∈ sig, r.name t ≠ "" ∧ Text.trim (r.name t) = r.name t)
    (hcomma : ∀ t ∈ sig, ',' ∉ (r.name t).toList) : r.parseSignature (r.nameAll sig) = .ok sig := by
  cases sig with
  | nil =>
    rw [parseSignature_nameAll]
    rfl
  | cons t sig =>
    have ht := hnames t List.mem_cons_self
    obtain ⟨c, hc, hblank⟩ := Text.exists_not_blank_of_trim ht.2 ht.1
    have hparts : (inner ((t :: sig).map r.name)).splitOn ',' =
        (r.name t).toList :: (sig.map r.name).map fun n => ' ' :: n.toList := by
      apply splitOn_inner
      intro n hn
      obtain ⟨u, hu, rfl⟩ := List.mem_map.1 (show n ∈ (t :: sig).map r.name from hn)
      exact hcomma u hu
    rw [parseSignature_nameAll_of_not_blank (mem_inner (List.mem_cons_self (l := sig.map r.name)) hc) hblank, hparts]
    exact mapM_lookup_parts hfound

/-- With a comma in one of its names, a signature is read as a longer one, if at all. -/
private theorem length_lt_of_parseSignature_nameAll {t : TypeId} {sig' : Signature} (ht : t ∈ sig)
    (hcomma : ',' ∈ (r.name t).toList) (h : r.parseSignature (r.nameAll sig) = .ok sig') :
    sig.length < sig'.length := by
  have hname : r.name t ∈ sig.map r.name := List.mem_map_of_mem ht
  -- the comma itself is not blank, so the text is split
  rw [parseSignature_nameAll_of_not_blank (mem_inner hname hcomma) (by decide)] at h
  rw [length_of_mapM_eq_ok h]
  simpa using length_lt_splitOn_inner hname hcomma

private theorem trim_name_of_mem_types {calls : List Call} {t : TypeId}
    (hcalls : ∀ name, .declare name ∈ calls → Text.Settled (Text.trim name)) (ht : t ∈ (empty.run calls).types) :
    (empty.run calls).name t ≠ "" ∧ Text.trim ((empty.run calls).name t) = (empty.run calls).name t := by
  have hr := numbered_empty.run calls
  obtain ⟨i, hi, rfl⟩ := hr.mem_types_iff.1 ht
  rcases mem_names_run (Array.mem_of_getElem? (hr.name_typeOf hi)) with h | ⟨name, hname, heq, hne⟩
  · exact absurd h (Array.not_mem_empty _)
  · refine ⟨hne, ?_⟩
    rw [heq]
    exact (hcalls name hname).trimmed

/-- A signature of declared types, whatever was declared before, is read back from its text if and only if no name in
it has a comma.  If one has, the text is refused or read as a longer signature. -/
theorem parseSignature_nameAll_iff (calls : List Call)
    (hcalls : ∀ name, .declare name ∈ calls → Text.Settled (Text.trim name)) (sig : Signature)
    (hsig : ∀ t ∈ sig, t ∈ (empty.run calls).types) :
    let r := empty.run calls
    (r.parseSignature (r.nameAll sig) = .ok sig ↔ ∀ t ∈ sig, ',' ∉ (r.name t).toList) ∧
    ((∃ t ∈ sig, ',' ∈ (r.name t).toList) →
      (∃ e, r.parseSignature (r.nameAll sig) = .error e) ∨
        ∃ sig', r.parseSignature (r.nameAll sig) = .ok sig' ∧ sig.length < sig'.length) := by
  intro r
  refine ⟨⟨fun hok t ht hcomma => ?_, fun hcomma => ?_⟩, ?_⟩
  · exact Nat.lt_irrefl _ (length_lt_of_parseSignature_nameAll ht hcomma hok)
  · exact parseSignature_nameAll_eq_ok (fun t ht => lookup_name_run hcalls (hsig t ht))
      (fun t ht => trim_name_of_mem_types hcalls (hsig t ht)) hcomma
  · rintro ⟨t, ht, hcomma⟩
    cases h : r.parseSignature (r.nameAll sig) with
    | error e => exact Or.inl ⟨e, rfl⟩
    | ok sig' => exact Or.inr ⟨sig', rfl, length_lt_of_parseSignature_nameAll ht hcomma h⟩

/-- Names with parentheses and spaces, and a name that is two others with a comma between them. -/
def oddNames : List Call := [.declare "(a ", .declare "b c)", .declare "(a,b c)", .addAlias ")" "(a"]

private theorem run_oddNames :
    (empty.run oddNames).types = [⟨0⟩, ⟨1⟩, ⟨2⟩] ∧ (empty.run oddNames).name ⟨0⟩ = "(a" ∧
      (empty.run oddNames).name ⟨1⟩ = "b c)" ∧ (empty.run oddNames).name ⟨2⟩ = "(a,b c)" := by
  have hnames : normalize "(a " = "(a" ∧ normalize "b c)" = "b c)" ∧ normalize "(a,b c)" = "(a,b c)" ∧
      normalize ")" = ")" ∧ normalize "(a" = "(a" := by decide
  obtain ⟨ha, hb, hc, hd, ha'⟩ := hnames
  simp [oddNames, run, perform, declare, addAlias, empty, size, TypeId.ofInt, types, name, TypeId.valid,
    Std.HashMap.getD_insert, ha, hb, hc, hd, ha']

/-- Parentheses and spaces in names do no harm; a name with a comma cannot be read back. -/
theorem parseSignature_oddNames :
    let r := empty.run oddNames
    r.parseSignature (r.nameAll [⟨1⟩, ⟨0⟩, ⟨1⟩]) = .ok [⟨1⟩, ⟨0⟩, ⟨1⟩] ∧
      ((∃ e, r.parseSignature (r.nameAll [⟨2⟩]) = .error e) ∨
        ∃ sig', r.parseSignature (r.nameAll [⟨2⟩]) = .ok sig' ∧ 1 < sig'.length) := by
  intro r
  obtain ⟨htypes, h0, h1, h2⟩ := run_oddNames
  have hascii : ∀ name, .declare name ∈ oddNames → Text.Settled (Text.trim name) := by
    intro name hname
    apply Text.settled_trim_of_ascii
    simp only [oddNames, List.mem_cons, Call.declare.injEq, reduceCtorEq, List.not_mem_nil, or_false] at hname
    rcases hname with rfl | rfl | rfl <;> decide
  refine ⟨(parseSignature_nameAll_iff oddNames hascii _ ?_).1.2 ?_,
    (parseSignature_nameAll_iff oddNames hascii _ ?_).2 ?_⟩
  · simp [htypes]
  · simp [h0, h1]
  · simp [htypes]
  · exact ⟨⟨2⟩, List.mem_singleton_self _, by rw [h2]; decide⟩

end Registry

end Coercion
