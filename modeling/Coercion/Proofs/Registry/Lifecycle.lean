import Coercion.Proofs.Order
import Coercion.Proofs.Registry.Numbering
import Mathlib.Data.List.DropRight

/-!
# The life of a registry

Calls to a registry declare types and make aliases.  A call can do three things to the registry: give the next number
to a new name, give the number of a known name to a new one, or nothing at all (`perform_cases`), and a call that is
refused does nothing.

So whatever the calls, a number belongs to the name that was declared under it (`Numbered.run`), the types are numbered
without gaps in the order in which they were given (`Numbered.types_run`), and a name never changes its type
(`index_run`).

Names are kept in the form in which they are compared.  Resolving the name of a type compares it once more, and finds it
if composing a text twice is composing it once and brings no blanks to its ends (`Text.Settled`).
-/

namespace Coercion

/-! ### Texts -/

namespace Text

/-- Composing the text again changes nothing, and neither does trimming it then. -/
structure Settled (s : String) : Prop where
  idempotent : normal (normal s) = normal s
  trimmed : trim (normal s) = normal s

private theorem trimChars_trimChars (cs : List Char) : trimChars (trimChars cs) = trimChars cs := by
  show ((cs.dropWhile isBlank).rdropWhile isBlank |>.dropWhile isBlank).rdropWhile isBlank =
    (cs.dropWhile isBlank).rdropWhile isBlank
  -- what is removed at the end leaves the first character in place
  have hstart : ((cs.dropWhile isBlank).rdropWhile isBlank).dropWhile isBlank =
      (cs.dropWhile isBlank).rdropWhile isBlank := by
    rw [List.dropWhile_eq_self_iff]
    intro hpos
    have hkept : (cs.dropWhile isBlank).rdropWhile isBlank <+: cs.dropWhile isBlank := List.rdropWhile_prefix _ _
    rw [hkept.getElem hpos]
    exact List.dropWhile_eq_self_iff.1 (List.dropWhile_idempotent _ _) _
  rw [hstart, List.rdropWhile_idempotent]

private theorem trim_trim (s : String) : trim (trim s) = trim s := by
  simp only [trim, String.toList_ofList, trimChars_trimChars]

private theorem mem_of_mem_trimChars {cs : List Char} {c : Char} (h : c ∈ trimChars cs) : c ∈ cs :=
  (List.dropWhile_sublist _).subset ((List.rdropWhile_prefix isBlank _).subset h)

private theorem normal_of_ascii {s : String} (h : s.toList.all (·.toNat < 0x80) = true) : normal s = s := by
  rw [normal, normalChars, if_pos h, String.ofList_toList]

/-- Texts without other characters than those of ASCII are composed. -/
theorem settled_trim_of_ascii {s : String} (h : s.toList.all (·.toNat < 0x80) = true) : Settled (trim s) := by
  have hnormal : normal (trim s) = trim s := by
    apply normal_of_ascii
    rw [List.all_eq_true] at h ⊢
    intro c hc
    rw [trim, String.toList_ofList] at hc
    exact h c (mem_of_mem_trimChars hc)
  exact ⟨congrArg normal hnormal, by rw [hnormal, trim_trim]⟩

end Text

namespace Registry

variable {r : Registry} {n : String} {t : TypeId} {i : Nat}

/-- A name is kept in the form in which it is compared. -/
private theorem normalize_normalize (h : Text.Settled (Text.trim n)) : normalize (normalize n) = normalize n := by
  unfold normalize
  rw [h.trimmed, h.idempotent]

/-! ### Calls -/

/-- What can be asked of a registry. -/
inductive Call where
  | declare (name : String)
  | addAlias (name target : String)

/-- What a call gives back, a type if it declares one, and the registry after it. -/
def perform (r : Registry) : Call → Except Refusal (Option TypeId) × Registry
  | .declare name =>
    match r.declare name with
    | .ok (t, r') => (.ok (some t), r')
    | .error e => (.error e, r)
  | .addAlias name target =>
    match r.addAlias name target with
    | .ok r' => (.ok none, r')
    | .error e => (.error e, r)

/-- The registry after some calls, made one after the other. -/
def run (r : Registry) (calls : List Call) : Registry := calls.foldl (fun r c => (r.perform c).2) r

/-- The type that a call gives, if it is a declaration that succeeds. -/
def given? (r : Registry) (c : Call) : Option TypeId :=
  match (r.perform c).1 with
  | .ok t => t
  | .error _ => none

/-- The types that some calls give, in order. -/
def given (r : Registry) : List Call → List TypeId
  | [] => []
  | c :: calls => (r.given? c).toList ++ (r.perform c).2.given calls

theorem run_cons (r : Registry) (c : Call) (calls : List Call) : r.run (c :: calls) = (r.perform c).2.run calls := rfl

theorem run_append (r : Registry) (calls later : List Call) : r.run (calls ++ later) = (r.run calls).run later :=
  List.foldl_append

/-! ### One call -/

/-- All that a call can do to the registry. -/
theorem perform_cases (r : Registry) (c : Call) :
    (∃ name, c = .declare name ∧ normalize name ≠ "" ∧ normalize name ∉ r.index ∧ r.size < typeLimit ∧
      r.perform c = (.ok (some (typeOf r.size)),
        ⟨r.names.push (normalize name), r.index.insert (normalize name) (typeOf r.size)⟩)) ∨
    (∃ name target t, c = .addAlias name target ∧ normalize name ∉ r.index ∧ r.index[normalize target]? = some t ∧
      r.perform c = (.ok none, ⟨r.names, r.index.insert (normalize name) t⟩)) ∨
    ∃ e, r.perform c = (.error e, r) := by
  cases c with
  | declare name =>
    cases h : r.declare name with
    | error e => exact Or.inr (Or.inr ⟨e, by simp only [perform, h]⟩)
    | ok tr =>
      obtain ⟨t, ⟨names, index⟩⟩ := tr
      obtain ⟨hname, hnew, hlt⟩ := exists_declare_eq_ok_iff.1 ⟨_, _, h⟩
      obtain ⟨-, rfl, rfl, rfl⟩ := declare_eq_ok h
      exact Or.inl ⟨name, rfl, hname, hnew, hlt, by simp only [perform, h]⟩
  | addAlias name target =>
    cases h : r.addAlias name target with
    | error e => exact Or.inr (Or.inr ⟨e, by simp only [perform, h]⟩)
    | ok r' =>
      obtain ⟨names, index⟩ := r'
      obtain ⟨-, hnew, -⟩ := addAlias_eq_ok_iff.1 ⟨_, h⟩
      obtain ⟨rfl, t, ht, rfl⟩ := addAlias_eq_ok h
      exact Or.inr (Or.inl ⟨name, target, t, rfl, hnew, ht, by simp only [perform, h]⟩)

/-- A call that is refused leaves the registry as it is. -/
private theorem perform_of_error {c : Call} {e : Refusal} (h : (r.perform c).1 = .error e) : (r.perform c).2 = r := by
  obtain ⟨name, -, -, -, -, hperform⟩ | ⟨name, target, t, -, -, -, hperform⟩ | ⟨e, hperform⟩ := r.perform_cases c
  · rw [hperform] at h
    cases h
  · rw [hperform] at h
    cases h
  · rw [hperform]

private theorem mem_index_iff_lookup : normalize n ∈ r.index ↔ ∃ t, r.lookup n = .ok t := by
  simp only [lookup_eq_ok, Std.HashMap.mem_iff_isSome_getElem?, Option.isSome_iff_exists]

private theorem fst_perform_declare_eq_error_iff (hr : r.size ≤ typeLimit) :
    (∃ e, (r.perform (.declare n)).1 = .error e) ↔
      normalize n = "" ∨ (∃ t, r.lookup n = .ok t) ∨ r.size = typeLimit := by
  have hok : (∃ t r', r.declare n = .ok (t, r')) ↔ _ := exists_declare_eq_ok_iff
  rw [mem_index_iff_lookup] at hok
  simp only [perform]
  cases h : r.declare n with
  | ok tr =>
    obtain ⟨hname, hnew, hlt⟩ := hok.1 ⟨_, _, h⟩
    simp [hname, hnew, hlt.ne]
  | error e =>
    have hno : ¬(normalize n ≠ "" ∧ (¬∃ t, r.lookup n = .ok t) ∧ r.size < typeLimit) := by
      rw [← hok, h]
      simp
    refine ⟨fun _ => ?_, fun _ => ⟨e, rfl⟩⟩
    by_contra hall
    push Not at hall
    exact hno ⟨hall.1, by simpa using hall.2.1, lt_of_le_of_ne hr hall.2.2⟩

private theorem fst_perform_addAlias_eq_error_iff {target : String} :
    (∃ e, (r.perform (.addAlias n target)).1 = .error e) ↔
      normalize n = "" ∨ (∃ t, r.lookup n = .ok t) ∨ ¬∃ t, r.lookup target = .ok t := by
  have hok : (∃ r', r.addAlias n target = .ok r') ↔ _ := addAlias_eq_ok_iff
  rw [mem_index_iff_lookup, mem_index_iff_lookup] at hok
  simp only [perform]
  cases h : r.addAlias n target with
  | ok r' =>
    obtain ⟨hname, hnew, htarget⟩ := hok.1 ⟨_, h⟩
    simp [hname, hnew, htarget]
  | error e =>
    have hno : ¬(normalize n ≠ "" ∧ (¬∃ t, r.lookup n = .ok t) ∧ ∃ t, r.lookup target = .ok t) := by
      rw [← hok, h]
      simp
    refine ⟨fun _ => ?_, fun _ => ⟨e, rfl⟩⟩
    by_contra hall
    push Not at hall
    exact hno ⟨hall.1, by simpa using hall.2.1, hall.2.2⟩

/-! ### Names keep their types -/

private theorem index_perform (h : r.index[n]? = some t) (c : Call) : (r.perform c).2.index[n]? = some t := by
  have hkeep : ∀ key u, key ∉ r.index → (r.index.insert key u)[n]? = some t := by
    intro key u hnew
    have hne : key ≠ n := by
      rintro rfl
      exact hnew (Std.HashMap.mem_iff_isSome_getElem?.2 (by rw [h]; rfl))
    rw [Std.HashMap.getElem?_insert, if_neg (by simpa using hne), h]
  obtain ⟨name, -, -, hnew, -, hperform⟩ | ⟨name, target, u, -, hnew, -, hperform⟩ | ⟨e, hperform⟩ := r.perform_cases c
  · rw [hperform]
    exact hkeep _ _ hnew
  · rw [hperform]
    exact hkeep _ _ hnew
  · rw [hperform]
    exact h

theorem index_run (h : r.index[n]? = some t) (calls : List Call) : (r.run calls).index[n]? = some t := by
  induction calls generalizing r with
  | nil => exact h
  | cons c calls ih => exact ih (index_perform h c)

/-! ### Names are declared -/

private theorem mem_names_perform {c : Call} (h : n ∈ (r.perform c).2.names) :
    n ∈ r.names ∨ ∃ name, c = .declare name ∧ n = normalize name ∧ n ≠ "" := by
  obtain ⟨name, rfl, hname, -, -, hperform⟩ | ⟨name, target, u, -, -, -, hperform⟩ | ⟨e, hperform⟩ := r.perform_cases c
  · rw [hperform] at h
    rcases Array.mem_push.1 h with h | rfl
    · exact Or.inl h
    · exact Or.inr ⟨name, rfl, rfl, hname⟩
  · rw [hperform] at h
    exact Or.inl h
  · rw [hperform] at h
    exact Or.inl h

theorem mem_names_run {calls : List Call} (h : n ∈ (r.run calls).names) :
    n ∈ r.names ∨ ∃ name, .declare name ∈ calls ∧ n = normalize name ∧ n ≠ "" := by
  induction calls generalizing r with
  | nil => exact Or.inl h
  | cons c calls ih =>
    rcases ih h with h | ⟨name, hname, hn⟩
    · rcases mem_names_perform h with h | ⟨name, rfl, hn⟩
      · exact Or.inl h
      · exact Or.inr ⟨name, List.mem_cons_self, hn⟩
    · exact Or.inr ⟨name, List.mem_cons_of_mem _ hname, hn⟩

/-! ### Numbers -/

private theorem toInt_typeOf (h : i < typeLimit) : (typeOf i).id.toInt = i := Int32.toInt_ofNat_of_lt h

/-- A declared name has the type of its number. -/
structure Numbered (r : Registry) : Prop extends r.WellFormed where
  named : ∀ i n, r.names[i]? = some n → r.index[n]? = some (typeOf i)

private theorem WellFormed.perform (hr : r.WellFormed) (c : Call) : (r.perform c).2.WellFormed := by
  cases c with
  | declare name =>
    simp only [Registry.perform]
    cases h : r.declare name with
    | ok tr => exact hr.declare h
    | error e => exact hr
  | addAlias name target =>
    simp only [Registry.perform]
    cases h : r.addAlias name target with
    | ok r' => exact hr.addAlias h
    | error e => exact hr

theorem numbered_empty : empty.Numbered := ⟨wellFormed_empty, fun i n h => by cases h⟩

namespace Numbered

/-- Declared names are different because their numbers are. -/
private theorem nodup_names (hr : r.Numbered) : r.names.toList.Nodup := by
  rw [List.Nodup, List.pairwise_iff_getElem]
  intro i j hi hj hij heq
  rw [Array.length_toList] at hi hj
  have hlt : j < typeLimit := Nat.lt_of_lt_of_le hj hr.size_le
  have hi' := hr.named i _ (Array.getElem?_eq_getElem hi)
  have hj' := hr.named j _ (Array.getElem?_eq_getElem hj)
  rw [Array.getElem_toList, Array.getElem_toList] at heq
  rw [heq, hj', Option.some.injEq] at hi'
  have hnumber := congrArg (fun t : TypeId => t.id.toInt) hi'
  simp only [toInt_typeOf hlt, toInt_typeOf (hij.trans hlt)] at hnumber
  omega

private theorem types_eq (hr : r.Numbered) : r.types = (List.range r.size).map typeOf := by
  apply List.ext_getElem
  · simp [types, size]
  · intro i hi _
    have hi' : i < r.names.size := by simpa [types] using hi
    have hnamed := hr.named i _ (Array.getElem?_eq_getElem hi')
    simp [types, Std.HashMap.getD_eq_getD_getElem?, hnamed]

theorem mem_types_iff (hr : r.Numbered) : t ∈ r.types ↔ ∃ i < r.size, typeOf i = t := by
  simp [hr.types_eq]

theorem valid_of_mem_types (hr : r.Numbered) (ht : t ∈ r.types) : t.valid := by
  obtain ⟨i, hi, rfl⟩ := hr.mem_types_iff.1 ht
  exact valid_typeOf (Nat.lt_of_lt_of_le hi hr.size_le)

theorem name_typeOf (hr : r.Numbered) (h : i < r.size) : r.names[i]? = some (r.name (typeOf i)) := by
  have hlt : i < typeLimit := Nat.lt_of_lt_of_le h hr.size_le
  unfold size at h
  simp [name, valid_typeOf hlt, toInt_typeOf hlt, h]

private theorem perform (hr : r.Numbered) (c : Call) : (r.perform c).2.Numbered := by
  refine ⟨hr.toWellFormed.perform c, fun i n hn => ?_⟩
  have hold : r.names[i]? = some n → (r.perform c).2.index[n]? = some (typeOf i) := fun h =>
    index_perform (hr.named i n h) c
  obtain ⟨name, -, -, -, -, hperform⟩ | ⟨name, target, u, -, -, -, hperform⟩ | ⟨e, hperform⟩ := r.perform_cases c
  · simp only [hperform] at hn hold ⊢
    rw [Array.getElem?_push] at hn
    split at hn
    · rename_i hi
      rw [← Option.some.inj hn, Std.HashMap.getElem?_insert_self, hi, size]
    · exact hold hn
  · simp only [hperform] at hn hold ⊢
    exact hold hn
  · simp only [hperform] at hn hold ⊢
    exact hold hn

theorem run (hr : r.Numbered) (calls : List Call) : (r.run calls).Numbered := by
  induction calls generalizing r with
  | nil => exact hr
  | cons c calls ih => exact ih (hr.perform c)

/-- The type of a declaration is added to the types of the registry, at their end. -/
private theorem types_perform (hr : r.Numbered) (c : Call) :
    (r.perform c).2.types = r.types ++ (r.given? c).toList := by
  rw [(hr.perform c).types_eq, hr.types_eq]
  unfold given?
  obtain ⟨name, -, -, -, -, hperform⟩ | ⟨name, target, u, -, -, -, hperform⟩ | ⟨e, hperform⟩ := r.perform_cases c
  · simp [hperform, size, List.range_succ]
  · simp [hperform, size]
  · simp [hperform]

theorem types_run (hr : r.Numbered) (calls : List Call) : (r.run calls).types = r.types ++ r.given calls := by
  induction calls generalizing r with
  | nil => simp [Registry.run, given]
  | cons c calls ih => rw [run_cons, ih (hr.perform c), hr.types_perform, given, List.append_assoc]

theorem mem_types_of_lookup (hr : r.Numbered) (h : r.lookup n = .ok t) : t ∈ r.types := by
  obtain ⟨i, hi, rfl⟩ := hr.declared _ _ (lookup_eq_ok.1 h)
  exact hr.mem_types_iff.2 ⟨i, hi, rfl⟩

private theorem toInt_types (hr : r.Numbered) : r.types.map (·.id.toInt) = (List.range r.size).map Int.ofNat := by
  rw [hr.types_eq, List.map_map]
  refine List.map_congr_left fun i hi => ?_
  exact toInt_typeOf (Nat.lt_of_lt_of_le (List.mem_range.1 hi) hr.size_le)

end Numbered

/-! ### From the beginning -/

/-- Names of declared types are in the form in which they are compared, given that the names that were declared are. -/
private theorem normalize_of_mem_names {calls : List Call}
    (hcalls : ∀ name, .declare name ∈ calls → Text.Settled (Text.trim name)) (h : n ∈ (empty.run calls).names) :
    n ≠ "" ∧ normalize n = n := by
  rcases mem_names_run h with h | ⟨name, hname, rfl, hne⟩
  · exact absurd h (Array.not_mem_empty n)
  · exact ⟨hne, normalize_normalize (hcalls name hname)⟩

/-- The name of a type leads to the type. -/
theorem lookup_name_run {calls : List Call}
    (hcalls : ∀ name, .declare name ∈ calls → Text.Settled (Text.trim name)) (ht : t ∈ (empty.run calls).types) :
    (empty.run calls).lookup ((empty.run calls).name t) = .ok t := by
  have hr := numbered_empty.run calls
  obtain ⟨i, hi, rfl⟩ := hr.mem_types_iff.1 ht
  have hname := Array.mem_of_getElem? (hr.name_typeOf hi)
  rw [lookup_eq_ok, (normalize_of_mem_names hcalls hname).2]
  exact hr.named i _ (hr.name_typeOf hi)

/-- A registry from its making on, whatever is called.  Its names are different and in the form in which they are
compared.  Its types are those that the declarations gave, numbered from zero without gaps; each is found under its
name, and nothing else is found under any name.  What a name leads to stays so for good, and depends only on the form in
which names are compared.  A refused call changes nothing; a call is refused for an empty name or a name in use, a
declaration also if no number is left, and an alias also if its target is unknown. -/
theorem run_keeps_numbering (calls : List Call)
    (hcalls : ∀ name, .declare name ∈ calls → Text.Settled (Text.trim name)) :
    let r := empty.run calls
    (∀ n ∈ r.names, n ≠ "" ∧ normalize n = n) ∧ r.names.toList.Nodup ∧
    empty.given calls = r.types ∧ r.types.map (·.id.toInt) = (List.range r.size).map Int.ofNat ∧
    (∀ t ∈ r.types, r.lookup (r.name t) = .ok t) ∧
    (∀ n t, r.lookup n = .ok t → t ∈ r.types ∧ ∀ later, (r.run later).lookup n = .ok t) ∧
    (∀ a b, normalize a = normalize b → r.lookup a = r.lookup b) ∧
    (∀ c e, (r.perform c).1 = .error e → (r.perform c).2 = r) ∧
    (∀ n, (∃ e, (r.perform (.declare n)).1 = .error e) ↔
      normalize n = "" ∨ (∃ t, r.lookup n = .ok t) ∨ r.size = typeLimit) ∧
    ∀ n target, (∃ e, (r.perform (.addAlias n target)).1 = .error e) ↔
      normalize n = "" ∨ (∃ t, r.lookup n = .ok t) ∨ ¬∃ t, r.lookup target = .ok t := by
  intro r
  have hr : r.Numbered := numbered_empty.run calls
  refine ⟨fun n hn => normalize_of_mem_names hcalls hn, hr.nodup_names, ?_, hr.toInt_types,
    fun t ht => lookup_name_run hcalls ht, fun n t h => ⟨hr.mem_types_of_lookup h, fun later => ?_⟩, fun a b hab => ?_,
    fun c e => perform_of_error, fun n => fst_perform_declare_eq_error_iff hr.size_le,
    fun n target => fst_perform_addAlias_eq_error_iff⟩
  · exact (numbered_empty.types_run calls).symm
  · exact lookup_eq_ok.2 (index_run (lookup_eq_ok.1 h) later)
  · simp only [lookup, hab]

/-- A type is declared twice, the second time in vain, and an alias stands between the declarations of two types. -/
def declaredTwice : List Call := [.declare " a ", .addAlias "b" "a", .declare "a", .addAlias "c" "d", .declare "c"]

private theorem given_declaredTwice : empty.given declaredTwice = [⟨0⟩, ⟨1⟩] := by
  have hnames : normalize " a " = "a" ∧ normalize "a" = "a" ∧ normalize "b" = "b" ∧ normalize "c" = "c" ∧
      normalize "d" = "d" := by decide
  obtain ⟨ha', ha, hb, hc, hd⟩ := hnames
  simp [given, given?, declaredTwice, perform, declare, addAlias, empty, size, TypeId.ofInt, ha', ha, hb, hc, hd]

/-- Only the declarations that succeed take a number, and each type is found under its name. -/
theorem run_declaredTwice :
    (empty.run declaredTwice).types = [⟨0⟩, ⟨1⟩] ∧
      ∀ later, ∀ t ∈ [⟨0⟩, ⟨1⟩],
        ((empty.run declaredTwice).run later).lookup ((empty.run declaredTwice).name t) = .ok t := by
  have hascii : ∀ name, .declare name ∈ declaredTwice → Text.Settled (Text.trim name) := by
    intro name hname
    apply Text.settled_trim_of_ascii
    simp only [declaredTwice, List.mem_cons, Call.declare.injEq, reduceCtorEq, List.not_mem_nil, or_false,
      false_or] at hname
    rcases hname with rfl | rfl | rfl <;> decide
  obtain ⟨-, -, hgiven, -, hname, hlookup, -⟩ := run_keeps_numbering declaredTwice hascii
  rw [given_declaredTwice] at hgiven
  refine ⟨hgiven.symm, fun later t ht => ?_⟩
  exact (hlookup _ _ (hname t (hgiven ▸ ht))).2 later

end Registry

end Coercion
