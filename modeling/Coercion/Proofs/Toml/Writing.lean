import Coercion.Toml.Reading
import Mathlib.Data.List.Basic

/-!
# What is written reads back

A string that is written down reads back as itself (`readString_writeString`), and so does a key
(`readKeyPart_writeKeyPart`), whatever characters it is made of.  The statements for a value or a line leave open what
follows it: a text `Holds` some statements if any fuel longer than it reads them, so that a document is read from its
last line to its first, one line at a time.
-/

namespace Coercion.Toml

/-! ### Strings -/

/-- One character between double quotes. -/
def escapeOne (c : Char) : List Char := escapeBasic [c]

private theorem escapeBasic_cons (c : Char) (cs : List Char) :
    escapeBasic (c :: cs) = escapeOne c ++ escapeBasic cs := by
  simp [escapeOne, escapeBasic]

/-- A character that stands for itself between double quotes. -/
def isVerbatim (c : Char) : Bool := c != '"' && c != '\\' && 0x20 ≤ c.toNat && c.toNat != 0x7f

/-- A character is written by itself, or as an escape of one letter, or in hexadecimal. -/
private theorem escapeOne_cases (c : Char) :
    (isVerbatim c = true ∧ escapeOne c = [c]) ∨
    (∃ d ∈ ['b', 't', 'n', 'f', 'r', '"', '\\'], simpleEscape? d = some c ∧ escapeOne c = ['\\', d]) ∨
    ((c.toNat < 0x20 ∨ c.toNat = 0x7f) ∧ escapeOne c = '\\' :: 'u' :: Text.hexPadded 4 c.toNat) := by
  simp only [escapeOne, escapeBasic, List.flatMap_singleton]
  split
  · exact .inr (.inl ⟨'"', by simp, rfl, rfl⟩)
  · exact .inr (.inl ⟨'\\', by simp, rfl, rfl⟩)
  · exact .inr (.inl ⟨'b', by simp, rfl, rfl⟩)
  · exact .inr (.inl ⟨'t', by simp, rfl, rfl⟩)
  · exact .inr (.inl ⟨'n', by simp, rfl, rfl⟩)
  · exact .inr (.inl ⟨'f', by simp, rfl, rfl⟩)
  · exact .inr (.inl ⟨'r', by simp, rfl, rfl⟩)
  · rename_i c hquote hslash _ _ _ _ _
    split_ifs with hcontrol
    · exact .inr (.inr ⟨hcontrol, rfl⟩)
    · refine .inl ⟨?_, rfl⟩
      simp only [isVerbatim, Bool.and_eq_true, bne_iff_ne, decide_eq_true_eq]
      exact ⟨⟨⟨hquote, hslash⟩, by omega⟩, by omega⟩

/-- The hexadecimal escape of a control character. -/
private theorem hexPadded_control {n : Nat} (hn : n < 0x20 ∨ n = 0x7f) :
    ∃ a b c d, Text.hexPadded 4 n = [a, b, c, d] ∧ escapedChar? [a, b, c, d] = some (Char.ofNat n) ∧
      ∀ x ∈ [a, b, c, d], isVerbatim x = true := by
  have hall : ∀ n : Fin 0x80, (Text.hexPadded 4 n).length = 4 ∧
      escapedChar? (Text.hexPadded 4 n) = some (Char.ofNat n) ∧ (Text.hexPadded 4 n).all isVerbatim = true := by
    decide +kernel
  obtain ⟨hlength, hchar, hverbatim⟩ := hall ⟨n, by omega⟩
  match hdigits : Text.hexPadded 4 n, hlength with
  | [a, b, c, d], _ => exact ⟨a, b, c, d, rfl, hdigits ▸ hchar, by simpa [hdigits] using hverbatim⟩

private theorem unescape_verbatim {c : Char} (hc : isVerbatim c = true) (cs : List Char) :
    unescape (c :: cs) = (unescape cs).map (c :: ·) := by
  have hne : c ≠ '\\' := by
    rintro rfl
    cases hc
  rw [unescape.eq_6]
  · cases unescape cs <;> rfl
  all_goals simp [hne]

/-- The escape of a character reads as that character. -/
private theorem unescape_escapeOne (c : Char) (cs : List Char) :
    unescape (escapeOne c ++ cs) = (unescape cs).map (c :: ·) := by
  obtain ⟨hc, hone⟩ | ⟨d, hd, hescape, hone⟩ | ⟨hcontrol, hone⟩ := escapeOne_cases c
  · rw [hone]
    exact unescape_verbatim hc cs
  · have hu : d ≠ 'u' := by rintro rfl; revert hd; decide
    have hU : d ≠ 'U' := by rintro rfl; revert hd; decide
    rw [hone, List.cons_append, List.cons_append, List.nil_append, unescape.eq_4 _ _ (by simp [hu]) (by simp [hU]),
      hescape]
    cases unescape cs <;> rfl
  · obtain ⟨x₁, x₂, x₃, x₄, hdigits, hchar, -⟩ := hexPadded_control hcontrol
    rw [hone, hdigits]
    simp only [List.cons_append, List.nil_append]
    rw [unescape.eq_2, hchar, Char.ofNat_toNat]
    cases unescape cs <;> rfl

private theorem unescape_escapeBasic (cs : List Char) : unescape (escapeBasic cs) = some cs := by
  induction cs with
  | nil => rfl
  | cons c cs ih =>
    rw [escapeBasic_cons, unescape_escapeOne, ih]
    rfl

private theorem lineString_verbatim {c : Char} (hc : isVerbatim c = true) (cs : List Char) :
    lineString '"' true (c :: cs) = (lineString '"' true cs).map fun p => (c :: p.1, p.2) := by
  have hquote : c ≠ '"' := by rintro rfl; cases hc
  have hslash : c ≠ '\\' := by rintro rfl; cases hc
  have hline : isLineEnd c = false := by
    by_contra h
    simp only [isLineEnd, Bool.not_eq_false, Bool.or_eq_true, beq_iff_eq] at h
    rcases h with rfl | rfl <;> cases hc
  rw [lineString.eq_3 _ _ _ _ (by simp [hslash]), if_neg hquote, hline]
  rfl

/-- The escape of a character is read as a whole. -/
private theorem lineString_escapeOne (c : Char) (cs : List Char) :
    lineString '"' true (escapeOne c ++ cs) = (lineString '"' true cs).map fun p => (escapeOne c ++ p.1, p.2) := by
  have hescape (d : Char) (hd : isLineEnd d = false) (cs : List Char) :
      lineString '"' true ('\\' :: d :: cs) = (lineString '"' true cs).map fun p => ('\\' :: d :: p.1, p.2) := by
    rw [lineString.eq_2, if_pos rfl, hd]
    rfl
  obtain ⟨hc, hone⟩ | ⟨d, hd, -, hone⟩ | ⟨hcontrol, hone⟩ := escapeOne_cases c
  · rw [hone]
    exact lineString_verbatim hc cs
  · have hletters : ∀ d ∈ ['b', 't', 'n', 'f', 'r', '"', '\\'], isLineEnd d = false := by simp [isLineEnd]
    rw [hone]
    exact hescape d (hletters d hd) cs
  · obtain ⟨x₁, x₂, x₃, x₄, hdigits, -, hverbatim⟩ := hexPadded_control hcontrol
    simp only [List.mem_cons, List.not_mem_nil, or_false, forall_eq_or_imp, forall_eq] at hverbatim
    obtain ⟨h₁, h₂, h₃, h₄⟩ := hverbatim
    rw [hone, hdigits]
    simp only [List.cons_append, List.nil_append]
    rw [hescape 'u' rfl, lineString_verbatim h₁, lineString_verbatim h₂, lineString_verbatim h₃,
      lineString_verbatim h₄]
    cases lineString '"' true cs <;> rfl

private theorem lineString_escapeBasic (cs r : List Char) :
    lineString '"' true (escapeBasic cs ++ '"' :: r) = some (escapeBasic cs, r) := by
  induction cs with
  | nil => rw [escapeBasic, List.flatMap_nil, List.nil_append, lineString.eq_3 _ _ _ _ (by simp), if_pos rfl]
  | cons c cs ih =>
    rw [escapeBasic_cons, List.append_assoc, lineString_escapeOne, ih]
    rfl

private theorem toList_writeString (s : String) : (writeString s).toList = '"' :: (escapeBasic s.toList ++ ['"']) :=
  String.toList_ofList

/-- The text between two quotes does not start with a quote. -/
private theorem escapeOne_append_ne (c : Char) (cs r : List Char) : escapeOne c ++ cs ≠ '"' :: r := by
  intro h
  obtain ⟨hc, hone⟩ | ⟨d, -, -, hone⟩ | ⟨-, hone⟩ := escapeOne_cases c
  · rw [hone, List.cons_append, List.cons.injEq] at h
    rw [h.1] at hc
    cases hc
  · simp [hone] at h
  · simp [hone] at h

/-- A written string reads as itself, unless a further quote follows the empty one. -/
theorem readString_writeString (s : String) {r : List Char} (hr : r.head? ≠ some '"') :
    readString ((writeString s).toList ++ r) = some (.string s, r) := by
  -- three quotes would open a string of several lines
  have hblock : ∀ r', escapeBasic s.toList ++ '"' :: r ≠ '"' :: '"' :: r' := by
    intro r' h
    cases hs : s.toList with
    | nil =>
      rw [hs, escapeBasic, List.flatMap_nil, List.nil_append, List.cons.injEq] at h
      simp [h.2] at hr
    | cons c cs =>
      rw [hs, escapeBasic_cons, List.append_assoc] at h
      exact escapeOne_append_ne _ _ _ h
  rw [toList_writeString, List.cons_append, List.append_assoc, List.cons_append, List.nil_append,
    readString.eq_2 _ hblock, lineString_escapeBasic]
  simp [unescape_escapeBasic, String.ofList_toList]

/-! ### Keys -/

private theorem toList_writeKeyPart_cases (k : String) :
    (k.toList ≠ [] ∧ k.toList.all isBareKey = true ∧ (writeKeyPart k).toList = k.toList) ∨
    (writeKeyPart k).toList = (writeString k).toList := by
  unfold writeKeyPart
  split_ifs with h
  · exact .inl ⟨by simpa using h.1, h.2, rfl⟩
  · exact .inr rfl

/-- A character that a written key may start with. -/
def StartsKey (c : Char) : Prop := c = '"' ∨ isBareKey c = true

theorem exists_writeKeyPart_eq_cons (k : String) : ∃ c cs, (writeKeyPart k).toList = c :: cs ∧ StartsKey c := by
  obtain ⟨hne, hall, hk⟩ | hk := toList_writeKeyPart_cases k
  · obtain ⟨c, cs, hcs⟩ := List.exists_cons_of_ne_nil hne
    exact ⟨c, cs, hk.trans hcs, .inr (by simp_all)⟩
  · exact ⟨_, _, hk.trans (toList_writeString k), .inl rfl⟩

/-- A written key reads as itself, if no character of a key follows. -/
theorem readKeyPart_writeKeyPart (k : String) {r : List Char} (hr : ∀ c ∈ r.head?, isBareKey c = false) :
    readKeyPart ((writeKeyPart k).toList ++ r) = some (k, r) := by
  have hrest : r.takeWhile isBareKey = [] ∧ r.dropWhile isBareKey = r := by
    cases r with
    | nil => exact ⟨rfl, rfl⟩
    | cons c r => simp [hr c rfl]
  obtain ⟨hne, hall, hk⟩ | hk := toList_writeKeyPart_cases k
  · rw [hk]
    obtain ⟨c, cs, hcs⟩ := List.exists_cons_of_ne_nil hne
    have hbare : ∀ c ∈ k.toList, isBareKey c = true := by simpa using hall
    have hc : isBareKey c = true := hbare c (by simp [hcs])
    have hmark : ∀ m r', isBareKey m = false → k.toList ++ r ≠ m :: r' := by
      intro m r' hm h
      rw [hcs, List.cons_append, List.cons.injEq] at h
      rw [← h.1, hc] at hm
      cases hm
    rw [readKeyPart.eq_3 _ (fun r' => hmark '"' r' rfl) (fun r' => hmark '\'' r' rfl)]
    simp only [List.takeWhile_append_of_pos hbare, List.dropWhile_append_of_pos hbare, hrest, List.append_nil]
    simp [hne, String.ofList_toList]
  · rw [hk, toList_writeString, List.cons_append, List.append_assoc, readKeyPart, List.cons_append, List.nil_append,
      lineString_escapeBasic]
    simp [unescape_escapeBasic, String.ofList_toList]

namespace StartsKey

variable {c d : Char}

theorem ne (hc : StartsKey c) (hd : d ≠ '"') (hd' : isBareKey d = false) : c ≠ d := by
  rintro rfl
  rcases hc with rfl | hc
  · exact hd rfl
  · rw [hd'] at hc
    cases hc

private theorem isBlockBlank_eq_false (hc : StartsKey c) : isBlockBlank c = false := by
  have h₁ := hc.ne (d := ' ') (by decide) rfl
  have h₂ := hc.ne (d := '\t') (by decide) rfl
  have h₃ := hc.ne (d := '\n') (by decide) rfl
  have h₄ := hc.ne (d := '\r') (by decide) rfl
  simp [isBlockBlank, isSpace, isLineEnd, h₁, h₂, h₃, h₄]

private theorem isSpace_eq_false (hc : StartsKey c) : isSpace c = false := by
  have h := hc.isBlockBlank_eq_false
  rw [isBlockBlank, Bool.or_eq_false_iff] at h
  exact h.1

end StartsKey

/-- A key of one part is read up to the sign behind it, and blanks before that. -/
private theorem readKey_writeKeyPart (k : String) {r r' : List Char} (hr : ∀ c ∈ r.head?, isBareKey c = false)
    (hsign : skipSpace r = r') (hpoint : r'.head? ≠ some '.') (fuel : Nat) :
    readKey (fuel + 1) ((writeKeyPart k).toList ++ r) = some ([k], r') := by
  have hskip : skipSpace ((writeKeyPart k).toList ++ r) = (writeKeyPart k).toList ++ r := by
    obtain ⟨c, cs, hk, hc⟩ := exists_writeKeyPart_eq_cons k
    simp [skipSpace, hk, hc.isSpace_eq_false]
  rw [readKey, hskip, readKeyPart_writeKeyPart k hr]
  simp only [Option.bind_eq_bind, Option.bind_some, hsign]
  split
  · simp at hpoint
  · rfl

/-! ### Values -/

/-- A written string is a value. -/
private theorem readValue_writeString (s : String) {cs r : List Char} (hcs : skipSpace cs = (writeString s).toList ++ r)
    (hr : r.head? ≠ some '"') (fuel : Nat) : readValue (fuel + 1) cs = some (.string s, r) := by
  rw [readValue, hcs, ← readString_writeString s hr, toList_writeString]
  rfl

/-- The characters of strings between commas. -/
def stringItems (values : List String) : List Char :=
  List.intercalate [',', ' '] (values.map fun v => (writeString v).toList)

private theorem stringItems_cons_append (v : String) (values : List String) (r : List Char) :
    stringItems (v :: values) ++ ']' :: r = (writeString v).toList ++
      if values = [] then ']' :: r else ',' :: ' ' :: (stringItems values ++ ']' :: r) := by
  cases values with
  | nil => simp [stringItems]
  | cons w values => simp [stringItems, List.intercalate_cons_cons]

private theorem readItems_stringItems (values : List String) {cs r : List Char}
    (hcs : cs.dropWhile isBlockBlank = stringItems values ++ ']' :: r) {fuel : Nat} (hfuel : values.length < fuel) :
    readItems fuel cs = some (values.map .string, r) := by
  induction values generalizing cs fuel with
  | nil =>
    obtain ⟨fuel, rfl⟩ : ∃ n, fuel = n + 1 := ⟨fuel - 1, by omega⟩
    rw [readItems, skipInArray, hcs]
    rfl
  | cons v values ih =>
    -- one unit of fuel goes to the string and one to the strings behind it
    obtain ⟨fuel, rfl⟩ : ∃ n, fuel = n + 2 := ⟨fuel - 2, by simp at hfuel; omega⟩
    rw [stringItems_cons_append] at hcs
    have hstart : skipInArray (cs.length + 1) cs = (writeString v).toList ++
        if values = [] then ']' :: r else ',' :: ' ' :: (stringItems values ++ ']' :: r) := by
      rw [skipInArray, hcs, toList_writeString]
      rfl
    have hvalue : readValue (fuel + 1) (skipInArray (cs.length + 1) cs) =
        some (.string v, if values = [] then ']' :: r else ',' :: ' ' :: (stringItems values ++ ']' :: r)) := by
      refine readValue_writeString v ?_ (by split_ifs <;> simp) fuel
      rw [hstart, toList_writeString]
      rfl
    rw [readItems]
    split
    · rename_i heq
      rw [hstart, toList_writeString] at heq
      simp at heq
    · rw [hvalue]
      simp only [Option.bind_eq_bind, Option.bind_some]
      by_cases hlast : values = []
      · subst hlast
        rfl
      · have hcomma : skipInArray ((',' :: ' ' :: (stringItems values ++ ']' :: r)).length + 1)
            (',' :: ' ' :: (stringItems values ++ ']' :: r)) = ',' :: ' ' :: (stringItems values ++ ']' :: r) := rfl
        simp only [hlast, ↓reduceIte, hcomma]
        have hrest : readItems (fuel + 1) (' ' :: (stringItems values ++ ']' :: r)) = some (values.map .string, r) := by
          refine ih ?_ (by simp at hfuel; omega)
          obtain ⟨w, ws, rfl⟩ := List.exists_cons_of_ne_nil hlast
          rw [stringItems_cons_append, toList_writeString]
          rfl
        simp [hrest]

private theorem length_le_stringItems (values : List String) : values.length ≤ (stringItems values).length := by
  induction values with
  | nil => simp
  | cons v values ih =>
    have h := congrArg List.length (stringItems_cons_append v values [])
    simp only [List.length_append, List.length_cons, List.length_nil, toList_writeString] at h
    split_ifs at h with hlast
    · subst hlast
      simp only [List.length_cons, List.length_nil] at h ⊢
      omega
    · simp only [List.length_cons, List.length_append, List.length_nil] at h ⊢
      omega

/-- A written list of strings is a value. -/
private theorem readValue_stringItems (values : List String) {cs r : List Char}
    (hcs : skipSpace cs = '[' :: (stringItems values ++ ']' :: r)) {fuel : Nat} (hfuel : values.length < fuel) :
    readValue (fuel + 1) cs = some (.array (values.map .string), r) := by
  have hitems : readItems fuel (stringItems values ++ ']' :: r) = some (values.map .string, r) := by
    refine readItems_stringItems values ?_ hfuel
    cases values with
    | nil => rfl
    | cons v values =>
      rw [stringItems_cons_append, toList_writeString]
      rfl
  rw [readValue, hcs]
  simp only [hitems, Option.map_some]

/-! ### Statements -/

/-- A text that has these statements. -/
def Holds (ss : List Statement) (cs : List Char) : Prop :=
  ∀ fuel, cs.length < fuel → readStatements fuel cs = some ss

theorem holds_nil : Holds [] [] := by
  intro fuel hfuel
  obtain ⟨fuel, rfl⟩ : ∃ n, fuel = n + 1 := ⟨fuel - 1, by omega⟩
  rfl

variable {ss : List Statement} {r : List Char}

/-- A statement on a line of its own, behind blanks. -/
private theorem Holds.cons (h : Holds ss r) {s : Statement} {blanks line : List Char}
    (hblanks : ∀ b ∈ blanks, isBlockBlank b = true)
    (hstart : ∃ c cs, line = c :: cs ∧ isBlockBlank c = false ∧ c ≠ '#')
    (hline : readStatement (line ++ '\n' :: r) = some (s, '\n' :: r)) :
    Holds (s :: ss) (blanks ++ (line ++ '\n' :: r)) := by
  intro fuel hfuel
  obtain ⟨fuel, rfl⟩ : ∃ n, fuel = n + 1 := ⟨fuel - 1, by omega⟩
  obtain ⟨c, cs, rfl, hc, hcomment⟩ := hstart
  have hskip : (blanks ++ (c :: cs ++ '\n' :: r)).dropWhile isBlockBlank = c :: cs ++ '\n' :: r := by
    rw [List.dropWhile_append_of_pos hblanks, List.cons_append, List.dropWhile_cons_of_neg (by simp [hc])]
  have hend : endOfLine ('\n' :: r) = some r := rfl
  have hrest : readStatements fuel r = some ss := by
    refine h fuel ?_
    simp only [List.length_append, List.length_cons] at hfuel
    omega
  rw [readStatements, hskip]
  split
  · simp_all
  · simp_all
  · rw [hline]
    simp only [Option.bind_eq_bind, Option.bind_some, hend, hrest]
    rfl

private theorem readStatement_assign (k : String) {value r : List Char} {e : Expr}
    (hvalue : ∀ fuel, value.length ≤ fuel → readValue (fuel + 1) (' ' :: value) = some (e, r)) :
    readStatement ((writeKeyPart k).toList ++ ' ' :: '=' :: ' ' :: value) = some (.assign [k] e, r) := by
  have hkey (fuel : Nat) : readKey (fuel + 1) ((writeKeyPart k).toList ++ ' ' :: '=' :: ' ' :: value) =
      some ([k], '=' :: ' ' :: value) :=
    readKey_writeKeyPart k (by simp; rfl) rfl (by simp [skipSpace, isSpace]) fuel
  obtain ⟨c, cs, hk, hc⟩ := exists_writeKeyPart_eq_cons k
  have hbracket : c ≠ '[' := hc.ne (by decide) rfl
  have hlength : value.length ≤ ((writeKeyPart k).toList ++ ' ' :: '=' :: ' ' :: value).length := by
    simp only [List.length_append, List.length_cons]
    omega
  unfold readStatement
  split
  · simp_all
  · simp_all
  · simp only [hkey, hvalue _ hlength, Option.bind_eq_bind, Option.bind_some]
    rfl

private theorem readStatement_table (k : String) (r : List Char) :
    readStatement ('[' :: ((writeKeyPart k).toList ++ ']' :: r)) = some (.table [k], r) := by
  have hkey (fuel : Nat) : readKey (fuel + 1) ((writeKeyPart k).toList ++ ']' :: r) = some ([k], ']' :: r) :=
    readKey_writeKeyPart k (by simp; rfl) rfl (by simp [skipSpace, isSpace]) fuel
  obtain ⟨c, cs, hk, hc⟩ := exists_writeKeyPart_eq_cons k
  have hbracket : c ≠ '[' := hc.ne (by decide) rfl
  rw [readStatement.eq_2 _ (by simp [hk, hbracket]), hkey]
  rfl

private theorem readStatement_arrayTable (k : String) (r : List Char) :
    readStatement ('[' :: '[' :: ((writeKeyPart k).toList ++ ']' :: ']' :: r)) = some (.arrayTable [k], r) := by
  have hkey (fuel : Nat) : readKey (fuel + 1) ((writeKeyPart k).toList ++ ']' :: ']' :: r) =
      some ([k], ']' :: ']' :: r) :=
    readKey_writeKeyPart k (by simp; rfl) rfl (by simp [skipSpace, isSpace]) fuel
  rw [readStatement.eq_1, hkey]
  rfl

/-! ### Lines -/

variable {blanks : List Char}

/-- A line that starts with a written key. -/
private theorem Holds.assign (h : Holds ss r) (hblanks : ∀ b ∈ blanks, isBlockBlank b = true) (k : String)
    {value : List Char} {e : Expr} (hvalue : ∀ fuel, value.length ≤ fuel →
      readValue (fuel + 1) (' ' :: (value ++ '\n' :: r)) = some (e, '\n' :: r)) :
    Holds (.assign [k] e :: ss) (blanks ++ ((writeKeyPart k).toList ++ ' ' :: '=' :: ' ' :: value ++ '\n' :: r)) := by
  obtain ⟨c, cs, hk, hc⟩ := exists_writeKeyPart_eq_cons k
  refine h.cons hblanks ⟨c, cs ++ ' ' :: '=' :: ' ' :: value, by rw [hk]; rfl, hc.isBlockBlank_eq_false,
    hc.ne (by decide) rfl⟩ ?_
  simp only [List.append_assoc, List.cons_append]
  refine readStatement_assign k fun fuel hfuel => hvalue fuel ?_
  simp only [List.length_append] at hfuel
  omega

theorem Holds.string (h : Holds ss r) (hblanks : ∀ b ∈ blanks, isBlockBlank b = true) (k v : String) :
    Holds (.assign [k] (.string v) :: ss)
      (blanks ++ ((writeKeyPart k).toList ++ ' ' :: '=' :: ' ' :: (writeString v).toList ++ '\n' :: r)) :=
  h.assign hblanks k fun fuel _ => readValue_writeString v (by rw [toList_writeString]; rfl) (by simp) fuel

theorem Holds.strings (h : Holds ss r) (hblanks : ∀ b ∈ blanks, isBlockBlank b = true) (k : String)
    (vs : List String) :
    Holds (.assign [k] (.array (vs.map .string)) :: ss)
      (blanks ++ ((writeKeyPart k).toList ++ ' ' :: '=' :: ' ' :: '[' :: (stringItems vs ++ [']']) ++ '\n' :: r)) := by
  refine h.assign hblanks k fun fuel hfuel => readValue_stringItems vs ?_ ?_
  · simp [skipSpace, isSpace]
  · have := length_le_stringItems vs
    simp only [List.length_cons, List.length_append] at hfuel
    omega

theorem Holds.table (h : Holds ss r) (hblanks : ∀ b ∈ blanks, isBlockBlank b = true) (k : String) :
    Holds (.table [k] :: ss) (blanks ++ ('[' :: ((writeKeyPart k).toList ++ [']']) ++ '\n' :: r)) := by
  refine h.cons hblanks ⟨'[', _, rfl, rfl, by decide⟩ ?_
  simpa using readStatement_table k ('\n' :: r)

theorem Holds.arrayTable (h : Holds ss r) (hblanks : ∀ b ∈ blanks, isBlockBlank b = true) (k : String) :
    Holds (.arrayTable [k] :: ss)
      (blanks ++ ('[' :: '[' :: ((writeKeyPart k).toList ++ [']', ']']) ++ '\n' :: r)) := by
  refine h.cons hblanks ⟨'[', _, rfl, rfl, by decide⟩ ?_
  simpa using readStatement_arrayTable k ('\n' :: r)

/-! ### Documents -/

/-- A character that a document may have. -/
def isAdmissible (c : Char) : Bool := c == '\t' || c == '\n' || (0x20 ≤ c.toNat && c.toNat != 0x7f)

private theorem admissible_of_forall {cs : List Char} (h : ∀ c ∈ cs, isAdmissible c = true) : admissible cs = true := by
  induction cs with
  | nil => rfl
  | cons c cs ih =>
    obtain ⟨hc, hcs⟩ := List.forall_mem_cons.1 h
    have hreturn : c ≠ '\r' := by rintro rfl; cases hc
    rw [admissible.eq_3 _ _ (by simp [hreturn]), Bool.and_eq_true]
    exact ⟨hc, ih hcs⟩

private theorem isAdmissible_of_isVerbatim {c : Char} (hc : isVerbatim c = true) : isAdmissible c = true := by
  simp only [isVerbatim, isAdmissible, Bool.and_eq_true, Bool.or_eq_true] at hc ⊢
  exact .inr ⟨hc.1.2, hc.2⟩

private theorem isAdmissible_of_isBareKey {c : Char} (hc : isBareKey c = true) : isAdmissible c = true := by
  by_cases hascii : c.toNat < 0x80
  · have hall : ∀ n : Fin 0x80, isBareKey (Char.ofNat n) = true → isAdmissible (Char.ofNat n) = true := by
      decide +kernel
    have h := hall ⟨c.toNat, hascii⟩
    rw [Char.ofNat_toNat] at h
    exact h hc
  · simp only [isAdmissible, Bool.or_eq_true, Bool.and_eq_true, decide_eq_true_eq, bne_iff_ne]
    omega

private theorem isAdmissible_escapeOne (c : Char) : ∀ d ∈ escapeOne c, isAdmissible d = true := by
  obtain ⟨hc, hone⟩ | ⟨d, hd, -, hone⟩ | ⟨hcontrol, hone⟩ := escapeOne_cases c
  · simpa [hone] using isAdmissible_of_isVerbatim hc
  · have hletters : ∀ d ∈ ['b', 't', 'n', 'f', 'r', '"', '\\'], isAdmissible d = true := by
      simp [isAdmissible]
    rw [hone]
    simpa using ⟨rfl, hletters d hd⟩
  · obtain ⟨x₁, x₂, x₃, x₄, hdigits, -, hverbatim⟩ := hexPadded_control hcontrol
    rw [hone, hdigits]
    intro x hx
    rw [List.mem_cons, List.mem_cons] at hx
    obtain rfl | rfl | hx := hx
    · rfl
    · rfl
    · exact isAdmissible_of_isVerbatim (hverbatim x hx)

theorem isAdmissible_writeString (s : String) : ∀ c ∈ (writeString s).toList, isAdmissible c = true := by
  have hbody : ∀ c ∈ escapeBasic s.toList, isAdmissible c = true := by
    induction s.toList with
    | nil => simp [escapeBasic]
    | cons c cs ih =>
      rw [escapeBasic_cons, List.forall_mem_append]
      exact ⟨isAdmissible_escapeOne c, ih⟩
  have hquote : isAdmissible '"' = true := rfl
  simpa [toList_writeString, or_imp, forall_and, hquote] using hbody

theorem isAdmissible_writeKeyPart (k : String) : ∀ c ∈ (writeKeyPart k).toList, isAdmissible c = true := by
  obtain ⟨-, hall, hk⟩ | hk := toList_writeKeyPart_cases k
  · rw [hk]
    exact fun c hc => isAdmissible_of_isBareKey (by simpa using List.all_eq_true.1 hall c hc)
  · rw [hk]
    exact isAdmissible_writeString k

theorem isAdmissible_stringItems (vs : List String) : ∀ c ∈ stringItems vs, isAdmissible c = true := by
  induction vs with
  | nil => simp [stringItems]
  | cons v vs ih =>
    intro c hc
    have hmem : c ∈ stringItems (v :: vs) ++ ']' :: [] := List.mem_append_left _ hc
    rw [stringItems_cons_append, List.mem_append] at hmem
    obtain hmem | hmem := hmem
    · exact isAdmissible_writeString v c hmem
    · split_ifs at hmem
      · obtain rfl := List.mem_singleton.1 hmem
        rfl
      · simp only [List.mem_cons, List.mem_append, List.not_mem_nil, or_false] at hmem
        obtain rfl | rfl | hmem | rfl := hmem
        · rfl
        · rfl
        · exact ih c hmem
        · rfl

/-- A text of admissible characters has the statements of its characters. -/
theorem Holds.statements {text : String} (h : Holds ss text.toList)
    (hall : ∀ c ∈ text.toList, isAdmissible c = true) (hmark : ∀ c ∈ text.toList.head?, c.toNat ≠ 0xfeff) :
    statements text = some ss := by
  unfold Toml.statements
  cases htext : text.toList with
  | nil =>
    rw [htext] at h
    exact h 1 Nat.one_pos
  | cons c cs =>
    rw [htext] at h hall hmark
    simp only [if_neg (hmark c rfl)]
    rw [if_pos (admissible_of_forall hall)]
    exact h _ (Nat.lt_succ_self _)

end Coercion.Toml
