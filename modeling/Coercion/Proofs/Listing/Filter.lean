import Coercion.Command.Exhibit
import Coercion.Proofs.Universe.Export

/-!
# Filtered listings

Rows can be filtered before or after they are made from records.  The two ways give the same listing as long as a row is
kept (`filter_ofRecords_of_kept`); if none is, the one leaves an empty list of rows and the other no list.  A text shows
no difference.  The other forms put the rows between the same pieces (`exists_pretty_eq`, `exists_bytes_eq`), so there
the difference is seen.
-/

namespace Coercion.Listing

open Command (exportBytes)

variable {name : String} {records : List Record} {stats : CompatTable.Stats} {naming : TypeId → String}
  {kinds : List Kind} {color : Bool}

/-! ### Rows -/

/-- The records of some kinds. -/
def recordsOf (records : List Record) (kinds : List Kind) : List Record :=
  records.filter fun r => kinds.contains r.kind

private theorem recordsOf_eq_nil_iff : recordsOf records kinds = [] ↔ ¬∃ r ∈ records, r.kind ∈ kinds := by
  simp [recordsOf]

private theorem rowList_filter_ofRecords (hkinds : kinds ≠ []) :
    ((ofRecords name records stats naming).filter kinds).rowList =
      (ofRecords name (recordsOf records kinds) stats naming).rowList := by
  rw [rowList_filter _ hkinds]
  show (records.map _).filter _ = (records.filter _).map _
  rw [List.filter_map]
  rfl

private theorem filter_eq (d : Listing) (hkinds : kinds ≠ []) :
    d.filter kinds =
      { d with rows := if (d.filter kinds).rowList = [] then none else some (d.filter kinds).rowList } := by
  rw [rowList_filter d hkinds]
  have hsome : kinds.isEmpty = false := List.isEmpty_eq_false_iff.2 hkinds
  simp only [filter, hsome, Bool.false_eq_true, if_false, List.isEmpty_iff]

theorem filter_ofRecords_of_kept (hkinds : kinds ≠ []) (hkept : recordsOf records kinds ≠ []) :
    (ofRecords name records stats naming).filter kinds =
      ofRecords name (recordsOf records kinds) stats naming := by
  have hrows : (ofRecords name (recordsOf records kinds) stats naming).rowList ≠ [] := by
    simpa [ofRecords, rowList] using hkept
  rw [filter_eq _ hkinds, rowList_filter_ofRecords hkinds, if_neg hrows]
  rfl

private theorem filter_ofRecords_of_not_kept (hkinds : kinds ≠ []) (hkept : recordsOf records kinds = []) :
    (ofRecords name records stats naming).filter kinds = ⟨name, none, stats⟩ := by
  have hrows : (ofRecords name (recordsOf records kinds) stats naming).rowList = [] := by
    simpa [ofRecords, rowList] using hkept
  rw [filter_eq _ hkinds, rowList_filter_ofRecords hkinds, if_pos hrows]
  rfl

/-! ### Forms -/

/-- An export as JSON puts its rows between two pieces that do not depend on them. -/
theorem exists_pretty_eq (name : String) (stats : CompatTable.Stats) :
    ∃ before after : String, ∀ rows : Json,
      (Json.object [("universe", .string name), ("rows", rows), ("stats", stats.toJson)]).pretty =
        before ++ (rows.prettyAt 1 ++ after) := by
  refine ⟨"\x7b" ++ (Json.newLine 1 ++ Json.quoteText "universe" ++ ": " ++ (Json.string name).prettyAt 1 ++ "," ++
      (Json.newLine 1 ++ Json.quoteText "rows" ++ ": ")),
    "," ++ Json.prettyFields 1 [("stats", stats.toJson)] ++ Json.newLine 0 ++ "\x7d", fun rows => ?_⟩
  simp only [Json.pretty, Json.prettyAt, Json.prettyFields, List.isEmpty_cons, Bool.false_eq_true, if_false,
    Nat.zero_add, String.append_assoc]

/-- An export as a binary document puts its rows between two pieces that do not depend on them. -/
theorem exists_bytes_eq (name : String) (stats : CompatTable.Stats) :
    ∃ before after : List UInt8, ∀ rows : MessagePack,
      (MessagePack.map [("universe", .text name), ("rows", rows), ("stats", stats.toMessagePack)]).bytes =
        before ++ (rows.bytes ++ after) := by
  refine ⟨MessagePack.collectionHeader 0x80 0xde 0xdf 3 ++ (MessagePack.textBytes "universe" ++
      MessagePack.textBytes name ++ MessagePack.textBytes "rows"),
    MessagePack.fieldBytes [("stats", stats.toMessagePack)], fun rows => ?_⟩
  simp only [MessagePack.bytes, MessagePack.fieldBytes, List.length_cons, List.length_nil, Nat.zero_add,
    List.append_assoc]

private theorem exportBytes_singleton_inj {s t : String} :
    exportBytes (.text [s]) = exportBytes (.text [t]) ↔ s = t := by
  show (String.join [s]).toByteArray = (String.join [t]).toByteArray ↔ s = t
  rw [String.toByteArray_inj]
  simp [String.join]

private theorem exportBytes_binary_inj {l l' : List UInt8} :
    exportBytes (.binary l) = exportBytes (.binary l') ↔ l = l' := by
  simp [exportBytes]

private theorem exportBytes_json_ne :
    exportBytes (write ⟨name, none, stats⟩ color .json) ≠ exportBytes (write ⟨name, some [], stats⟩ color .json) := by
  intro h
  rw [write, write, exportBytes_singleton_inj, String.append_left_inj] at h
  obtain ⟨before, after, hpretty⟩ := exists_pretty_eq name stats
  simp only [toJson, hpretty, String.append_right_inj, String.append_left_inj] at h
  exact absurd h (by decide)

private theorem exportBytes_messagePack_ne :
    exportBytes (write ⟨name, none, stats⟩ color .messagePack) ≠
      exportBytes (write ⟨name, some [], stats⟩ color .messagePack) := by
  intro h
  rw [write, write, exportBytes_binary_inj] at h
  obtain ⟨before, after, hbytes⟩ := exists_bytes_eq name stats
  simp only [toMessagePack, hbytes, List.append_right_inj, List.append_left_inj] at h
  exact absurd h (by decide)

/-- Filtering the rows of a listing and listing the filtered records gives the same bytes as a text, and in the other
forms exactly if a record is kept; the rows in JSON are an array exactly then. -/
theorem write_filter_eq_iff_kept (name : String) (records : List Record) (stats : CompatTable.Stats)
    (naming : TypeId → String) {kinds : List Kind} (hkinds : kinds ≠ []) (color : Bool) (f : Format) :
    (exportBytes (((ofRecords name records stats naming).filter kinds).write color f) =
        exportBytes ((ofRecords name (records.filter fun r => kinds.contains r.kind) stats naming).write color f) ↔
      f = .text ∨ ∃ r ∈ records, r.kind ∈ kinds) ∧
    ∃ rows, ((ofRecords name records stats naming).filter kinds).toJson =
        .object [("universe", .string name), ("rows", rows), ("stats", stats.toJson)] ∧
      ((∃ items, rows = .array items) ↔ ∃ r ∈ records, r.kind ∈ kinds) := by
  by_cases hkept : recordsOf records kinds = []
  · have hnone : ¬∃ r ∈ records, r.kind ∈ kinds := recordsOf_eq_nil_iff.1 hkept
    have hempty : ofRecords name (records.filter fun r => kinds.contains r.kind) stats naming =
        ⟨name, some [], stats⟩ := by
      show ofRecords name (recordsOf records kinds) stats naming = _
      rw [hkept]
      rfl
    have htext : write ⟨name, none, stats⟩ color .text = write ⟨name, some [], stats⟩ color .text := rfl
    rw [filter_ofRecords_of_not_kept hkinds hkept, hempty]
    refine ⟨?_, .null, rfl, by simp [hnone]⟩
    cases f with
    | text => simp [htext]
    | json => simp [exportBytes_json_ne, hnone]
    | messagePack => simp [exportBytes_messagePack_ne, hnone]
  · have hsome : ∃ r ∈ records, r.kind ∈ kinds := by
      by_contra hnone
      exact hkept (recordsOf_eq_nil_iff.2 hnone)
    rw [filter_ofRecords_of_kept hkinds hkept]
    exact ⟨iff_of_true rfl (Or.inr hsome), _, rfl, iff_of_true ⟨_, rfl⟩ hsome⟩

/-- A promotion and a lossy conversion. -/
def twoKinds : List Record := [⟨⟨⟨0⟩, ⟨1⟩⟩, .promote⟩, ⟨⟨⟨0⟩, ⟨2⟩⟩, .lossy⟩]

/-- Some records of the table of the two, listed without names for their types. -/
def excerpt (records : List Record) : Listing :=
  ofRecords "demo" records (CompatTable.ofRecords twoKinds).stats TypeId.render

/-- Of two rows the lossy one is kept, and the listing is that of its record alone, as JSON too. -/
theorem write_filter_twoKinds :
    [Kind.lossy] ≠ [] ∧
    exportBytes (((excerpt twoKinds).filter [.lossy]).write false .json) =
      exportBytes ((excerpt [⟨⟨⟨0⟩, ⟨2⟩⟩, .lossy⟩]).write false .json) := by
  have hkinds : [Kind.lossy] ≠ [] := by decide
  refine ⟨hkinds, ?_⟩
  have hiff := (write_filter_eq_iff_kept "demo" twoKinds (CompatTable.ofRecords twoKinds).stats TypeId.render hkinds
    false .json).1
  exact hiff.2 (Or.inr ⟨⟨⟨⟨0⟩, ⟨2⟩⟩, .lossy⟩, by decide, by decide⟩)

/-- No row is safe: the filtered listing has no list of rows, and the listing of no records has an empty one. -/
theorem write_filter_none_kept :
    exportBytes (((excerpt twoKinds).filter [.safe]).write false .json) ≠
      exportBytes ((excerpt (twoKinds.filter fun r => [Kind.safe].contains r.kind)).write false .json) ∧
    exportBytes (((excerpt twoKinds).filter [.safe]).write false .messagePack) ≠
      exportBytes ((excerpt (twoKinds.filter fun r => [Kind.safe].contains r.kind)).write false .messagePack) := by
  have hfiltered : (excerpt twoKinds).filter [.safe] = ⟨"demo", none, (CompatTable.ofRecords twoKinds).stats⟩ :=
    filter_ofRecords_of_not_kept (by decide) (by decide)
  rw [hfiltered]
  exact ⟨exportBytes_json_ne, exportBytes_messagePack_ne⟩

end Coercion.Listing
