import Coercion.Proofs.Table.Toml
import Coercion.Proofs.Table.Yaml

/-!
# The two formats of a table

Both formats give a table back, up to the order of its aliases and to lists that are empty or not given.  They part on
tables whose list of types is given and empty: TOML asks whether the key `types` is there, as it is unless the list is
not given, and YAML whether the list has entries (`formats_agree_iff`).
-/

namespace Coercion.Table

open Yaml (Node Layout)

/-- A table with the same contents: a list that is not given is empty, and the aliases are a map, so that their order
does not count. -/
structure Same (t u : Table) : Prop where
  name : u.name = t.name
  types : u.types = t.types
  aliases : u.aliases.Perm t.aliases
  rules : u.rules = t.rules
  functions : u.functions.map (fun f => (f.name, f.overloads)) = t.functions.map fun f => (f.name, f.overloads)

private theorem same_inOrder (t : Table) : t.Same t.inOrder where
  name := rfl
  types := rfl
  aliases := by
    cases h : t.aliases? with
    | none => simp [aliases, inOrder, h]
    | some as => simpa [aliases, inOrder, sortedAliases, h] using List.mergeSort_perm as _
  rules := rfl
  functions := rfl

private theorem same_laidOut (t : Table) : t.Same t.laidOut where
  name := rfl
  types := t.types_laidOut
  aliases := by
    rw [aliases, laidOut, getD_unlessEmpty]
    exact List.mergeSort_perm _ _
  rules := rfl
  functions := by
    rw [functions, laidOut, getD_unlessEmpty, List.map_map]
    rfl

/-- The text of a table in YAML is read as it was written. -/
def YamlInverts (t : Table) : Prop :=
  ∃ n, Node.parse t.toYaml = some n ∧ (Layout.record t.layout).isReadAs n = true

private theorem yamlInverts_iff {t : Table} :
    t.YamlInverts ↔ (Node.parse t.toYaml).any (Layout.record t.layout).isReadAs = true := by
  simp [YamlInverts, Option.any_eq_true]

instance (t : Table) : Decidable t.YamlInverts := decidable_of_iff' _ yamlInverts_iff

/-- A table with different names for its aliases reads back in TOML if its types are given, and in YAML if there are
types; otherwise it is refused.  So the formats agree unless the list of types is given and empty. -/
theorem formats_agree_iff {t : Table} (ht : (t.aliases.map Prod.fst).Nodup) (hyaml : t.YamlInverts) :
    (t.types? ≠ none → ∃ u, ofToml t.toToml = .ok u ∧ t.Same u) ∧
    (t.types? = none → ofToml t.toToml = .error .missingTypes) ∧
    (t.types ≠ [] → ∃ u, ofYaml t.toYaml = .ok u ∧ t.Same u) ∧
    (t.types = [] → ofYaml t.toYaml = .error .missingTypes) ∧
    ((ofToml t.toToml).isOk = (ofYaml t.toYaml).isOk ↔ t.types? ≠ some []) := by
  obtain ⟨n, hparse, hn⟩ := hyaml
  rw [ofToml_toToml ht, ofYaml_toYaml ht hparse hn]
  refine ⟨fun hgiven => ?_, fun hnone => if_pos hnone, fun hne => ?_, fun hempty => if_pos hempty, ?_⟩
  · exact ⟨_, if_neg hgiven, t.same_inOrder⟩
  · exact ⟨_, if_neg hne, t.same_laidOut⟩
  · rcases h : t.types? with _ | _ | _ <;> simp [types, h, Except.isOk, Except.toBool]

/-- A table with texts that need care in one of the formats, and with lists that are empty or not given. -/
def delicate : Table where
  name := "no"
  types? := some ["a: b", ""]
  aliases? := some [("c", "")]
  rules? := some []
  functions? := some [⟨"f", none⟩, ⟨"#", some []⟩]

theorem formats_agree_delicate : ∃ u v, ofToml delicate.toToml = .ok u ∧ delicate.Same u ∧
    ofYaml delicate.toYaml = .ok v ∧ delicate.Same v := by
  have hyaml : delicate.YamlInverts := by decide +kernel
  obtain ⟨htoml, -, hyaml, -⟩ := formats_agree_iff (by decide) hyaml
  obtain ⟨u, hu, hsame⟩ := htoml (by decide)
  obtain ⟨v, hv, hsame'⟩ := hyaml (by decide)
  exact ⟨u, v, hu, hsame, hv, hsame'⟩

/-- A table whose types are given as an empty list. -/
def withoutTypes : Table := { types? := some [] }

/-- A table without types is accepted in TOML and refused in YAML. -/
theorem formats_disagree_without_types : withoutTypes.YamlInverts ∧
    ofToml withoutTypes.toToml = .ok withoutTypes ∧ ofYaml withoutTypes.toYaml = .error .missingTypes := by
  have hyaml : withoutTypes.YamlInverts := by decide +kernel
  obtain ⟨n, hparse, hn⟩ := id hyaml
  have hnames : (withoutTypes.aliases.map Prod.fst).Nodup := by decide
  refine ⟨hyaml, ?_, ?_⟩
  · rw [ofToml_toToml hnames]
    rfl
  · rw [ofYaml_toYaml hnames hparse hn]
    rfl

end Coercion.Table
