import Coercion.Table.Toml
import Coercion.Table.Yaml

/-!
# Type tables as texts

A table is written in one of two formats.
-/

namespace Coercion.Table

/-- Reads a table. -/
def parse : Format → String → Except Malformed Table
  | .toml => ofToml
  | .yaml => ofYaml

/-- Writes a table. -/
def render : Format → Table → String
  | .toml => toToml
  | .yaml => toYaml

end Coercion.Table
