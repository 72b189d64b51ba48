import TreeProtocol.Schema.Registry
import TreeProtocol.Yaml.Record

/-!
# Schemas in YAML

A schema and the specifications in it are mappings with the same fields as in JSON, all of which may
be missing.
-/

namespace TreeProtocol

open Yaml (Node Reading)

/-- Reads a cardinality. -/
def Cardinality.ofNode? (node : Node) : Reading Cardinality := do
  parse? (← node.text?)

/-- Reads a specification. -/
def KindSpec.ofNode? (node : Node) : Reading KindSpec := do
  let members ← node.members?
  let required ← Record.defaulted [] Node.texts? (← Record.field? members "required")
  let optional ← Record.defaulted [] Node.texts? (← Record.field? members "optional")
  let isOpen ← Record.defaulted false Node.bool? (← Record.field? members "open")
  let relations ← Record.defaulted ∅ (Node.map? Cardinality.ofNode?)
    (← Record.field? members "relations")
  pure { required, optional, isOpen, relations }

namespace Schema

/-- Reads a schema. -/
def ofNode? (node : Node) : Reading Schema := do
  let members ← node.members?
  pure ⟨← Record.defaulted ∅ (Node.map? KindSpec.ofNode?) (← Record.field? members "kinds")⟩

/-- Reads a schema from a YAML text. -/
def ofYamlText (text : String) : Except BuildError Schema :=
  match (Node.read text).bind (·.decode ofNode?) with
  | some schema => .ok schema
  | none => .error Fault.invalidYaml

end Schema

end TreeProtocol
