import TreeProtocol.Json.Reader
import TreeProtocol.Json.Record
import TreeProtocol.Schema.Registry

/-!
# Schemas in documents

A schema is a record with one field, an object of the specifications of kinds. A specification is a
record of which every field may be missing, and a cardinality is a text in its long or short form.
Cardinalities are written in the long form.
-/

namespace TreeProtocol

/-- A cardinality as a document. -/
def Cardinality.toJson (c : Cardinality) : Json := .text c.text

/-- Reads a cardinality. -/
def Cardinality.ofJson? (j : Json) : Option Cardinality := j.text?.bind parse?

/-- A relation as a document. -/
def Relation.toJson (r : Relation) : Json :=
  .object [("name", .text r.name), ("cardinality", r.cardinality.toJson)]

/-- Reads a relation; without a cardinality it is for any number of right nodes. -/
def Relation.ofJson? (j : Json) : Option Relation := do
  match ← j.fields? ["name", "cardinality"] with
  | [name, cardinality] =>
    some {
      name := ← Record.required Json.text? name
      cardinality := ← Record.defaulted .many Cardinality.ofJson? cardinality }
  | _ => none

/-- A specification as a document. -/
def KindSpec.toJson (s : KindSpec) : Json :=
  .object [
    ("required", .array (s.required.map .text)),
    ("optional", .array (s.optional.map .text)),
    ("open", .bool s.isOpen),
    ("relations", .object (s.relations.entries.map fun (name, c) => (name, c.toJson)))]

/-- Reads a specification. -/
def KindSpec.ofJson? (j : Json) : Option KindSpec := do
  match ← j.fields? ["required", "optional", "open", "relations"] with
  | [required, optional, isOpen, relations] =>
    some {
      required := ← Record.defaulted [] Json.texts? required
      optional := ← Record.defaulted [] Json.texts? optional
      isOpen := ← Record.defaulted false Json.bool? isOpen
      relations := ← Record.defaulted ∅ (Json.map? Cardinality.ofJson?) relations }
  | _ => none

namespace Schema

/-- A schema as a document. -/
def toJson (s : Schema) : Json :=
  .object [("kinds", .object (s.kinds.entries.map fun (kind, spec) => (kind, spec.toJson)))]

/-- Reads a schema. -/
def ofJson? (j : Json) : Option Schema := do
  match ← j.fields? ["kinds"] with
  | [kinds] => some ⟨← Record.defaulted ∅ (Json.map? KindSpec.ofJson?) kinds⟩
  | _ => none

/-- Reads a schema from the text of a document. -/
def ofJsonText (text : String) : Except BuildError Schema :=
  match (Json.read text).bind ofJson? with
  | some schema => .ok schema
  | none => .error Fault.invalidJson

end Schema

end TreeProtocol
