import TreeProtocol.Record
import TreeProtocol.Yaml.Node

/-!
# Reading nodes

What a node stands for depends on what is wanted. Every scalar is a text, quoted or not. Only a
plain scalar is a truth value, or a literal one that its tag makes one. Where a sequence or a
mapping is wanted, nothing at all stands for an empty one. Other tags mean nothing.

References are followed where a value is wanted, and left alone in what nobody reads. How often they
are followed in one document is limited by its size, so that a short text cannot stand for a value
out of proportion.
-/

namespace TreeProtocol.Yaml

/-- The reading of a value. It knows what references stand for and how many may still be
followed. -/
abbrev Reading (α : Type) : Type := ReaderT (KeyMap Nat Node) (StateT Nat Option) α

namespace Node

variable {α : Type}

/-- A node without its number, or the node that a reference stands for. -/
def resolve : Node → Reading Node
  | .anchored _ node => pure node
  | .reference number => fun targets left =>
    match left with
    | 0 => none
    | left + 1 => (targets.find? number).map (·, left)
  | node => pure node

/-- Reads a text. -/
def text? (node : Node) : Reading String := do
  match ← node.resolve with
  | .scalar text .. => pure text
  | _ => failure

/-- The tag of a truth value. -/
def boolTag : String := "tag:yaml.org,2002:bool"

/-- Reads a truth value. -/
def bool? (node : Node) : Reading Bool := do
  match ← node.resolve with
  | .scalar text style tag =>
    if style ≠ .plain ∧ ¬(style = .literal ∧ tag = boolTag) then failure
    else if ["true", "True", "TRUE"].contains text then pure true
    else if ["false", "False", "FALSE"].contains text then pure false
    else failure
  | _ => failure

/-- Reads a sequence of texts. -/
def texts? (node : Node) : Reading (List String) := do
  match ← node.resolve with
  | .sequence items => items.mapM text?
  | node => if node.isBlank then pure [] else failure

/-- An entry of a mapping whose key is a text. -/
def namedEntry? (entry : Node × Node) : Reading (String × Node) := do
  pure (← entry.1.text?, entry.2)

/-- The entries of a mapping in which all keys are texts. -/
def members? (node : Node) : Reading (List (String × Node)) := do
  match ← node.resolve with
  | .mapping entries => entries.mapM namedEntry?
  | node => if node.isBlank then pure [] else failure

/-- Reads a mapping as a map; of several values under one key the last one counts. -/
def map? (decode : Node → Reading α) (node : Node) : Reading (KeyMap String α) := do
  let entries ← (← node.members?).mapM fun (m : String × Node) => do
    pure (m.1, ← decode m.2)
  pure (KeyMap.ofList entries)

/-- How often references may be followed for each mark of a document. -/
def followLimit : Nat := 100

/-- Reads a value off a document. -/
def decode (root : Node) (value : Node → Reading α) : Option α :=
  ((value root).run root.targets |>.run (followLimit * root.size)).map (·.1)

end Node

end TreeProtocol.Yaml
