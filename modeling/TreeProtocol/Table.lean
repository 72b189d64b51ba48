import TreeProtocol.Inspection
import TreeProtocol.KeyMap

/-!
# Tables of answers

Answers to questions about nodes that are written down in a table, with a row for each node. A table
can say anything about a node, also what no builder would allow, and so can stand in for an
inspector.
-/

namespace TreeProtocol

/-- What a table says about a node. -/
structure Row (N : Type) where
  kind : Kind
  attrs : Attrs := ∅
  relations : Except BuildError (List Relation) := .ok []
  /-- The right nodes by the name of the relation. -/
  related : KeyMap String (Except BuildError (Related N)) := ∅

/-- Answers from the rows of a table, with the faults for what the table does not hold. -/
def View.ofRows {N : Type} (row : N → Except BuildError (Row N)) (missing : String → BuildError) :
    View N where
  kind node := (row node).map (·.kind)
  attrs node := (row node).map (·.attrs)
  relations node := (row node).bind (·.relations)
  related relation node := (row node).bind fun r =>
    (r.related.find? relation.name).getD (.error (missing relation.name))

end TreeProtocol
