import TreeProtocol.Effect.Action
import TreeProtocol.Related

/-!
# Inspection

The reading side of a representation of trees. A `View` answers four questions about nodes: their
kind, their attributes, their relations in the order of establishment, and the right nodes of a
relation in the order of attachment. An `Inspector` answers the same questions by actions, so that
asking may leave a trace; `Inspector.reading` looks at a view of the current state and leaves none.

Whoever answers must report an acyclic graph if a walk over it is to end.
-/

namespace TreeProtocol

/-- Answers to questions about nodes. -/
structure View (N : Type) where
  kind : N → Except BuildError Kind
  attrs : N → Except BuildError Attrs
  relations : N → Except BuildError (List Relation)
  related : Relation → N → Except BuildError (Related N)

/-- Actions that answer questions about nodes. -/
structure Inspector (W N : Type) where
  kind : N → Action W Kind
  attrs : N → Action W Attrs
  relations : N → Action W (List Relation)
  related : Relation → N → Action W (Related N)

namespace Inspector

variable {W N : Type}

/-- Answers from a view of the state, which stays as it is. -/
def reading (view : W → View N) : Inspector W N where
  kind node := fun w => ⟨.ofExcept ((view w).kind node), w, []⟩
  attrs node := fun w => ⟨.ofExcept ((view w).attrs node), w, []⟩
  relations node := fun w => ⟨.ofExcept ((view w).relations node), w, []⟩
  related relation node := fun w => ⟨.ofExcept ((view w).related relation node), w, []⟩

end Inspector

end TreeProtocol
