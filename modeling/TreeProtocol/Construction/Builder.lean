import TreeProtocol.Effect.Action

/-!
# Builders

A producer of trees works against a `Builder` and leaves it to the caller how nodes are
represented. A node is made, related to its right nodes, and finished; what `relate` and `finish`
return is the node to go on with.

A builder acts on a state `W` that belongs to the caller; it may own a part of it or none.
-/

namespace TreeProtocol

/-- The construction side of a representation of trees with nodes of type `N`. -/
structure Builder (W N : Type) where
  /-- Makes an unfinished node. -/
  make : Kind → Attrs → Action W N
  /-- Attaches a right node (the second) to a left node (the first) under a relation. -/
  relate : Relation → N → N → Attrs → Action W N
  /-- Finishes a node, which must be of the given kind. -/
  finish : Kind → N → Action W N
  /-- Opens a session. -/
  prepare : Action W Unit := Action.pure ()
  /-- Runs the body of a session; a builder may do something before and after it. -/
  around : {α : Type} → Action W α → Action W α := fun body => body
  /-- Closes a session. -/
  close : SessionEnd → Action W Unit := fun _ => Action.pure ()

namespace Builder

variable {W N : Type}

/-- Makes and finishes a node without relations. -/
def leaf (b : Builder W N) (kind : Kind) (attrs : Attrs) : Action W N := do
  let node ← b.make kind attrs
  b.finish kind node

end Builder

end TreeProtocol
