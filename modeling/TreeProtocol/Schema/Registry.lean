import TreeProtocol.Admission
import TreeProtocol.KeyMap

/-!
# Schemas

A schema registers kinds of nodes and says of each which attributes its nodes must and may carry
and which relations they may be the left node of. Kinds and relations are kept in the order of
their names.

| operation         | replaces | fails on a registered kind |
|-------------------|----------|----------------------------|
| `register`        | yes      | no                         |
| `registerNew`     | no       | yes                        |
-/

namespace TreeProtocol

/-- What the nodes of a kind may look like. -/
structure KindSpec where
  /-- Keywords that every node of the kind carries. -/
  required : List String := []
  /-- Keywords that a node of the kind may carry. -/
  optional : List String := []
  /-- Whether all other keywords are accepted too. -/
  isOpen : Bool := false
  /-- The relations that a node of the kind may be the left node of. -/
  relations : KeyMap String Cardinality := ∅
  deriving DecidableEq, Inhabited

namespace KindSpec

/-- One more required keyword. -/
def require (s : KindSpec) (keyword : String) : KindSpec :=
  { s with required := s.required ++ [keyword] }

/-- One more optional keyword. -/
def allow (s : KindSpec) (keyword : String) : KindSpec :=
  { s with optional := s.optional ++ [keyword] }

/-- Accepts every keyword. -/
def opened (s : KindSpec) : KindSpec := { s with isOpen := true }

/-- Declares a relation, instead of one declared before under the same name. -/
def declare (s : KindSpec) (name : String) (cardinality : Cardinality) : KindSpec :=
  { s with relations := s.relations.insert name cardinality }

/-- The keywords named in the specification, required ones first. -/
def named (s : KindSpec) : List String := s.required ++ s.optional

/-- Whether a node of the kind may carry the keyword. Every node may carry its input range. -/
def accepts (s : KindSpec) (keyword : String) : Bool :=
  s.isOpen || keyword == Attrs.boundsKeyword || s.named.contains keyword

/-- The names of the relations that a finished node of the kind must have, in order. -/
def obligations (s : KindSpec) : List String :=
  (s.relations.entries.filter fun e => !e.2.allowsEmpty).map (·.1)

end KindSpec

/-- The registered kinds with their specifications. -/
structure Schema where
  kinds : KeyMap Kind KindSpec := ∅
  deriving DecidableEq, Inhabited

namespace Schema

/-- The schema without kinds. -/
def empty : Schema := {}

/-- Registers a kind, instead of what was registered under its name before. -/
def register (s : Schema) (kind : Kind) (spec : KindSpec) : Schema := ⟨s.kinds.insert kind spec⟩

/-- Registers a kind that is not registered yet. -/
def registerNew (s : Schema) (kind : Kind) (spec : KindSpec) : Except BuildError Schema :=
  if s.kinds.contains kind then .error (Fault.alreadyRegistered kind)
  else .ok (s.register kind spec)

/-- The schema without a kind. -/
def unregister (s : Schema) (kind : Kind) : Schema := ⟨s.kinds.erase kind⟩

/-- The specification of a kind. -/
def get? (s : Schema) (kind : Kind) : Option KindSpec := s.kinds.find? kind

/-- Whether a kind is registered. -/
def contains (s : Schema) (kind : Kind) : Bool := s.kinds.contains kind

/-- The registered kinds in order. -/
def kindNames (s : Schema) : List Kind := s.kinds.keys

/-- The number of registered kinds. -/
def size (s : Schema) : Nat := s.kinds.size

/-- Whether no kind is registered. -/
def isEmpty (s : Schema) : Bool := s.kinds.isEmpty

theorem get?_register (s : Schema) (kind other : Kind) (spec : KindSpec) :
    (s.register kind spec).get? other = if kind = other then some spec else s.get? other :=
  KeyMap.find?_insert s.kinds kind other spec

theorem get?_unregister (s : Schema) (kind other : Kind) :
    (s.unregister kind).get? other = if kind = other then none else s.get? other :=
  KeyMap.find?_erase s.kinds kind other

end Schema

end TreeProtocol
