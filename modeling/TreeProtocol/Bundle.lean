import TreeProtocol.Admission
import TreeProtocol.Related

/-!
# Bundles

A node keeps its right nodes in bundles, one for each relation, in the order in which the relations
were established. A relation keeps the cardinality that it was established with.
-/

namespace TreeProtocol

/-- A relation with everything attached under it, in the order of attachment. -/
structure Bundle (N : Type) where
  relation : Relation
  rights : List (N × Attrs)
  deriving Inhabited

namespace Bundle

variable {N : Type}

/-- The number of right nodes. -/
def size (b : Bundle N) : Nat := b.rights.length

/-- Whether there is no right node. -/
def isEmpty (b : Bundle N) : Bool := b.rights.isEmpty

/-- The bundle of a relation, by its name. -/
def find? (bundles : List (Bundle N)) (name : String) : Option (Bundle N) :=
  bundles.find? (·.relation.name == name)

/-- The number of right nodes attached under a relation. -/
def count (bundles : List (Bundle N)) (name : String) : Nat :=
  ((find? bundles name).map size).getD 0

/-- The established relations in order. -/
def relations (bundles : List (Bundle N)) : List Relation := bundles.map (·.relation)

/-- One more right node in a bundle; `span` is the input range of the left node. -/
def extend (b : Bundle N) (relation : Relation) (right : N) (args : Attrs) (span : Option Span) :
    Except BuildError (Bundle N) :=
  if b.relation.cardinality = relation.cardinality then
    match relation.accept (b.rights.map (·.2)) args with
    | .error e => .error e
    | .ok () => .ok { b with rights := b.rights ++ [(right, args)] }
  else .error (.located (.otherwiseEstablished relation b.relation.cardinality) span)

/-- A bundle with its first right node. -/
def start (relation : Relation) (right : N) (args : Attrs) : Except BuildError (Bundle N) :=
  match relation.accept [] args with
  | .error e => .error e
  | .ok () => .ok ⟨relation, [(right, args)]⟩

/-- Attaches a right node under a relation: to the bundle of that name if there is one, else to a
new bundle behind the others. -/
def attach (relation : Relation) (right : N) (args : Attrs) (span : Option Span) :
    List (Bundle N) → Except BuildError (List (Bundle N))
  | [] => (start relation right args).map fun b => [b]
  | b :: more =>
    if b.relation.name = relation.name then
      (b.extend relation right args span).map (· :: more)
    else (attach relation right args span more).map (b :: ·)

end Bundle

end TreeProtocol
