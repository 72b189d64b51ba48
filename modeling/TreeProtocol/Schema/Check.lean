import TreeProtocol.Schema.Registry

/-!
# Checks against a schema

A schema is asked three times in the life of a node: whether it may be made, whether a relation may
be established from it, and whether it may be finished.

* `checkMake`: the kind is registered, the input range is one and is ordered, every required
  keyword is there, and every keyword is accepted. Of several violations the first in this order
  is reported.
* `checkRelation`: the kind declares the relation with this cardinality.
* `checkFinish`: every relation that must not be empty has a right node. Relations are looked at in
  the order of their names, up to the first that is empty.
-/

namespace TreeProtocol

namespace Schema

/-- The specification of a kind, for a node with the given attributes. -/
def specOf (s : Schema) (kind : Kind) (attrs : Attrs) : Except BuildError KindSpec :=
  match s.get? kind with
  | some spec => .ok spec
  | none => .error (.located (.unregisteredKind kind s.kindNames) attrs.bounds?)

/-- The first value under the bounds keyword, if it is anything but an ordered range. -/
def badBounds? (attrs : Attrs) : Option Value :=
  match attrs.get? Attrs.boundsKeyword with
  | some (.bounds span) => if span.isOrdered then none else some (.bounds span)
  | other => other

/-- Checks that a node of the kind may be made with the attributes. -/
def checkMake (s : Schema) (kind : Kind) (attrs : Attrs) : Except BuildError Unit :=
  match s.specOf kind attrs with
  | .error e => .error e
  | .ok spec =>
    match badBounds? attrs with
    | some value => .error (Fault.malformedBounds kind value)
    | none =>
      match spec.required.find? (!attrs.contains ·) with
      | some keyword => .error (.located (.missingAttr kind keyword) attrs.bounds?)
      | none =>
        match attrs.keywords.find? (!spec.accepts ·) with
        | some keyword =>
          .error (.located (.unacceptedAttr kind keyword spec.named) attrs.bounds?)
        | none => .ok ()

/-- Checks that a node of the kind may be the left node of the relation. -/
def checkRelation (s : Schema) (kind : Kind) (relation : Relation) : Except BuildError Unit :=
  match s.specOf kind ∅ with
  | .error e => .error e
  | .ok spec =>
    match spec.relations.find? relation.name with
    | none => .error (Fault.undeclaredRelation kind relation.name)
    | some declared =>
      if declared = relation.cardinality then .ok ()
      else .error (Fault.otherwiseDeclared kind relation declared)

/-- Checks that a node of the kind may be finished; `count` tells how many right nodes it has under
a relation. -/
def checkFinish (s : Schema) (kind : Kind) (attrs : Attrs) (count : String → Nat) :
    Except BuildError Unit :=
  match s.specOf kind attrs with
  | .error e => .error e
  | .ok spec =>
    match spec.obligations.find? (count · == 0) with
    | some name => .error (.located (.unfilledRelation kind name) attrs.bounds?)
    | none => .ok ()

/-- The relations whose right nodes `checkFinish` counts, in order: those that must not be empty,
up to the first that is. -/
def consulted (s : Schema) (kind : Kind) (count : String → Nat) : List String :=
  match s.get? kind with
  | none => []
  | some spec =>
    let (filled, others) := spec.obligations.span (count · != 0)
    filled ++ others.take 1

theorem badBounds?_eq_none_iff (attrs : Attrs) :
    badBounds? attrs = none ↔
      ∀ v, attrs.get? Attrs.boundsKeyword = some v →
        ∃ span, v = .bounds span ∧ span.isOrdered = true := by
  unfold badBounds?
  split
  · next span h => by_cases ho : span.isOrdered = true <;> simp [h, ho]
  · next h =>
    constructor
    · intro hn; simp [hn]
    · intro hv
      rcases hg : attrs.get? Attrs.boundsKeyword with _ | v
      · rfl
      · obtain ⟨span, rfl, -⟩ := hv v hg
        exact absurd hg (h span)

end Schema

end TreeProtocol
