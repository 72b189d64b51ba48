import TreeProtocol.Admission
import TreeProtocol.Construction.Builder

/-!
# Composite construction

A node with its relations in one go: `Builder.composite` makes the node, supplies and relates the
right nodes that the relation plans describe, and finishes it. A right node is produced after its
left node was made, so producing it may build a whole subtree with the same builder.

All plans are checked before anything is made.
-/

namespace TreeProtocol

/-- A right node to be supplied: how to produce it, and the attributes to attach it with. -/
structure RightSupply (W N : Type) where
  produce : Action W N
  args : Attrs := ∅

namespace RightSupply

variable {W N : Type}

/-- A right node that exists already. -/
def existing (node : N) : RightSupply W N := { produce := Action.pure node }

/-- More relation attributes, behind those given before. -/
def withArgs (r : RightSupply W N) (args : Attrs) : RightSupply W N :=
  { r with args := r.args ++ args }

end RightSupply

/-- A relation to be established, with its right nodes in order. -/
structure RelationPlan (W N : Type) where
  relation : Relation
  rights : List (RightSupply W N)

namespace RelationPlan

variable {W N : Type}

/-- A relation with one right node. -/
def one (name : String) (right : RightSupply W N) : RelationPlan W N := ⟨⟨name, .one⟩, [right]⟩

/-- A relation with one right node or none. -/
def optional (name : String) (right : Option (RightSupply W N)) : RelationPlan W N :=
  ⟨⟨name, .optional⟩, right.toList⟩

/-- A relation with any number of right nodes. -/
def many (name : String) (rights : List (RightSupply W N)) : RelationPlan W N :=
  ⟨⟨name, .many⟩, rights⟩

/-- A keyed relation. The key of each right node comes first in its relation attributes. -/
def keyed (name key : String) (rights : List (Value × RightSupply W N)) : RelationPlan W N :=
  ⟨⟨name, .keyed key⟩, rights.map fun (value, right) =>
    { right with args := (∅ : Attrs).push key value ++ right.args }⟩

/-- More relation attributes for every right node, behind those given before. -/
def withArgs (p : RelationPlan W N) (args : Attrs) : RelationPlan W N :=
  { p with rights := p.rights.map (·.withArgs args) }

/-- The number of right nodes. -/
def size (p : RelationPlan W N) : Nat := p.rights.length

/-- Whether there is no right node. -/
def isEmpty (p : RelationPlan W N) : Bool := p.rights.isEmpty

/-- Checks the number of right nodes and that keys are there and differ, and produces nothing. -/
def check (p : RelationPlan W N) : Except BuildError Unit :=
  match p.relation.cardinality with
  | .one => if p.size = 1 then .ok () else .error (Fault.wrongSupply p.relation p.size)
  | .optional => if p.size ≤ 1 then .ok () else .error (Fault.wrongSupply p.relation p.size)
  | .keyed _ => p.relation.acceptAll [] (p.rights.map (·.args))
  | .many => .ok ()

/-- Checks plans in order; the first that is refused decides. -/
def checkAll : List (RelationPlan W N) → Except BuildError Unit
  | [] => .ok ()
  | p :: ps =>
    match p.check with
    | .error e => .error e
    | .ok () => checkAll ps

end RelationPlan

namespace Builder

variable {W N : Type}

open TreeProtocol.Action

/-- Produces right nodes and relates each to the left node, in order. -/
def attachRights (b : Builder W N) (relation : Relation) : List (RightSupply W N) → N → Action W N
  | [], node => Action.pure node
  | right :: more, node => do
    let produced ← right.produce
    let node ← b.relate relation node produced right.args
    b.attachRights relation more node

/-- Carries out relation plans on a left node, in order. -/
def attachPlans (b : Builder W N) (kind : Kind) : List (RelationPlan W N) → N → Action W N
  | [], node => Action.pure node
  | plan :: more, node => do
    emit (.supplying kind plan.relation plan.size)
    let node ← b.attachRights plan.relation plan.rights node
    b.attachPlans kind more node

/-- Makes a node, establishes all planned relations, and finishes it. -/
def composite (b : Builder W N) (kind : Kind) (attrs : Attrs) (plans : List (RelationPlan W N)) :
    Action W N := do
  ofExcept (RelationPlan.checkAll plans)
  let node ← b.make kind attrs
  let node ← b.attachPlans kind plans node
  b.finish kind node

end Builder

end TreeProtocol
