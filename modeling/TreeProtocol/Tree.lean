import TreeProtocol.Bundle
import TreeProtocol.Construction.Builder
import TreeProtocol.Inspection

/-!
# Trees as values

A tree holds its kind, its attributes and its right nodes. It never changes: relating makes a new
tree. The builder of trees has no state, takes any kind and any attributes, and lets finished
trees be used in every way that unfinished ones can.
-/

namespace TreeProtocol

/-- A node with everything below it. -/
structure Tree where
  kind : Kind
  attrs : Attrs
  bundles : List (Bundle Tree)
  deriving Inhabited

namespace Tree

/-! ### Construction -/

/-- A tree without right nodes. -/
def make (kind : Kind) (attrs : Attrs) : Tree := ⟨kind, attrs, []⟩

/-- The tree with one more right node. -/
def relate (relation : Relation) (left right : Tree) (args : Attrs) : Except BuildError Tree :=
  match Bundle.attach relation right args left.attrs.bounds? left.bundles with
  | .error e => .error e
  | .ok bundles => .ok { left with bundles }

/-- The tree itself, if it is of the given kind. -/
def finish (kind : Kind) (tree : Tree) : Except BuildError Tree :=
  if tree.kind = kind then .ok tree
  else .error (.located (.treeFinishedAsOtherKind tree.kind kind) tree.attrs.bounds?)

/-- The builder of trees. -/
def builder {W : Type} : Builder W Tree where
  make kind attrs := Action.pure (make kind attrs)
  relate relation left right args := Action.ofExcept (relate relation left right args)
  finish kind tree := Action.ofExcept (finish kind tree)

/-! ### Inspection -/

/-- The bundle of a relation, by its name. -/
def bundle? (tree : Tree) (name : String) : Option (Bundle Tree) := Bundle.find? tree.bundles name

/-- What can be read off trees. -/
def view : View Tree where
  kind tree := .ok tree.kind
  attrs tree := .ok tree.attrs
  relations tree := .ok (Bundle.relations tree.bundles)
  related relation tree :=
    match tree.bundle? relation.name with
    | some bundle => .ok ⟨bundle.rights⟩
    | none => .error (Fault.treeLacksRelation tree.kind relation.name)

/-- The inspector of trees. -/
def inspector {W : Type} : Inspector W Tree := .reading fun _ => view

/-! ### Equality -/

mutual

/-- Equality of trees, with attributes compared as values. -/
def eqv : Tree → Tree → Bool
  | ⟨k, a, bs⟩, ⟨l, b, cs⟩ => k == l && a.eqv b && eqvBundles bs cs

/-- Equality of bundles, position by position. -/
def eqvBundles : List (Bundle Tree) → List (Bundle Tree) → Bool
  | [], [] => true
  | ⟨r, xs⟩ :: bs, ⟨s, ys⟩ :: cs => r == s && eqvRights xs ys && eqvBundles bs cs
  | _, _ => false

/-- Equality of right nodes with their relation attributes, position by position. -/
def eqvRights : List (Tree × Attrs) → List (Tree × Attrs) → Bool
  | [], [] => true
  | (x, a) :: xs, (y, b) :: ys => eqv x y && a.eqv b && eqvRights xs ys
  | _, _ => false

end

end Tree

end TreeProtocol
