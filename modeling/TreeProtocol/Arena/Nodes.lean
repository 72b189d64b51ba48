import TreeProtocol.Arena.Basic
import TreeProtocol.Construction.Builder
import TreeProtocol.Inspection

/-!
# Nodes of an arena

Making, relating and finishing the nodes of an arena, and reading them.

* Relations start from unfinished nodes only; the right node may be any node of the arena.
* A node is finished at most once, and as the kind that it was made as.
* With a schema, every relation that a kind must have is there when a node of it is finished.

`relate` keeps the handle of the left node.
-/

namespace TreeProtocol.Arena

/-! ### Construction -/

/-- Checks a call against the schema, if there is one. -/
def checked (a : Arena) (check : Schema → Except BuildError Unit) : Except BuildError Unit :=
  match a.schema with
  | some schema => check schema
  | none => .ok ()

theorem checked_of_schema {a : Arena} {schema : Schema} (h : a.schema = some schema)
    (check : Schema → Except BuildError Unit) : a.checked check = check schema := by
  rw [checked, h]

theorem checked_of_none {a : Arena} (h : a.schema = none)
    (check : Schema → Except BuildError Unit) : a.checked check = .ok () := by
  rw [checked, h]

/-- Adds an unfinished node behind the others. -/
def make (kind : Kind) (attrs : Attrs) : Action Arena Handle := fun a =>
  match a.checked (·.checkMake kind attrs) with
  | .error e => ⟨.failed e, a, []⟩
  | .ok () => ⟨.done ⟨a.size⟩, { a with slots := a.slots ++ [{ kind, attrs }] }, []⟩

/-- The state of a left node after a right node was attached to it. -/
def relatedSlot (a : Arena) (relation : Relation) (left : Handle) (slot : Slot) (right : Handle)
    (args : Attrs) : Except BuildError Slot :=
  if slot.finished then
    .error (.located (.relatedAfterFinish relation.name slot.kind left.index) slot.attrs.bounds?)
  else
    match a.checked (·.checkRelation slot.kind relation) with
    | .error e => .error e
    | .ok () =>
      match Bundle.attach relation right args slot.attrs.bounds? slot.bundles with
      | .error e => .error e
      | .ok bundles => .ok { slot with bundles }

/-- Attaches a right node to a left node. The left node is saved as soon as it is known to be
unfinished, whether or not the relation is then accepted. -/
def relate (relation : Relation) (left right : Handle) (args : Attrs) : Action Arena Handle :=
  fun a =>
    match a.slotOf right with
    | .error e => ⟨.failed e, a, []⟩
    | .ok _ =>
      match a.slotOf left with
      | .error e => ⟨.failed e, a, []⟩
      | .ok slot =>
        let saved := if slot.finished then a else a.touch left
        match a.relatedSlot relation left slot right args with
        | .error e => ⟨.failed e, saved, []⟩
        | .ok slot => ⟨.done left, saved.setSlot left slot, []⟩

/-- Checks that a node may be finished as the given kind. -/
def checkFinish (a : Arena) (kind : Kind) (node : Handle) (slot : Slot) : Except BuildError Unit :=
  if slot.kind ≠ kind then
    .error (.located (.finishedAsOtherKind slot.kind node.index kind) slot.attrs.bounds?)
  else if slot.finished then
    .error (.located (.finishedTwice kind node.index) slot.attrs.bounds?)
  else a.checked (·.checkFinish slot.kind slot.attrs (Bundle.count slot.bundles))

/-- Finishes a node. -/
def finish (kind : Kind) (node : Handle) : Action Arena Handle := fun a =>
  match a.slotOf node with
  | .error e => ⟨.failed e, a, []⟩
  | .ok slot =>
    match a.checkFinish kind node slot with
    | .error e => ⟨.failed e, a, []⟩
    | .ok () => ⟨.done node, (a.touch node).setSlot node { slot with finished := true }, []⟩

/-! ### Inspection -/

/-- What can be read off the nodes of an arena. -/
def view (a : Arena) : View Handle where
  kind node := (a.slotOf node).map (·.kind)
  attrs node := (a.slotOf node).map (·.attrs)
  relations node := (a.slotOf node).map fun slot => Bundle.relations slot.bundles
  related relation node :=
    match a.slotOf node with
    | .error e => .error e
    | .ok slot =>
      match Bundle.find? slot.bundles relation.name with
      | some bundle => .ok ⟨bundle.rights⟩
      | none => .error (Fault.unestablishedRelation slot.kind node.index relation.name)

/-- The inspector of an arena in the state. -/
def inspector {W : Type} (place : Lens W Arena) : Inspector W Handle :=
  .reading fun w => (place.get w).view

end TreeProtocol.Arena
