import TreeProtocol.Bundle
import TreeProtocol.Schema.Check

/-!
# Arenas

An arena keeps its nodes in slots and hands out handles, the positions of the slots. With a schema
attached, every construction call is checked against it.

Sessions are marked in the arena and may nest. A mark holds the number of slots at the opening of
the session, and the earlier states of older slots that were changed since, each saved before the
first change.
-/

namespace TreeProtocol

/-- The position of a node in an arena. -/
structure Handle where
  index : Nat
  deriving DecidableEq, Inhabited

/-- A handle as text. -/
def Handle.display (h : Handle) : String := Fault.handleText h.index

/-- A node of an arena. -/
structure Slot where
  kind : Kind
  attrs : Attrs
  bundles : List (Bundle Handle) := []
  finished : Bool := false
  deriving Inhabited

/-- The point to which an open session is rolled back. -/
structure Mark where
  /-- The number of slots at the opening of the session. -/
  length : Nat
  /-- The states at the opening of the session of the slots changed since. -/
  saved : KeyMap Nat Slot := ∅
  deriving Inhabited

/-- Nodes in slots, and the open sessions, innermost first. -/
structure Arena where
  slots : List Slot := []
  marks : List Mark := []
  schema : Option Schema := none
  deriving Inhabited

namespace Arena

/-- The arena without nodes and without a schema. -/
def empty : Arena := {}

/-- The arena without nodes that checks every construction call against a schema. -/
def withSchema (schema : Schema) : Arena := { schema := some schema }

/-- The number of nodes. -/
def size (a : Arena) : Nat := a.slots.length

/-- Whether there is no node. -/
def isEmpty (a : Arena) : Bool := a.slots.isEmpty

/-- How many sessions are open. -/
def openSessions (a : Arena) : Nat := a.marks.length

/-- The slot of a node, if there is one. -/
def slot? (a : Arena) (h : Handle) : Option Slot := a.slots[h.index]?

/-- Whether a node is there and finished. -/
def isFinished (a : Arena) (h : Handle) : Bool := (a.slot? h).any (·.finished)

/-- The slot of a node, or the fault that there is none. -/
def slotOf (a : Arena) (h : Handle) : Except BuildError Slot :=
  match a.slot? h with
  | some slot => .ok slot
  | none => .error (Fault.strangeNode h.index)

/-- Replaces the slot of a node that is there. -/
def setSlot (a : Arena) (h : Handle) (slot : Slot) : Arena :=
  { a with slots := a.slots.set h.index slot }

/-- Saves the state of a node in the innermost mark, unless the node is newer than the mark or was
saved in it before. -/
def touch (a : Arena) (h : Handle) : Arena :=
  match a.marks, a.slot? h with
  | mark :: outer, some slot =>
    if h.index < mark.length then
      { a with marks := { mark with saved := mark.saved.insertIfNew h.index slot } :: outer }
    else a
  | _, _ => a

@[simp] theorem slots_touch (a : Arena) (h : Handle) : (a.touch h).slots = a.slots := by
  unfold touch; split
  · split <;> rfl
  · rfl

@[simp] theorem schema_touch (a : Arena) (h : Handle) : (a.touch h).schema = a.schema := by
  unfold touch; split
  · split <;> rfl
  · rfl

theorem lengths_touch (a : Arena) (h : Handle) :
    (a.touch h).marks.map (·.length) = a.marks.map (·.length) := by
  unfold touch; split
  · next mark outer slot hm hs => split <;> simp [hm]
  · rfl

end Arena

end TreeProtocol
