import TreeProtocol.Arena.Nodes

/-!
# Sessions of an arena

A session is a transaction. If it is aborted, or completed while a node that it made is unfinished,
the arena goes back to what it was at the opening: newer nodes are discarded and changed older ones
restored. If it is completed with every new node finished, its changes stay, and the session around
it takes over the saved states that it still owes: of its own older nodes, unless it saved them
itself.
-/

namespace TreeProtocol.Arena

/-- Opens a session. -/
def prepare : Action Arena Unit := fun a =>
  let marks := { length := a.size } :: a.marks
  ⟨.done (), { a with marks }, [.arenaMarked a.size marks.length]⟩

/-- The saved states that a session takes over from a completed session inside it: those of nodes
that are older than itself, except where it has a state of its own. -/
def inherit (outer inner : Mark) : Mark :=
  { outer with
    saved := inner.saved.entries.foldl
      (fun saved e => if e.1 < outer.length then saved.insertIfNew e.1 e.2 else saved)
      outer.saved }

/-- The slots at the opening of a session. -/
def restoredSlots (slots : List Slot) (mark : Mark) : List Slot :=
  mark.saved.entries.foldl (fun slots e => slots.set e.1 e.2) (slots.take mark.length)

/-- The number of unfinished nodes that are newer than a mark. -/
def unfinishedSince (a : Arena) (mark : Mark) : Nat :=
  (a.slots.drop mark.length).countP (!·.finished)

/-- The arena after the innermost session was closed for good. -/
def commit (a : Arena) (mark : Mark) : List Mark → Arena
  | [] => { a with marks := [] }
  | outer :: more => { a with marks := inherit outer mark :: more }

/-- The arena after the innermost session was taken back. -/
def rollBack (a : Arena) (mark : Mark) (outer : List Mark) : Arena :=
  { a with slots := restoredSlots a.slots mark, marks := outer }

/-- Closes the innermost session. -/
def close (ending : SessionEnd) : Action Arena Unit := fun a =>
  match a.marks with
  | [] => ⟨.failed Fault.noOpenSession, a, []⟩
  | mark :: outer =>
    let unfinished := a.unfinishedSince mark
    if ending = .completed ∧ unfinished = 0 then ⟨.done (), a.commit mark outer, []⟩
    else
      let event :=
        .arenaRolledBack ending mark.length (a.size - mark.length) mark.saved.size
      let outcome := match ending with
        | .completed => .failed (Fault.leftUnfinished unfinished)
        | .aborted => .done ()
      ⟨outcome, a.rollBack mark outer, [event]⟩

/-- The builder of an arena in the state. -/
def builder {W : Type} (place : Lens W Arena) : Builder W Handle where
  make kind attrs := (make kind attrs).zoom place
  relate relation left right args := (relate relation left right args).zoom place
  finish kind node := (finish kind node).zoom place
  prepare := prepare.zoom place
  close ending := (close ending).zoom place

end TreeProtocol.Arena
