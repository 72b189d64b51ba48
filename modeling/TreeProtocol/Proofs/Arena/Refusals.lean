import TreeProtocol.Proofs.Arena.Copies
import TreeProtocol.Proofs.Arena.History
import TreeProtocol.Proofs.Arena.Outcomes

/-!
# Refused calls

A refused call leaves the slots and the open sessions of an arena as they are, but not always the
arena as a whole: the left node of a refused relation may have been saved. What is left behind is a
saved state that the innermost mark could have had all along. It is the state of the node now and at
the opening of the session, so no rollback and no completion can make use of it.

* `SavedAtMost` — what may be left behind;
* `Harmless` — that nothing else is, and that no further call can tell;
* `refused_harmless` — every refused call is harmless, in every state that is reached.

That no call can tell is seen on the arena with full copies, on which a refused call leaves no trace
at all: both arenas stand for the same copies. Only the record of a rollback tells them apart, which
counts the saved states.
-/

namespace TreeProtocol

/-- The call is refused: it is a construction call that fails, or closes a session although none is
open. -/
def Call.Refused (a : Arena) : Call Handle → Prop
  | .make kind attrs => ∃ e, (Arena.make kind attrs a).outcome = .failed e
  | .relate relation left right args =>
    ∃ e, (Arena.relate relation left right args a).outcome = .failed e
  | .finish kind node => ∃ e, (Arena.finish kind node a).outcome = .failed e
  | .prepare => False
  | .close _ => a.openSessions = 0

namespace Arena

variable {a b : Arena} {c : Call Handle} {openings : List (List Slot)} {node : Handle} {slot : Slot}

/-- The marks are the same, or the innermost one got a saved state that it did not have, which the
node has now and had at the opening of the session. -/
inductive SavedAtMost (openings : List (List Slot)) (a b : Arena) : Prop
  | nothing (marks : b.marks = a.marks)
  | saved {mark : Mark} {outer : List Mark} {opening : List Slot} {older : List (List Slot)}
      {node : Handle} {slot : Slot} (innermost : a.marks = mark :: outer)
      (openings : openings = opening :: older) (now : a.slot? node = some slot)
      (atOpening : opening[node.index]? = some slot)
      (new : mark.saved.find? node.index = none)
      (marks : b.marks = { mark with saved := mark.saved.insert node.index slot } :: outer)

/-- Nothing is left behind in the arena, but perhaps a saved state, and every run of further calls
has the same outcomes and slots. `openings` are the slots at the openings of the sessions. -/
structure Harmless (openings : List (List Slot)) (a b : Arena) : Prop where
  slots : b.slots = a.slots
  schema : b.schema = a.schema
  depth : b.openSessions = a.openSessions
  lengths : b.marks.map (·.length) = a.marks.map (·.length)
  marks : SavedAtMost openings a b
  further : ∀ more : List (Call Handle),
    (builder Lens.whole).observed (fun a => (a.openSessions, a.slots)) more b =
      (builder Lens.whole).observed (fun a => (a.openSessions, a.slots)) more a

/-! ## What a refused call leaves behind -/

theorem MarksBut.savedAtMost (h : MarksBut node a b) : SavedAtMost a.snapshots a b := by
  cases h with
  | same marks => exact .nothing marks
  | @saved mark outer slot innermost there older new marks =>
    have atOpening : (restoredSlots a.slots mark)[node.index]? = some slot := by
      have current : a.slots[node.index]? = some slot := there
      rw [restoredSlots_getElem?, if_pos older, new, current]
      rfl
    exact .saved innermost (snapshots_of_marks innermost) there atOpening new marks

/-- A refused call leaves everything as it is, or saves a node that is there. -/
theorem refused_cases (refused : c.Refused a) :
    (c.on (builder Lens.whole) a).state = a ∨
      ∃ node slot, a.slot? node = some slot ∧
        (c.on (builder Lens.whole) a).state = a.touch node := by
  cases c with
  | make kind attrs =>
    obtain ⟨e, hfail⟩ := refused
    rw [Call.on, Action.map_state]
    rcases make_cases a kind attrs with ⟨_, heq⟩ | heq
    · exact .inl (congrArg Ran.state heq)
    · rw [heq] at hfail
      cases hfail
  | relate relation left right args =>
    obtain ⟨e, hfail⟩ := refused
    rw [Call.on, Action.map_state]
    rcases relate_cases a relation left right args with
      ⟨_, heq⟩ | ⟨slot, there, -, -, ⟨_, heq⟩ | ⟨_, -, -, heq⟩⟩
    · exact .inl (congrArg Ran.state heq)
    · exact .inr ⟨left, slot, there, congrArg Ran.state heq⟩
    · rw [heq] at hfail
      cases hfail
  | finish kind node =>
    obtain ⟨e, hfail⟩ := refused
    rw [Call.on, Action.map_state]
    rcases finish_cases a kind node with ⟨_, heq⟩ | ⟨_, -, -, heq⟩
    · exact .inl (congrArg Ran.state heq)
    · rw [heq] at hfail
      cases hfail
  | prepare => exact refused.elim
  | close ending =>
    have closed : a.marks = [] := List.length_eq_zero_iff.1 refused
    rw [Call.on, Action.map_state]
    show (Arena.close ending a).state = a ∨ _
    rw [Arena.close, closed]
    exact .inl rfl

/-- Arenas that stand for the same copies cannot be told apart. -/
theorem observed_eq_of_copied (ha : a.Ordered) (hb : b.Ordered) (same : b.copied = a.copied)
    (more : List (Call Handle)) :
    (builder Lens.whole).observed (fun a => (a.openSessions, a.slots)) more b =
      (builder Lens.whole).observed (fun a => (a.openSessions, a.slots)) more a := by
  rw [simulates_copied.observed_eq look_copied more ⟨ha, rfl⟩, ← same,
    simulates_copied.observed_eq look_copied more ⟨hb, rfl⟩]

/-- Saving the state of a node is harmless. -/
theorem harmless_touch (ho : a.Ordered) (there : a.slot? node = some slot) :
    Harmless a.snapshots a (a.touch node) := by
  have marks := marksBut_touch there
  have ordered : (a.touch node).Ordered :=
    ho.of_lengths (Nat.le_of_eq (touch_size a node).symm) marks.lengths
  exact
    { slots := slots_touch a node
      schema := schema_touch a node
      depth := marks.depth
      lengths := marks.lengths
      marks := marks.savedAtMost
      further := observed_eq_of_copied ho ordered (copied_touch there) }

/-! ## In every state -/

/-- The arena with full copies holds the slots at the openings of the open sessions. -/
theorem reached_copied (schema : Option Schema) (calls : List (Call Handle)) :
    (reached schema calls).copied = CopyArena.builder.after calls { schema } :=
  (simulates_copied.after calls ⟨ordered_start schema, rfl⟩).2

/-- **Refused calls are harmless.** After any calls on a new arena, whatever is refused leaves the
slots, the open sessions and their marks as they are, but for a state that is saved needlessly, and
every run of further calls has the same outcomes and slots as without the refused call. -/
theorem refused_harmless (schema : Option Schema) (calls : List (Call Handle)) (c : Call Handle)
    (refused : c.Refused (reached schema calls)) :
    Harmless (CopyArena.builder.after calls { schema }).copies (reached schema calls)
      (reached schema (calls ++ [c])) := by
  have ordered := reached_ordered schema calls
  have openings : (CopyArena.builder.after calls { schema }).copies =
      (reached schema calls).snapshots := by
    rw [← reached_copied]
    rfl
  have last : reached schema (calls ++ [c]) =
      (c.on (builder Lens.whole) (reached schema calls)).state := by
    rw [reached, Builder.after_append]
    rfl
  rw [openings, last]
  rcases refused_cases refused with same | ⟨node, slot, there, saved⟩
  · rw [same]
    exact ⟨rfl, rfl, rfl, rfl, .nothing rfl, fun _ => rfl⟩
  · rw [saved]
    exact harmless_touch ordered there

/-- A pair with a head, in a session that was opened afterwards. -/
def headedCalls : List (Call Handle) :=
  [.make "pair" ∅, .make "rest" ∅, .relate ⟨"head", .one⟩ ⟨0⟩ ⟨1⟩ ∅, .prepare]

/-- A second head is refused after the pair was saved. Whether it was attempted or not, taking the
session back restores the pair. -/
theorem refused_harmless_head :
    Call.Refused (reached none headedCalls) (.relate ⟨"head", .one⟩ ⟨0⟩ ⟨1⟩ ∅) ∧
      ((reached none headedCalls).marks.map (·.saved.size),
        (reached none (headedCalls ++ [.relate ⟨"head", .one⟩ ⟨0⟩ ⟨1⟩ ∅])).marks.map
          (·.saved.size)) = ([0], [1]) ∧
      (builder Lens.whole).observed (fun a => (a.openSessions, a.slots))
          [.relate ⟨"items", .many⟩ ⟨0⟩ ⟨1⟩ ∅, .finish "pair" ⟨0⟩, .close .aborted]
          (reached none (headedCalls ++ [.relate ⟨"head", .one⟩ ⟨0⟩ ⟨1⟩ ∅])) =
        (builder Lens.whole).observed (fun a => (a.openSessions, a.slots))
          [.relate ⟨"items", .many⟩ ⟨0⟩ ⟨1⟩ ∅, .finish "pair" ⟨0⟩, .close .aborted]
          (reached none headedCalls) := by
  have refused : Call.Refused (reached none headedCalls) (.relate ⟨"head", .one⟩ ⟨0⟩ ⟨1⟩ ∅) :=
    ⟨_, rfl⟩
  exact ⟨refused, rfl, (refused_harmless none headedCalls _ refused).further _⟩

end Arena

end TreeProtocol
