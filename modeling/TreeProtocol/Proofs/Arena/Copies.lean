import TreeProtocol.Proofs.Arena.Snapshots

/-!
# An arena with full copies

A `CopyArena` takes a full copy of its slots whenever a session is opened. To roll a session back it
puts the copy in the place of the slots, and to complete a session it drops the copy. It saves
nothing when a slot changes and merges nothing when a session is completed.

An arena with marks cannot be told apart from it: whatever is called, all calls have the same
outcomes, and the nesting depth and the slots are the same after every call
(`observed_eq_copies`). The arena stands for the `CopyArena` that has its snapshots as copies
(`Arena.copied`), and one call keeps this correspondence (`simulates_copied`).
-/

namespace TreeProtocol

/-- Nodes in slots, and for every open session the slots at its opening, innermost first. -/
structure CopyArena where
  slots : List Slot := []
  copies : List (List Slot) := []
  schema : Option Schema := none

namespace CopyArena

/-- The arena that has the slots and no session. -/
def base (c : CopyArena) : Arena := { slots := c.slots, schema := c.schema }

/-- Adds an unfinished node behind the others. -/
def make (kind : Kind) (attrs : Attrs) : Action CopyArena Handle := fun c =>
  match c.base.checked (·.checkMake kind attrs) with
  | .error e => ⟨.failed e, c, []⟩
  | .ok () => ⟨.done ⟨c.slots.length⟩, { c with slots := c.slots ++ [{ kind, attrs }] }, []⟩

/-- Attaches a right node to a left node. -/
def relate (relation : Relation) (left right : Handle) (args : Attrs) : Action CopyArena Handle :=
  fun c =>
    match c.base.slotOf right with
    | .error e => ⟨.failed e, c, []⟩
    | .ok _ =>
      match c.base.slotOf left with
      | .error e => ⟨.failed e, c, []⟩
      | .ok slot =>
        match c.base.relatedSlot relation left slot right args with
        | .error e => ⟨.failed e, c, []⟩
        | .ok slot => ⟨.done left, { c with slots := c.slots.set left.index slot }, []⟩

/-- Finishes a node. -/
def finish (kind : Kind) (node : Handle) : Action CopyArena Handle := fun c =>
  match c.base.slotOf node with
  | .error e => ⟨.failed e, c, []⟩
  | .ok slot =>
    match c.base.checkFinish kind node slot with
    | .error e => ⟨.failed e, c, []⟩
    | .ok () =>
      ⟨.done node, { c with slots := c.slots.set node.index { slot with finished := true } }, []⟩

/-- Opens a session: the slots are copied. -/
def prepare : Action CopyArena Unit := fun c =>
  ⟨.done (), { c with copies := c.slots :: c.copies }, []⟩

/-- Closes the innermost session. Its copy takes the place of the slots if it was aborted, or
completed with an unfinished node at or above the length of the copy. -/
def close (ending : SessionEnd) : Action CopyArena Unit := fun c =>
  match c.copies with
  | [] => ⟨.failed Fault.noOpenSession, c, []⟩
  | copy :: outer =>
    let unfinished := (c.slots.drop copy.length).countP (!·.finished)
    match ending with
    | .aborted => ⟨.done (), { c with slots := copy, copies := outer }, []⟩
    | .completed =>
      if unfinished = 0 then ⟨.done (), { c with copies := outer }, []⟩
      else
        ⟨.failed (Fault.leftUnfinished unfinished), { c with slots := copy, copies := outer }, []⟩

/-- The builder of an arena with full copies. -/
def builder : Builder CopyArena Handle where
  make := make
  relate := relate
  finish := finish
  prepare := prepare
  close := close

end CopyArena

namespace Arena

/-- The arena with full copies that an arena with marks stands for. -/
def copied (a : Arena) : CopyArena :=
  { slots := a.slots, copies := a.snapshots, schema := a.schema }

/-! Whether a call is refused does not depend on marks or copies. -/

theorem base_copied_checked (a : Arena) (check : Schema → Except BuildError Unit) :
    a.copied.base.checked check = a.checked check := rfl

theorem base_copied_slotOf (a : Arena) (h : Handle) : a.copied.base.slotOf h = a.slotOf h := rfl

theorem base_copied_relatedSlot (a : Arena) (relation : Relation) (left : Handle) (slot : Slot)
    (right : Handle) (args : Attrs) :
    a.copied.base.relatedSlot relation left slot right args =
      a.relatedSlot relation left slot right args := rfl

theorem base_copied_checkFinish (a : Arena) (kind : Kind) (node : Handle) (slot : Slot) :
    a.copied.base.checkFinish kind node slot = a.checkFinish kind node slot := rfl

theorem copied_touch {a : Arena} {h : Handle} {slot : Slot} (there : a.slot? h = some slot) :
    (a.touch h).copied = a.copied := by
  rw [copied, touch_snapshots there, slots_touch, schema_touch, copied]

theorem copied_change {a : Arena} (ho : a.Ordered) {h : Handle} {slot : Slot}
    (there : a.slot? h = some slot) (next : Slot) :
    ((a.touch h).setSlot h next).copied =
      { a.copied with slots := a.slots.set h.index next } := by
  rw [copied, snapshots_change ho there]
  show CopyArena.mk ((a.touch h).slots.set h.index next) _ (a.touch h).schema = _
  rw [slots_touch, schema_touch]
  rfl

/-! ## One call -/

/-- The two runs have the same outcome, and the arena with copies is left as the one that the arena
with marks stands for. -/
def Agree {α : Type} (r : Ran Arena α) (q : Ran CopyArena α) : Prop :=
  r.outcome = q.outcome ∧ r.state.copied = q.state

variable {a : Arena}

theorem make_agree (ho : a.Ordered) (kind : Kind) (attrs : Attrs) :
    Agree (make kind attrs a) (CopyArena.make kind attrs a.copied) := by
  rw [make, CopyArena.make, base_copied_checked]
  cases a.checked (·.checkMake kind attrs) with
  | error e => exact ⟨rfl, rfl⟩
  | ok u =>
    refine ⟨rfl, ?_⟩
    show CopyArena.mk _ (Arena.snapshots { a with slots := a.slots ++ [_] }) _ = _
    rw [snapshots_grow ho]
    rfl

theorem relate_agree (ho : a.Ordered) (relation : Relation) (left right : Handle) (args : Attrs) :
    Agree (relate relation left right args a)
      (CopyArena.relate relation left right args a.copied) := by
  rw [relate, CopyArena.relate, base_copied_slotOf, base_copied_slotOf]
  cases hright : a.slotOf right with
  | error e => exact ⟨rfl, rfl⟩
  | ok rightSlot =>
    dsimp only
    cases hleft : a.slotOf left with
    | error e => exact ⟨rfl, rfl⟩
    | ok slot =>
      have there := slotOf_eq_ok hleft
      dsimp only
      rw [base_copied_relatedSlot]
      cases hrelated : a.relatedSlot relation left slot right args with
      | error e =>
        -- The left node may have been saved, which no copy notices.
        refine ⟨rfl, ?_⟩
        show Arena.copied (if slot.finished then a else a.touch left) = a.copied
        split
        · rfl
        · exact copied_touch there
      | ok next =>
        refine ⟨rfl, ?_⟩
        show Arena.copied ((if slot.finished then a else a.touch left).setSlot left next) = _
        have change := relatedSlot_change (slot?_lt (slotOf_eq_ok hright)) hrelated
        rw [change.unfinished, if_neg Bool.false_ne_true, copied_change ho there]
        rfl

theorem finish_agree (ho : a.Ordered) (kind : Kind) (node : Handle) :
    Agree (finish kind node a) (CopyArena.finish kind node a.copied) := by
  rw [finish, CopyArena.finish, base_copied_slotOf]
  cases hslot : a.slotOf node with
  | error e => exact ⟨rfl, rfl⟩
  | ok slot =>
    dsimp only
    rw [base_copied_checkFinish]
    cases a.checkFinish kind node slot with
    | error e => exact ⟨rfl, rfl⟩
    | ok u => exact ⟨rfl, copied_change ho (slotOf_eq_ok hslot) _⟩

theorem prepare_agree (a : Arena) : Agree (prepare a) (CopyArena.prepare a.copied) := by
  refine ⟨rfl, ?_⟩
  show CopyArena.mk a.slots (Arena.snapshots { a with marks := _ }) a.schema = _
  rw [snapshots_open]
  rfl

theorem close_agree (ho : a.Ordered) (ending : SessionEnd) :
    Agree (close ending a) (CopyArena.close ending a.copied) := by
  rw [close, CopyArena.close]
  cases hm : a.marks with
  | nil =>
    have hcopies : a.copied.copies = [] := by
      show snapshotsFrom a.slots a.marks = []
      rw [hm, snapshotsFrom]
    rw [hcopies]
    exact ⟨rfl, rfl⟩
  | cons mark outer =>
    have hroll : a.copied.copies =
        (a.rollBack mark outer).slots :: (a.rollBack mark outer).snapshots := snapshots_rollBack hm
    have hlength : (a.rollBack mark outer).slots.length = mark.length :=
      restoredSlots_length (ho.head_le hm)
    rw [hroll]
    dsimp only
    rw [hlength]
    cases ending with
    | aborted =>
      rw [if_neg fun h => SessionEnd.noConfusion h.1]
      exact ⟨rfl, rfl⟩
    | completed =>
      show Agree (if _ ∧ a.unfinishedSince mark = 0 then _ else _)
        (if a.unfinishedSince mark = 0 then _ else _)
      by_cases hz : a.unfinishedSince mark = 0
      · rw [if_pos ⟨rfl, hz⟩, if_pos hz]
        have hsame : (a.rollBack mark outer).snapshots = (a.commit mark outer).snapshots :=
          (List.cons.inj (hroll.symm.trans (snapshots_commit ho hm))).2
        rw [hsame]
        refine ⟨rfl, ?_⟩
        cases outer <;> rfl
      · rw [if_neg (fun h => hz h.2), if_neg hz]
        exact ⟨rfl, rfl⟩

/-! ## Runs -/

theorem Agree.map {α β : Type} {x : Action Arena α} {y : Action CopyArena α}
    (h : Agree (x a) (y a.copied)) (f : α → β) : Agree ((f <$> x) a) ((f <$> y) a.copied) := by
  refine ⟨?_, ?_⟩
  · rw [Action.map_outcome, Action.map_outcome, h.1]
  · rw [Action.map_state, Action.map_state, h.2]

/-- **Simulation.** Every call takes an arena with marks and the arena that it stands for to an
arena with marks and the arena that it stands for. -/
theorem simulates_copied :
    Builder.Simulates (builder Lens.whole) CopyArena.builder
      fun a c => a.Ordered ∧ a.copied = c := by
  rintro call a c ⟨ho, rfl⟩
  have agree : Agree (call.on (builder Lens.whole) a) (call.on CopyArena.builder a.copied) := by
    cases call with
    | make kind attrs => exact (make_agree ho kind attrs).map some
    | relate relation left right args => exact (relate_agree ho relation left right args).map some
    | finish kind node => exact (finish_agree ho kind node).map some
    | prepare => exact (prepare_agree a).map fun _ => none
    | close ending => exact (close_agree ho ending).map fun _ => none
  exact ⟨agree.1, ho.step (step_of_call call a), agree.2⟩

/-- The nesting depth and the slots are the same on both. -/
theorem look_copied (a : Arena) (c : CopyArena) (h : a.Ordered ∧ a.copied = c) :
    (a.openSessions, a.slots) = (c.copies.length, c.slots) := by
  obtain ⟨-, rfl⟩ := h
  show (a.marks.length, a.slots) = ((snapshotsFrom a.slots a.marks).length, a.slots)
  rw [snapshotsFrom_length]

/-- **Marks are as good as full copies.** Under every run of calls on a new arena, the outcome of
every call, and the nesting depth and the slots after it, are those of an arena with full copies. -/
theorem observed_eq_copies (schema : Option Schema) (calls : List (Call Handle)) :
    (builder Lens.whole).observed (fun a => (a.openSessions, a.slots)) calls { schema } =
      CopyArena.builder.observed (fun c => (c.copies.length, c.slots)) calls { schema } :=
  simulates_copied.observed_eq look_copied calls ⟨ordered_start schema, rfl⟩

end Arena

end TreeProtocol
