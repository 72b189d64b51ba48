import TreeProtocol.Proofs.Arena.Grounding

/-!
# How the construction calls end

A construction call that fails leaves the arena as it is, with one exception: a relation that is
refused after the left node was found unfinished may leave the state of the left node saved.

* `relate_open` — relating from an unfinished node, as one equation;
* `make_cases`, `relate_cases`, `finish_cases` — the ways in which a call can end, each with the
  arena after it;
* `MarksBut` — saving the state of a node concerns the innermost mark, if anything.
-/

namespace TreeProtocol.Arena

variable {a b : Arena} {left right h : Handle} {slot : Slot} {relation : Relation} {args : Attrs}

/-! ## Saved states -/

/-- The marks are the same, except that the innermost one may have got the state of the node, which
was not saved in it before. -/
inductive MarksBut (h : Handle) (a b : Arena) : Prop
  | same (marks : b.marks = a.marks)
  | saved {mark : Mark} {outer : List Mark} {slot : Slot} (innermost : a.marks = mark :: outer)
      (there : a.slot? h = some slot) (older : h.index < mark.length)
      (new : mark.saved.find? h.index = none)
      (marks : b.marks = { mark with saved := mark.saved.insert h.index slot } :: outer)

theorem marksBut_touch (there : a.slot? h = some slot) : MarksBut h a (a.touch h) := by
  rcases touch_cases there with ⟨-, heq⟩ | ⟨_, _, -, -, heq⟩ | ⟨mark, outer, hm, hlt, heq⟩
  · exact .same (by rw [heq])
  · exact .same (by rw [heq])
  · rw [heq]
    cases hfind : mark.saved.find? h.index with
    | none =>
      refine .saved hm there hlt hfind ?_
      show { mark with saved := mark.saved.insertIfNew h.index slot } :: outer = _
      rw [KeyMap.insertIfNew, KeyMap.contains, hfind]
      rfl
    | some earlier =>
      refine .same ?_
      show { mark with saved := mark.saved.insertIfNew h.index slot } :: outer = _
      rw [KeyMap.insertIfNew, KeyMap.contains, hfind, hm]
      rfl

theorem MarksBut.lengths (hb : MarksBut h a b) :
    b.marks.map (·.length) = a.marks.map (·.length) := by
  cases hb with
  | same marks => rw [marks]
  | saved innermost there older new marks => rw [marks, innermost]; rfl

theorem MarksBut.depth (hb : MarksBut h a b) : b.openSessions = a.openSessions := by
  have := congrArg List.length hb.lengths
  rwa [List.length_map, List.length_map] at this

theorem MarksBut.outer (hb : MarksBut h a b) : b.marks.tail = a.marks.tail := by
  cases hb with
  | same marks => rw [marks]
  | saved innermost there older new marks => rw [marks, innermost]; rfl

/-! ## Making -/

/-- **How making can end.** It fails at once, or there is one more slot. -/
theorem make_cases (a : Arena) (kind : Kind) (attrs : Attrs) :
    (∃ e, make kind attrs a = ⟨.failed e, a, []⟩) ∨
      make kind attrs a =
        ⟨.done ⟨a.size⟩, { a with slots := a.slots ++ [{ kind, attrs }] }, []⟩ := by
  rw [make]
  cases a.checked (·.checkMake kind attrs) with
  | error e => exact .inl ⟨e, rfl⟩
  | ok u => exact .inr rfl

/-! ## Relating -/

/-- **Relating from an unfinished node.** Its state is saved, whatever comes of the relation. -/
theorem relate_open (there : right.index < a.size) (hslot : a.slot? left = some slot)
    (unfinished : slot.finished = false) (relation : Relation) (args : Attrs) :
    relate relation left right args a =
      match a.relatedSlot relation left slot right args with
      | .error e => ⟨.failed e, a.touch left, []⟩
      | .ok next => ⟨.done left, (a.touch left).setSlot left next, []⟩ := by
  obtain ⟨rightSlot, hright⟩ := slot?_of_lt there
  rw [relate, slotOf_of_there hright, slotOf_of_there hslot]
  dsimp only
  have saved : (if slot.finished then a else a.touch left) = a.touch left := by
    rw [unfinished]
    exact if_neg Bool.false_ne_true
  cases a.relatedSlot relation left slot right args with
  | error e => exact congrArg (Ran.mk (.failed e) · []) saved
  | ok next => exact congrArg (fun b => Ran.mk (.done left) (b.setSlot left next) []) saved

/-- What becomes of an unfinished slot whose kind may have the relation. -/
theorem relatedSlot_open (unfinished : slot.finished = false)
    (allowed : a.checked (·.checkRelation slot.kind relation) = .ok ()) (left right : Handle)
    (args : Attrs) :
    a.relatedSlot relation left slot right args =
      (Bundle.attach relation right args slot.attrs.bounds? slot.bundles).map fun bundles =>
        { slot with bundles } := by
  have hopen : ¬ slot.finished = true := by simp [unfinished]
  rw [relatedSlot, if_neg hopen, allowed]
  dsimp only
  cases Bundle.attach relation right args slot.attrs.bounds? slot.bundles <;> rfl

/-- **How relating can end.** It fails at once, it fails with the left node saved, or it is done. -/
theorem relate_cases (a : Arena) (relation : Relation) (left right : Handle) (args : Attrs) :
    (∃ e, relate relation left right args a = ⟨.failed e, a, []⟩) ∨
      ∃ slot, a.slot? left = some slot ∧ slot.finished = false ∧ right.index < a.size ∧
        ((∃ e, relate relation left right args a = ⟨.failed e, a.touch left, []⟩) ∨
          ∃ bundles, a.checked (·.checkRelation slot.kind relation) = .ok () ∧
            Bundle.attach relation right args slot.attrs.bounds? slot.bundles = .ok bundles ∧
            relate relation left right args a =
              ⟨.done left, (a.touch left).setSlot left { slot with bundles }, []⟩) := by
  cases hright : a.slotOf right with
  | error e => exact .inl ⟨e, by rw [relate, hright]⟩
  | ok rightSlot =>
    cases hleft : a.slotOf left with
    | error e => exact .inl ⟨e, by rw [relate, hright, hleft]⟩
    | ok slot =>
      have hslot := slotOf_eq_ok hleft
      have there := slot?_lt (slotOf_eq_ok hright)
      cases unfinished : slot.finished with
      | true => exact .inl (relate_finished hslot unfinished relation right args)
      | false =>
        refine .inr ⟨slot, hslot, unfinished, there, ?_⟩
        rw [relate_open there hslot unfinished]
        cases allowed : a.checked (·.checkRelation slot.kind relation) with
        | error e =>
          have hopen : ¬ slot.finished = true := by simp [unfinished]
          refine .inl ⟨e, ?_⟩
          rw [relatedSlot, if_neg hopen, allowed]
        | ok u =>
          rw [relatedSlot_open unfinished allowed]
          cases Bundle.attach relation right args slot.attrs.bounds? slot.bundles with
          | error e => exact .inl ⟨e, rfl⟩
          | ok bundles => exact .inr ⟨bundles, rfl, rfl, rfl⟩

/-- **What was done**, if relating succeeds. -/
theorem relate_done {next : Handle}
    (hdone : (relate relation left right args a).outcome = .done next) :
    next = left ∧ ∃ slot bundles, a.slot? left = some slot ∧ slot.finished = false ∧
      right.index < a.size ∧ a.checked (·.checkRelation slot.kind relation) = .ok () ∧
      Bundle.Attached relation right args slot.bundles bundles ∧
      (relate relation left right args a).state =
        (a.touch left).setSlot left { slot with bundles } := by
  rcases relate_cases a relation left right args with
    ⟨e, heq⟩ | ⟨slot, hslot, unfinished, there, ⟨e, heq⟩ | ⟨bundles, allowed, hattach, heq⟩⟩
  · rw [heq] at hdone
    cases hdone
  · rw [heq] at hdone
    cases hdone
  · rw [heq] at hdone ⊢
    have attached := Bundle.attach_attached hattach
    exact ⟨(Outcome.done.inj hdone).symm, slot, bundles, hslot, unfinished, there, allowed,
      attached, rfl⟩

/-- Without a schema, relating depends on the bundles of the left node alone. -/
theorem relate_unchecked (relation : Relation) (args : Attrs) (free : a.schema = none)
    (there : right.index < a.size) (hslot : a.slot? left = some slot)
    (unfinished : slot.finished = false) :
    relate relation left right args a =
      match Bundle.attach relation right args slot.attrs.bounds? slot.bundles with
      | .error e => ⟨.failed e, a.touch left, []⟩
      | .ok bundles => ⟨.done left, (a.touch left).setSlot left { slot with bundles }, []⟩ := by
  have allowed := checked_of_none free (·.checkRelation slot.kind relation)
  rw [relate_open there hslot unfinished, relatedSlot_open unfinished allowed]
  cases Bundle.attach relation right args slot.attrs.bounds? slot.bundles with
  | error e => simp only [Except.map]
  | ok bundles => simp only [Except.map]

theorem relate_size (a : Arena) (relation : Relation) (left right : Handle) (args : Attrs) :
    (relate relation left right args a).state.size = a.size := by
  rcases relate_cases a relation left right args with
    ⟨_, heq⟩ | ⟨slot, -, -, -, ⟨_, heq⟩ | ⟨bundles, -, -, heq⟩⟩
  · rw [heq]
  · rw [heq]
    exact touch_size a left
  · rw [heq]
    exact setSlot_size a left _

/-! ## Finishing -/

/-- **How finishing can end.** It fails at once, or it is done. -/
theorem finish_cases (a : Arena) (kind : Kind) (node : Handle) :
    (∃ e, finish kind node a = ⟨.failed e, a, []⟩) ∨
      ∃ slot, a.slot? node = some slot ∧ a.checkFinish kind node slot = .ok () ∧
        finish kind node a =
          ⟨.done node, (a.touch node).setSlot node { slot with finished := true }, []⟩ := by
  rw [finish]
  cases hslot : a.slotOf node with
  | error e => exact .inl ⟨e, rfl⟩
  | ok slot =>
    dsimp only
    cases hcheck : a.checkFinish kind node slot with
    | error e => exact .inl ⟨e, rfl⟩
    | ok u => exact .inr ⟨slot, slotOf_eq_ok hslot, hcheck, rfl⟩

theorem finish_size (a : Arena) (kind : Kind) (node : Handle) :
    (finish kind node a).state.size = a.size := by
  rcases finish_cases a kind node with ⟨_, heq⟩ | ⟨slot, -, -, heq⟩
  · rw [heq]
  · rw [heq]
    exact setSlot_size a node _

end TreeProtocol.Arena
