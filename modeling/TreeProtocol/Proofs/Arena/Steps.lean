import TreeProtocol.Arena.Sessions
import TreeProtocol.Proofs.Calls

/-!
# What a call can do to an arena

Every call of a builder takes an arena to one of a few successors, whatever its arguments and its
outcome. The successors are listed once, with everything that was checked on the way to them, so
that no invariant has to look at the calls again.

* `SlotChange` — how a slot that is there may change;
* `BuildStep` — the successors under the three construction calls;
* `Step` — the successors under all calls;
* `step_of_call` — the list is complete.
-/

namespace TreeProtocol.Arena

/-- How the slot of a node changes when the node is related or finished. -/
inductive SlotChange (a : Arena) (slot : Slot) : Slot → Prop
  | related {relation : Relation} {right : Handle} {args : Attrs} {bundles : List (Bundle Handle)}
      (unfinished : slot.finished = false) (there : right.index < a.size)
      (allowed : a.checked (·.checkRelation slot.kind relation) = .ok ())
      (attached : Bundle.attach relation right args slot.attrs.bounds? slot.bundles = .ok bundles) :
      SlotChange a slot { slot with bundles }
  | finished (unfinished : slot.finished = false)
      (complete :
        a.checked (·.checkFinish slot.kind slot.attrs (Bundle.count slot.bundles)) = .ok ()) :
      SlotChange a slot { slot with finished := true }

/-- The successors of an arena under construction calls. -/
inductive BuildStep (a : Arena) : Arena → Prop
  | unchanged : BuildStep a a
  /-- A relation was refused after the left node had been saved. -/
  | saved {left : Handle} {slot : Slot} (there : a.slot? left = some slot)
      (unfinished : slot.finished = false) : BuildStep a (a.touch left)
  | made {kind : Kind} {attrs : Attrs} (allowed : a.checked (·.checkMake kind attrs) = .ok ()) :
      BuildStep a { a with slots := a.slots ++ [{ kind, attrs }] }
  | changed {node : Handle} {slot next : Slot} (there : a.slot? node = some slot)
      (change : SlotChange a slot next) : BuildStep a ((a.touch node).setSlot node next)

/-- The successors of an arena under calls of its builder. -/
inductive Step (a : Arena) : Arena → Prop
  | built {b : Arena} (step : BuildStep a b) : Step a b
  | opened : Step a { a with marks := { length := a.size } :: a.marks }
  | committed {mark : Mark} {outer : List Mark} (marks : a.marks = mark :: outer)
      (finished : a.unfinishedSince mark = 0) : Step a (a.commit mark outer)
  | rolledBack {mark : Mark} {outer : List Mark} (marks : a.marks = mark :: outer) :
      Step a (a.rollBack mark outer)

/-! ## The construction calls -/

theorem slotOf_eq_ok {a : Arena} {h : Handle} {slot : Slot} (hs : a.slotOf h = .ok slot) :
    a.slot? h = some slot := by
  rw [slotOf] at hs
  split at hs
  · rename_i s hfound
    rw [hfound, Except.ok.inj hs]
  · exact nomatch hs

theorem slot?_lt {a : Arena} {h : Handle} {slot : Slot} (hs : a.slot? h = some slot) :
    h.index < a.size :=
  (List.getElem?_eq_some_iff.1 hs).1

theorem make_step (a : Arena) (kind : Kind) (attrs : Attrs) :
    BuildStep a (make kind attrs a).state := by
  rw [make]
  split
  · exact .unchanged
  · rename_i hallowed
    exact .made hallowed

/-- A slot to which a right node was attached. -/
theorem relatedSlot_change {a : Arena} {relation : Relation} {left right : Handle}
    {slot next : Slot} {args : Attrs} (there : right.index < a.size)
    (h : a.relatedSlot relation left slot right args = .ok next) : SlotChange a slot next := by
  rw [relatedSlot] at h
  split at h
  · exact nomatch h
  · rename_i hfinished
    split at h
    · exact nomatch h
    · rename_i hallowed
      split at h
      · exact nomatch h
      · rename_i bundles hattached
        rw [← Except.ok.inj h]
        exact .related (by simpa using hfinished) there hallowed hattached

theorem SlotChange.unfinished {a : Arena} {slot next : Slot} (h : SlotChange a slot next) :
    slot.finished = false := by
  cases h with
  | related unfinished => exact unfinished
  | finished unfinished => exact unfinished

theorem relate_step (a : Arena) (relation : Relation) (left right : Handle) (args : Attrs) :
    BuildStep a (relate relation left right args a).state := by
  rw [relate]
  split
  · exact .unchanged
  · rename_i rightSlot hright
    split
    · exact .unchanged
    · rename_i slot hleft
      have there := slot?_lt (slotOf_eq_ok hright)
      dsimp only
      cases hrelated : a.relatedSlot relation left slot right args with
      | error e =>
        show BuildStep a (if slot.finished then a else a.touch left)
        split
        · exact .unchanged
        · rename_i hfinished
          exact .saved (slotOf_eq_ok hleft) (by simpa using hfinished)
      | ok next =>
        have change := relatedSlot_change there hrelated
        show BuildStep a ((if slot.finished then a else a.touch left).setSlot left next)
        rw [change.unfinished, if_neg Bool.false_ne_true]
        exact .changed (slotOf_eq_ok hleft) change

theorem checkFinish_change {a : Arena} {kind : Kind} {node : Handle} {slot : Slot}
    (h : a.checkFinish kind node slot = .ok ()) :
    SlotChange a slot { slot with finished := true } := by
  rw [checkFinish] at h
  split at h
  · exact nomatch h
  · split at h
    · exact nomatch h
    · rename_i hfinished
      exact .finished (by simpa using hfinished) h

theorem finish_step (a : Arena) (kind : Kind) (node : Handle) :
    BuildStep a (finish kind node a).state := by
  rw [finish]
  split
  · exact .unchanged
  · rename_i slot hslot
    split
    · exact .unchanged
    · rename_i hcheck
      exact .changed (slotOf_eq_ok hslot) (checkFinish_change hcheck)

/-! ## All calls -/

theorem close_step (a : Arena) (ending : SessionEnd) : Step a (close ending a).state := by
  rw [close]
  split
  · exact .built .unchanged
  · rename_i mark outer hmarks
    dsimp only
    by_cases h : ending = .completed ∧ a.unfinishedSince mark = 0
    · rw [if_pos h]
      exact .committed hmarks h.2
    · rw [if_neg h]
      exact .rolledBack hmarks

/-- **The list of successors is complete.** -/
theorem step_of_call (c : Call Handle) (a : Arena) :
    Step a (c.on (builder Lens.whole) a).state := by
  cases c with
  | make kind attrs =>
    rw [Call.on, Action.map_state]
    exact .built (make_step a kind attrs)
  | relate relation left right args =>
    rw [Call.on, Action.map_state]
    exact .built (relate_step a relation left right args)
  | finish kind node =>
    rw [Call.on, Action.map_state]
    exact .built (finish_step a kind node)
  | prepare =>
    rw [Call.on, Action.map_state]
    exact .opened
  | close ending =>
    rw [Call.on, Action.map_state]
    exact close_step a ending

end TreeProtocol.Arena
