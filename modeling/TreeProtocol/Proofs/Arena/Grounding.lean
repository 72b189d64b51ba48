import Mathlib.Data.Fintype.Card
import TreeProtocol.Proofs.Arena.Holding

/-!
# Arenas in which only finished nodes are attached

Nothing keeps a node from being related to itself: an arena takes any node as a right node, and
relations may go round in circles. But a finished node gets no more right nodes. So if every right
node is finished when it is attached, no circle can be closed.

* `Call.RightFinished`, `RightsFinished` — calls and runs of calls that attach finished nodes only;
* `Grounded` — every node holds a tree, which is what such runs keep (`grounded_run`), also in what
  they may be taken back to;
* `Grounded.acyclic` — then no node leads back to itself;
* `Unfolds.height_le` — and no way down is longer than there are nodes.
-/

namespace TreeProtocol

/-- If the call attaches a right node, this node is there and finished. -/
def Call.RightFinished (a : Arena) : Call Handle → Prop
  | .relate _ _ right _ => a.isFinished right = true
  | _ => True

namespace Arena

/-- A run of calls in which every right node is finished when it is attached. -/
def RightsFinished : List (Call Handle) → Arena → Prop
  | [], _ => True
  | c :: more, a => c.RightFinished a ∧ RightsFinished more (c.on (builder Lens.whole) a).state

/-- Every node holds a tree. -/
def Grounded (slots : List Slot) : Prop :=
  ∀ h : Handle, h.index < slots.length → ∃ finished t, Holds { slots } finished h t

variable {a b : Arena} {h left right : Handle} {slot : Slot} {finished : Bool} {t : Tree}

/-! ## Runs of calls -/

theorem rightsFinished_append {xs ys : List (Call Handle)} :
    RightsFinished (xs ++ ys) a ↔
      RightsFinished xs a ∧ RightsFinished ys ((builder Lens.whole).after xs a) := by
  induction xs generalizing a with
  | nil => exact ⟨fun h => ⟨trivial, h⟩, fun h => h.2⟩
  | cons c more ih =>
    rw [List.cons_append, RightsFinished, RightsFinished, ih, and_assoc]
    rfl

theorem RightsFinished.take {calls : List (Call Handle)} (h : RightsFinished calls a) (n : Nat) :
    RightsFinished (calls.take n) a := by
  rw [← List.take_append_drop n calls] at h
  exact (rightsFinished_append.1 h).1

/-! ## One call -/

theorem Holds.of_slots (hh : a.Holds finished h t) (same : b.slots = a.slots) :
    b.Holds finished h t :=
  hh.frame (fun g _ there _ => (slot?_of_slots same g).trans there) (slot?_of_slots same h)

theorem Grounded.holds (hg : Grounded a.slots) (there : a.slot? h = some slot) :
    ∃ t, a.Holds slot.finished h t := by
  obtain ⟨finished, t, held⟩ := hg h (slot?_lt there)
  have held' : a.Holds finished h t := held.of_slots rfl
  obtain ⟨slot', there', rfl⟩ := held'.there
  obtain rfl : slot = slot' := Option.some.inj (there.symm.trans there')
  exact ⟨t, held'⟩

/-- A call that mirrors one on trees keeps all nodes grounded: the one that it changes was not
finished, so no other node has it below itself. -/
theorem Mirrors.grounded {expected : Except BuildError Tree} {run : Ran Arena Handle}
    (m : a.Mirrors h finished expected run) (hg : Grounded a.slots)
    (unfinished : ∀ slot, a.slot? h = some slot → slot.finished = false) :
    Grounded run.state.slots := by
  cases m with
  | forbidden _ _ same =>
    rw [same]
    exact hg
  | refused _ _ _ same =>
    rw [same]
    exact hg
  | accepted _ _ holds others =>
    intro g hlt
    by_cases heq : g = h
    · subst heq
      exact ⟨_, _, holds.of_slots rfl⟩
    · obtain ⟨_, there⟩ := slot?_of_lt (a := run.state) hlt
      obtain ⟨t, held⟩ := hg.holds ((others g heq).symm.trans there)
      exact ⟨_, t, (held.frame (others.keepsFinished unfinished) (others g heq)).of_slots rfl⟩

theorem make_grounded (hg : Grounded a.slots) (kind : Kind) (attrs : Attrs) :
    Grounded (make kind attrs a).state.slots := by
  refine (make_mirrors a kind attrs).grounded hg fun slot there => ?_
  exact absurd (slot?_lt there) (Nat.lt_irrefl _)

/-- A finished node is not related to anything, and the arena stays as it is. -/
theorem relate_finished (there : a.slot? left = some slot) (finished : slot.finished = true)
    (relation : Relation) (right : Handle) (args : Attrs) :
    ∃ e, relate relation left right args a = ⟨.failed e, a, []⟩ := by
  rw [relate, slotOf_of_there there]
  cases a.slotOf right with
  | error e => exact ⟨e, rfl⟩
  | ok rightSlot =>
    dsimp only
    rw [relatedSlot, if_pos finished, if_pos finished]
    exact ⟨_, rfl⟩

theorem relate_missing (missing : a.slot? left = none) (relation : Relation) (right : Handle)
    (args : Attrs) : (relate relation left right args a).state = a := by
  rw [relate, slotOf, slotOf, missing]
  cases a.slot? right <;> rfl

theorem relate_grounded (hg : Grounded a.slots) (finished : a.isFinished right = true)
    (relation : Relation) (left : Handle) (args : Attrs) :
    Grounded (relate relation left right args a).state.slots := by
  cases hleft : a.slot? left with
  | none =>
    rw [relate_missing hleft]
    exact hg
  | some slot =>
    cases hflag : slot.finished with
    | true =>
      obtain ⟨e, failed⟩ := relate_finished hleft hflag relation right args
      rw [failed]
      exact hg
    | false =>
      rw [isFinished, Option.any_eq_true] at finished
      obtain ⟨rightSlot, hright, hrightFlag⟩ := finished
      obtain ⟨t, held⟩ := hg.holds hleft
      obtain ⟨u, heldRight⟩ := hg.holds hright
      rw [hflag] at held
      rw [hrightFlag] at heldRight
      refine (relate_mirrors held heldRight relation args).grounded hg fun s hs => ?_
      rw [← Option.some.inj (hleft.symm.trans hs)]
      exact hflag

/-- Nor is it finished again. -/
theorem finish_finished (there : a.slot? h = some slot) (finished : slot.finished = true)
    (kind : Kind) : ∃ e, finish kind h a = ⟨.failed e, a, []⟩ := by
  rw [finish, slotOf_of_there there]
  dsimp only
  rw [checkFinish]
  by_cases hkind : slot.kind = kind
  · rw [if_neg (not_not.2 hkind), if_pos finished]
    exact ⟨_, rfl⟩
  · rw [if_pos hkind]
    exact ⟨_, rfl⟩

theorem finish_grounded (hg : Grounded a.slots) (kind : Kind) (node : Handle) :
    Grounded (finish kind node a).state.slots := by
  cases hnode : a.slot? node with
  | none =>
    rw [finish, slotOf, hnode]
    exact hg
  | some slot =>
    obtain ⟨t, held⟩ := hg.holds hnode
    cases hflag : slot.finished with
    | true =>
      obtain ⟨e, failed⟩ := finish_finished hnode hflag kind
      rw [failed]
      exact hg
    | false =>
      rw [hflag] at held
      refine (finish_mirrors held kind).grounded hg fun s hs => ?_
      rw [← Option.some.inj (hnode.symm.trans hs)]
      exact hflag

/-- **Step lemma.** A call that attaches finished nodes only keeps all nodes grounded, and all nodes
of what can be gone back to. -/
theorem Throughout.grounded (hg : Throughout Grounded a) (ho : a.Ordered) {c : Call Handle}
    (hc : c.RightFinished a) : Throughout Grounded (c.on (builder Lens.whole) a).state := by
  cases c with
  | make kind attrs =>
    rw [Call.on, Action.map_state]
    exact hg.built ho (make_step a kind attrs) (make_grounded hg.1 kind attrs)
  | relate relation left right args =>
    rw [Call.on, Action.map_state]
    exact hg.built ho (relate_step a relation left right args)
      (relate_grounded hg.1 hc relation left args)
  | finish kind node =>
    rw [Call.on, Action.map_state]
    exact hg.built ho (finish_step a kind node) (finish_grounded hg.1 kind node)
  | prepare =>
    rw [Call.on, Action.map_state]
    exact hg.opened
  | close ending =>
    rw [Call.on, Action.map_state]
    exact hg.close ho ending

/-- **Run lemma.** -/
theorem grounded_run {calls : List (Call Handle)} (run : RightsFinished calls a) (ho : a.Ordered)
    (hg : Throughout Grounded a) : Throughout Grounded ((builder Lens.whole).after calls a) := by
  induction calls generalizing a with
  | nil => exact hg
  | cons c more ih => exact ih run.2 (ho.step (step_of_call c a)) (hg.grounded ho run.1)

theorem reached_grounded {schema : Option Schema} {calls : List (Call Handle)}
    (run : RightsFinished calls { schema }) : Grounded (reached schema calls).slots := by
  have start : Throughout Grounded { schema } :=
    ⟨fun h hlt => absurd hlt (Nat.not_lt_zero _), fun copy hcopy => nomatch hcopy⟩
  exact (grounded_run run (ordered_start schema) start).1

/-! ## No circles -/

/-- **No node leads back to itself.** -/
theorem Grounded.acyclic (hg : Grounded a.slots) (h : Handle) :
    ¬ Relation.TransGen a.RightOf h h := by
  intro circle
  obtain ⟨-, -, slot, there, -⟩ := Relation.TransGen.tail'_iff.1 circle
  obtain ⟨t, held⟩ := hg.holds there
  exact acyclicBelow_of_acc held.unfolds.acc h .refl circle

open Classical in
/-- The positions that the relations lead to from a node, its own included. -/
noncomputable def below (a : Arena) (h : Handle) : Finset (Fin a.size) :=
  Finset.univ.filter fun i => Relation.ReflTransGen a.RightOf ⟨i⟩ h

theorem mem_below {i : Fin a.size} :
    i ∈ a.below h ↔ Relation.ReflTransGen a.RightOf ⟨i⟩ h := by
  simp only [below, Finset.mem_filter, Finset.mem_univ, true_and]

/-- Below a right node there is less. -/
theorem Unfolds.below_ssubset (hu : a.Unfolds h t) {child : Handle} (hchild : a.RightOf child h) :
    a.below child ⊂ a.below h := by
  obtain ⟨slot, there⟩ := hu.there
  refine Finset.ssubset_iff_of_subset ?_ |>.2 ⟨⟨h.index, slot?_lt there⟩, ?_, ?_⟩
  · intro i hi
    exact mem_below.2 ((mem_below.1 hi).tail hchild)
  · exact mem_below.2 .refl
  · intro hmem
    have circle := Relation.TransGen.tail' (mem_below.1 hmem) hchild
    exact acyclicBelow_of_acc hu.acc h .refl circle

/-- **No way down is longer than there are nodes.** -/
theorem Unfolds.height_le_card (hu : a.Unfolds h t) : t.height ≤ (a.below h).card := by
  induction hu with
  | @node h slot tree there rights ih =>
    have unfolds : a.Unfolds h (slot.toTree tree) := .node tree there rights
    have here : 0 < (a.below h).card :=
      Finset.card_pos.2 ⟨⟨h.index, slot?_lt there⟩, mem_below.2 .refl⟩
    have lower : (slot.toTree tree).height ≤ (a.below h).card - 1 + 1 := by
      refine Tree.height_le fun b hb r hr => ?_
      obtain ⟨c, hc, rfl⟩ := List.mem_map.1 hb
      obtain ⟨s, hs, rfl⟩ := List.mem_map.1 hr
      have child : a.RightOf s.1 h := ⟨slot, there, c, hc, s, hs, rfl⟩
      have less := Finset.card_lt_card (unfolds.below_ssubset child)
      have := ih c hc s hs
      dsimp only
      omega
    omega

theorem Unfolds.height_le (hu : a.Unfolds h t) : t.height ≤ a.size :=
  hu.height_le_card.trans ((Finset.card_le_univ _).trans_eq (Fintype.card_fin _))

end Arena

end TreeProtocol
