import Mathlib.Data.Fintype.Card
import Mathlib.Data.Fintype.EquivFin
import Mathlib.Logic.Relation
import TreeProtocol.Proofs.Arena.Bounds
import TreeProtocol.Proofs.Trees

/-!
# The trees that the nodes of an arena unfold to

An arena keeps handles where a tree keeps trees. Following the handles down from a node gives a
tree, `Arena.Unfolds`, if it ends.

* `Unfolds.unique` — a node unfolds to one tree at most;
* `exists_unfolds_iff` — in an arena without dangling handles the nodes that unfold are those below
  which no node leads back to itself;
* `Unfolds.sound` — nodes of an arena whose bundles are well-formed unfold to sound trees;
* `reached_closed`, `reached_wellFormed` — every state that is reached is such an arena.
-/

namespace TreeProtocol

/-- The tree of a node, if it is known which trees its right nodes stand for. -/
def Slot.toTree (tree : Handle → Tree) (slot : Slot) : Tree :=
  ⟨slot.kind, slot.attrs, slot.bundles.map (Bundle.map tree)⟩

theorem Slot.toTree_congr {f g : Handle → Tree} {slot : Slot}
    (h : ∀ b ∈ slot.bundles, ∀ r ∈ b.rights, f r.1 = g r.1) : slot.toTree f = slot.toTree g := by
  rw [toTree, toTree, Bundle.map_congr_all h]

namespace Arena

variable {a : Arena}

/-- The node unfolds to the tree: kind, attributes and bundles are the same, in the same order, with
every right node replaced by the tree that it unfolds to. -/
inductive Unfolds (a : Arena) : Handle → Tree → Prop
  | node {h : Handle} {slot : Slot} (tree : Handle → Tree) (there : a.slot? h = some slot)
      (rights : ∀ b ∈ slot.bundles, ∀ r ∈ b.rights, Unfolds a r.1 (tree r.1)) :
      Unfolds a h (slot.toTree tree)

theorem Unfolds.there {h : Handle} {t : Tree} (hu : a.Unfolds h t) :
    ∃ slot, a.slot? h = some slot := by
  cases hu with
  | @node _ slot tree there rights => exact ⟨slot, there⟩

/-- **A node unfolds to one tree at most.** -/
theorem Unfolds.unique {h : Handle} {t u : Tree} (ht : a.Unfolds h t) (hu : a.Unfolds h u) :
    t = u := by
  induction ht generalizing u with
  | @node h slot f there rights ih =>
    cases hu with
    | @node _ slot' g there' rights' =>
      obtain rfl : slot = slot' := Option.some.inj (there.symm.trans there')
      exact Slot.toTree_congr fun b hb r hr => ih b hb r hr (rights' b hb r hr)

/-! ## Acyclic nodes -/

/-- The one node is a right node of the other. -/
def RightOf (a : Arena) (child parent : Handle) : Prop :=
  ∃ slot, a.slot? parent = some slot ∧ ∃ b ∈ slot.bundles, ∃ r ∈ b.rights, r.1 = child

/-- No node that the relations lead to from `root`, `root` included, leads back to itself. -/
def AcyclicBelow (a : Arena) (root : Handle) : Prop :=
  ∀ h, Relation.ReflTransGen a.RightOf h root → ¬ Relation.TransGen a.RightOf h h

/-- No relation points past the end of the arena. -/
def Closed (a : Arena) : Prop := ∀ slot ∈ a.slots, slot.PointsBelow a.size

theorem Closed.rightOf_lt (ha : a.Closed) {child parent : Handle} (h : a.RightOf child parent) :
    child.index < a.size := by
  obtain ⟨slot, there, b, hb, r, hr, rfl⟩ := h
  exact ha slot (List.mem_of_getElem? there) b hb r hr

theorem slot?_of_lt {h : Handle} (hlt : h.index < a.size) : ∃ slot, a.slot? h = some slot :=
  ⟨_, List.getElem?_eq_getElem hlt⟩

theorem slotOf_of_there {h : Handle} {slot : Slot} (there : a.slot? h = some slot) :
    a.slotOf h = .ok slot := by
  rw [slotOf, there]

theorem Unfolds.acc {h : Handle} {t : Tree} (hu : a.Unfolds h t) : Acc a.RightOf h := by
  induction hu with
  | @node h slot tree there rights ih =>
    refine Acc.intro h fun child hchild => ?_
    obtain ⟨slot', there', b, hb, r, hr, rfl⟩ := hchild
    obtain rfl : slot = slot' := Option.some.inj (there.symm.trans there')
    exact ih b hb r hr

/-- From a node from which every way down ends, no node leads back to itself. -/
theorem acyclicBelow_of_acc {root : Handle} (hacc : Acc a.RightOf root) : a.AcyclicBelow root := by
  have irrefl : ∀ h, Acc a.RightOf h → ¬ Relation.TransGen a.RightOf h h := by
    intro h hh
    induction hh with
    | intro h _ ih =>
      intro hcycle
      obtain ⟨last, hway, hstep⟩ := Relation.TransGen.tail'_iff.1 hcycle
      exact ih last hstep (Relation.TransGen.head' hstep hway)
  intro h hway
  refine irrefl h ?_
  induction hway using Relation.ReflTransGen.head_induction_on with
  | refl => exact hacc
  | head hstep _ ih => exact ih.inv hstep

/-- Where every relation leads to an older node, no node leads back to itself. -/
theorem acyclicBelow_of_older (h : ∀ i, ∀ hi : i < a.slots.length, a.slots[i].PointsBelow i)
    (root : Handle) : a.AcyclicBelow root := by
  have older : ∀ child parent, a.RightOf child parent → child.index < parent.index := by
    rintro child parent ⟨slot, there, b, hb, r, hr, rfl⟩
    obtain ⟨hi, rfl⟩ := List.getElem?_eq_some_iff.1 there
    exact h parent.index hi b hb r hr
  exact acyclicBelow_of_acc
    ((Subrelation.wf (fun {child parent} => older child parent) (measure Handle.index).wf).apply
      root)

/-- The nodes that the relations lead to from a node. -/
abbrev Descendant (a : Arena) (root : Handle) : Type :=
  { h : Handle // Relation.ReflTransGen a.RightOf h root }

theorem Closed.descendant_lt (ha : a.Closed) {root : Handle} (there : root.index < a.size)
    (h : a.Descendant root) : h.1.index < a.size := by
  rcases Relation.ReflTransGen.cases_head h.2 with heq | ⟨parent, hstep, -⟩
  · rw [heq]
    exact there
  · exact ha.rightOf_lt hstep

theorem Closed.finite_descendant (ha : a.Closed) {root : Handle} (there : root.index < a.size) :
    Finite (a.Descendant root) := by
  refine Finite.of_injective (fun h => (⟨h.1.index, ha.descendant_lt there h⟩ : Fin a.size)) ?_
  rintro ⟨⟨i⟩, hi⟩ ⟨⟨j⟩, hj⟩ heq
  have : i = j := congrArg Fin.val heq
  simp only [this]

theorem AcyclicBelow.wellFounded {root : Handle} (hroot : a.AcyclicBelow root)
    [Finite (a.Descendant root)] :
    WellFounded fun g h : a.Descendant root => Relation.TransGen a.RightOf g.1 h.1 := by
  have : IsTrans (a.Descendant root) fun g h => Relation.TransGen a.RightOf g.1 h.1 :=
    ⟨fun _ _ _ h k => h.trans k⟩
  have : Std.Irrefl fun g h : a.Descendant root => Relation.TransGen a.RightOf g.1 h.1 :=
    ⟨fun h => hroot h.1 h.2⟩
  exact Finite.wellFounded_of_trans_of_irrefl _

/-- With finitely many nodes, a way that never comes back to a node has to end. -/
theorem AcyclicBelow.acc (ha : a.Closed) {root : Handle} (there : root.index < a.size)
    (hroot : a.AcyclicBelow root) : Acc a.RightOf root := by
  have := ha.finite_descendant there
  have accessible : ∀ h : a.Descendant root, Acc a.RightOf h.1 := by
    intro h
    induction h using hroot.wellFounded.induction with
    | _ h ih =>
      refine Acc.intro h.1 fun child hchild => ?_
      exact ih ⟨child, Relation.ReflTransGen.head hchild h.2⟩ (Relation.TransGen.single hchild)
  exact accessible ⟨root, Relation.ReflTransGen.refl⟩

theorem exists_unfolds_of_acc (ha : a.Closed) {h : Handle} (hacc : Acc a.RightOf h)
    (there : h.index < a.size) : ∃ t, a.Unfolds h t := by
  induction hacc with
  | intro h _ ih =>
    obtain ⟨slot, hslot⟩ := slot?_of_lt there
    have choice : ∀ child, ∃ t, a.RightOf child h → a.Unfolds child t := by
      intro child
      by_cases hchild : a.RightOf child h
      · obtain ⟨t, ht⟩ := ih child hchild (ha.rightOf_lt hchild)
        exact ⟨t, fun _ => ht⟩
      · exact ⟨default, fun hc => absurd hc hchild⟩
    choose tree htree using choice
    exact ⟨_, .node tree hslot fun b hb r hr => htree r.1 ⟨slot, hslot, b, hb, r, hr, rfl⟩⟩

/-- **Unfolding ends exactly below acyclic nodes.** -/
theorem exists_unfolds_iff (ha : a.Closed) {h : Handle} :
    (∃ t, a.Unfolds h t) ↔ h.index < a.size ∧ a.AcyclicBelow h := by
  constructor
  · rintro ⟨t, hu⟩
    obtain ⟨slot, there⟩ := hu.there
    exact ⟨slot?_lt there, acyclicBelow_of_acc hu.acc⟩
  · rintro ⟨there, hacyclic⟩
    exact exists_unfolds_of_acc ha (hacyclic.acc ha there) there

/-! ## Soundness -/

theorem Unfolds.sound (ha : ∀ slot ∈ a.slots, Bundle.WellFormed slot.bundles) {h : Handle}
    {t : Tree} (hu : a.Unfolds h t) : t.Sound := by
  induction hu with
  | @node h slot tree there rights ih =>
    refine .node ?_ ?_
    · exact (Bundle.wellFormed_map tree).2 (ha slot (List.mem_of_getElem? there))
    · intro b hb r hr
      obtain ⟨c, hc, rfl⟩ := List.mem_map.1 hb
      obtain ⟨s, hs, rfl⟩ := List.mem_map.1 hr
      exact ih c hc s hs

theorem wellFormed_lasting (schema : Option Schema) :
    Lasting schema fun slots => ∀ slot ∈ slots, Bundle.WellFormed slot.bundles :=
  Lasting.ofSlots (fun _ _ => Bundle.wellFormed_nil) fun _ h change => by
    cases change with
    | related _ _ _ attached => exact (Bundle.attach_attached attached).wellFormed h
    | finished => exact h

theorem reached_closed (schema : Option Schema) (calls : List (Call Handle)) :
    (reached schema calls).Closed :=
  ((closed_lasting schema).throughout calls).1

theorem reached_wellFormed (schema : Option Schema) (calls : List (Call Handle)) :
    ∀ slot ∈ (reached schema calls).slots, Bundle.WellFormed slot.bundles :=
  ((wellFormed_lasting schema).throughout calls).1

/-- A pair that has one literal three times among its right nodes, under two relations in turns. -/
def pairCalls : List (Call Handle) :=
  [.make "literal" ∅, .make "pair" ∅, .relate ⟨"items", .many⟩ ⟨1⟩ ⟨0⟩ ∅,
    .relate ⟨"first", .one⟩ ⟨1⟩ ⟨0⟩ ∅, .relate ⟨"items", .many⟩ ⟨1⟩ ⟨0⟩ ∅, .finish "pair" ⟨1⟩]

theorem acyclicBelow_pair : (reached none pairCalls).AcyclicBelow ⟨1⟩ :=
  acyclicBelow_of_older (by decide) ⟨1⟩

end Arena

end TreeProtocol
