import TreeProtocol.Proofs.Lookups
import TreeProtocol.Proofs.Views
import TreeProtocol.Proofs.Arena.Outcomes
import TreeProtocol.Proofs.Arena.History

/-!
# What relating changes

A relation that is accepted adds one right node under one name of one node. Trees are copied for it
and slots of an arena are changed in place, but what is read off the left node afterwards is the
same for both:

* `View.Gains` — one more right node under the name of the relation, all else as before;
* `Arena.OnlyRelated` — what else of an arena may change: at most, the state of the left node is
  saved in the innermost mark;
* `relate_gains` — whenever relating succeeds, this is what comes of it.

The right node may be the left node itself, or a right node of many others: an arena then shows the
new right node from all of them, but it changes one slot only.
-/

namespace TreeProtocol

variable {N : Type} {relation : Relation} {left right node : N} {args : Attrs}

namespace View

/-- What is read under the name of a relation before and after a right node was attached. -/
inductive Adds (before after : View N) (relation : Relation) (left right : N) (args : Attrs)
    (node : N) : Prop
  /-- The relation was there: it is listed as before, with the right node last. -/
  | joined {known : List Relation} {related : Related N}
      (listed : before.relations left = .ok known) (present : relation ∈ known)
      (previous : before.related relation left = .ok related)
      (relations : after.relations node = .ok known)
      (now : after.related relation node = .ok (related.push right args))
  /-- There was no relation of the name: this one is listed last, with the right node alone. -/
  | started {known : List Relation} {e : BuildError}
      (listed : before.relations left = .ok known)
      (absent : ∀ r ∈ known, r.name ≠ relation.name)
      (previous : before.related relation left = .error e)
      (relations : after.relations node = .ok (known ++ [relation]))
      (now : after.related relation node = .ok (Related.empty.push right args))

/-- The node is read as the left node was, but for the right node under the relation. -/
structure Gains (before after : View N) (relation : Relation) (left right : N) (args : Attrs)
    (node : N) : Prop where
  kind : after.kind node = before.kind left
  attrs : after.attrs node = before.attrs left
  adds : Adds before after relation left right args node
  others : ∀ other : Relation, relation.name ≠ other.name →
    after.related other node = before.related other left

variable {v w : View N} {kind : Kind} {attrs : Attrs} {bundles next : List (Bundle N)}
  {missing : String → BuildError}

theorem Reads.related_congr (hv : v.Reads left kind attrs bundles missing)
    (hw : w.Reads node kind attrs next missing) {other : Relation}
    (same : Bundle.find? next other.name = Bundle.find? bundles other.name) :
    w.related other node = v.related other left := by
  cases hfind : Bundle.find? bundles other.name with
  | none => rw [hv.lacking hfind, hw.lacking (same.trans hfind)]
  | some b => rw [hv.found hfind, hw.found (same.trans hfind)]

/-- **Attaching a right node** is read as one more right node. -/
theorem Reads.gains (hv : v.Reads left kind attrs bundles missing)
    (hw : w.Reads node kind attrs next missing)
    (attached : Bundle.Attached relation right args bundles next) :
    Gains v w relation left right args node := by
  refine ⟨hw.kind.trans hv.kind.symm, hw.attrs.trans hv.attrs.symm, ?_, fun other hne =>
    hv.related_congr hw (attached.find?_of_ne hne)⟩
  have relations := hw.relations
  rcases attached.lookup with ⟨rights, found, -, same, last⟩ | ⟨new, -, more, first⟩
  · rw [same] at relations
    have present : relation ∈ Bundle.relations bundles :=
      List.mem_map_of_mem (Bundle.find?_mem found).1
    exact .joined hv.relations present (hv.found found) relations (hw.found last)
  · rw [more] at relations
    have absent : ∀ r ∈ Bundle.relations bundles, r.name ≠ relation.name :=
      List.forall_mem_map.2 (Bundle.find?_eq_none_iff.1 new)
    exact .started hv.relations absent (hv.lacking new) relations (hw.found first)

end View

/-! ## Nodes of an arena -/

namespace Arena

variable {a : Arena} {h : Handle} {slot : Slot}

/-- Of all that is not read off the left node, nothing changes but the innermost mark, which may
have got the previous state of the left node. -/
structure OnlyRelated (left : Handle) (a b : Arena) : Prop where
  schema : b.schema = a.schema
  size : b.size = a.size
  others : SameBut left a b
  finished : ∀ h, b.isFinished h = a.isFinished h
  lengths : b.marks.map (·.length) = a.marks.map (·.length)
  outer : b.marks.tail = a.marks.tail
  innermost : MarksBut left a b

/-- Replacing the bundles of a slot leaves its finished flag alone. -/
theorem onlyRelated_setSlot (there : a.slot? h = some slot) (bundles : List (Bundle Handle)) :
    OnlyRelated h a ((a.touch h).setSlot h { slot with bundles }) := by
  have others := sameBut_setSlot a h { slot with bundles }
  have marks := marksBut_touch there
  refine
    { schema := schema_touch a h
      size := setSlot_size a h _
      others
      finished := fun g => ?_
      lengths := marks.lengths
      outer := marks.outer
      innermost := ?_ }
  · by_cases heq : g = h
    · rw [heq, isFinished, isFinished, slot?_setSlot (slot?_lt there), there]
      rfl
    · rw [isFinished, isFinished, others g heq]
  · cases marks with
    | same marks => exact .same marks
    | saved innermost there older new marks => exact .saved innermost there older new marks

end Arena

/-! ## Relating -/

/-- **What relating changes.** In every arena, if relating succeeds, the node that comes out is the
left node; it has the right node last under the relation, which is listed last if its name is new;
and nothing else changes, but that the innermost mark may have got the previous state of the left
node. Relating trees makes a tree that differs from the left one in just the same way. -/
theorem relate_gains :
    (∀ (a : Arena) (relation : Relation) (left right node : Handle) (args : Attrs),
      (Arena.relate relation left right args a).outcome = .done node →
        node = left ∧
        View.Gains a.view (Arena.relate relation left right args a).state.view relation left right
          args node ∧
        Arena.OnlyRelated left a (Arena.relate relation left right args a).state) ∧
    ∀ (relation : Relation) (left right node : Tree) (args : Attrs),
      Tree.relate relation left right args = .ok node →
        View.Gains Tree.view Tree.view relation left right args node := by
  refine ⟨fun a relation left right node args hdone => ?_,
    fun relation left right node args hok => ?_⟩
  · obtain ⟨rfl, slot, bundles, there, -, -, -, attached, state⟩ := Arena.relate_done hdone
    rw [state]
    have after := Arena.reads
      (Arena.slot?_setSlot (Arena.slot?_lt there) { slot with bundles })
    exact ⟨rfl, (Arena.reads there).gains after attached, Arena.onlyRelated_setSlot there bundles⟩
  · obtain ⟨bundles, attached, rfl⟩ := Tree.relate_eq_ok_iff.1 hok
    exact (Tree.reads left).gains (Tree.reads { left with bundles }) attached

/-- A pair that is among its own items, in a session that was opened afterwards. -/
def selfRelated : Arena :=
  Arena.reached none [.make "pair" ∅, .relate ⟨"items", .many⟩ ⟨0⟩ ⟨0⟩ ∅, .prepare]

/-- The pair becomes its own item once more, and its state with one item is saved. -/
theorem relate_gains_self :
    (Arena.relate ⟨"items", .many⟩ ⟨0⟩ ⟨0⟩ ∅ selfRelated).outcome = .done ⟨0⟩ ∧
      Arena.OnlyRelated ⟨0⟩ selfRelated
        (Arena.relate ⟨"items", .many⟩ ⟨0⟩ ⟨0⟩ ∅ selfRelated).state ∧
      View.Gains Tree.view Tree.view ⟨"items", .many⟩ (Tree.make "pair" ∅) (Tree.make "rest" ∅) ∅
        ⟨"pair", ∅, [⟨⟨"items", .many⟩, [(Tree.make "rest" ∅, ∅)]⟩]⟩ := by
  have hdone : (Arena.relate ⟨"items", .many⟩ ⟨0⟩ ⟨0⟩ ∅ selfRelated).outcome = .done ⟨0⟩ := rfl
  have hok : Tree.relate ⟨"items", .many⟩ (Tree.make "pair" ∅) (Tree.make "rest" ∅) ∅ =
      .ok ⟨"pair", ∅, [⟨⟨"items", .many⟩, [(Tree.make "rest" ∅, ∅)]⟩]⟩ := rfl
  obtain ⟨-, -, only⟩ := relate_gains.1 selfRelated ⟨"items", .many⟩ ⟨0⟩ ⟨0⟩ ⟨0⟩ ∅ hdone
  exact ⟨hdone, only, relate_gains.2 _ _ _ _ _ hok⟩

end TreeProtocol
