import TreeProtocol.Construction.Composite
import TreeProtocol.Proofs.Admission
import TreeProtocol.Proofs.Arena.Outcomes
import TreeProtocol.Proofs.Lookups
import TreeProtocol.Proofs.Trees

/-!
# Admission in any order

Each right node is judged by those before it, and which one is refused depends on the order. Whether
all of them are accepted does not:

* `Relation.accept_perm` — the order of the right nodes that are there does not matter;
* `Relation.accept_swap` — two right nodes may change places, since equality of values is symmetric;
* `Relation.acceptAll_perm` — so any number of right nodes may come in any order;
* `Builder.Judges` — a builder that judges right nodes by nothing else but those that are there;
* `Judges.relateAll_iff` — such a builder relates several right nodes, one after the other, exactly
  if all of them are accepted;
* `order_irrelevant` — admission, plans, trees and arenas.
-/

namespace TreeProtocol

/-! ## Admission -/

namespace Relation

variable {r : Relation} {existing others xs ys : List Attrs}

theorem keyTaken_perm (h : existing.Perm others) (key : String) (value : Value) :
    keyTaken key value existing = keyTaken key value others := by
  rw [Bool.eq_iff_iff, keyTaken, keyTaken, List.any_eq_true, List.any_eq_true]
  simp only [h.mem_iff]

/-- **The right nodes that are there** are looked at in any order. -/
theorem accept_perm (h : existing.Perm others) (r : Relation) (args : Attrs) :
    r.accept existing args = r.accept others args := by
  have empty : existing.isEmpty = others.isEmpty := by
    rw [Bool.eq_iff_iff, List.isEmpty_iff_length_eq_zero, List.isEmpty_iff_length_eq_zero,
      h.length_eq]
  rw [accept, accept, empty]
  simp only [keyTaken_perm h]

theorem acceptAll_perm_existing (h : existing.Perm others) (r : Relation) (xs : List Attrs) :
    r.acceptAll existing xs = r.acceptAll others xs := by
  induction xs generalizing existing others with
  | nil => rfl
  | cons x xs ih => rw [acceptAll, acceptAll, accept_perm h, ih (h.append_right [x])]

/-- **Two right nodes may change places.** -/
theorem accept_swap (r : Relation) (existing : List Attrs) (x y : Attrs) :
    (r.accept existing x = .ok () ∧ r.accept (existing ++ [x]) y = .ok ()) ↔
      (r.accept existing y = .ok () ∧ r.accept (existing ++ [y]) x = .ok ()) := by
  cases hr : r.cardinality with
  | many => simp only [accept, hr]
  | one =>
    exact iff_of_false (fun h => accept_single_append (.inl hr) existing x y h.2)
      fun h => accept_single_append (.inl hr) existing y x h.2
  | optional =>
    exact iff_of_false (fun h => accept_single_append (.inr hr) existing x y h.2)
      fun h => accept_single_append (.inr hr) existing y x h.2
  | keyed key =>
    simp only [accept_keyed hr, List.forall_mem_append, List.forall_mem_singleton]
    constructor
    · rintro ⟨⟨hx, newx⟩, hy, newy, apart⟩
      exact ⟨⟨hy, newy⟩, hx, newx, apart.symm⟩
    · rintro ⟨⟨hy, newy⟩, hx, newx, apart⟩
      exact ⟨⟨hx, newx⟩, hy, newy, apart.symm⟩

/-- **Any order will do.** Induction on the permutation; behind right nodes that changed places, the
others find the same right nodes in another order. -/
theorem acceptAll_perm (h : xs.Perm ys) (r : Relation) (existing : List Attrs) :
    r.acceptAll existing xs = .ok () ↔ r.acceptAll existing ys = .ok () := by
  induction h generalizing existing with
  | nil => rfl
  | cons x more ih => rw [acceptAll_cons, acceptAll_cons, ih]
  | swap x y more =>
    have moved : (existing ++ [y] ++ [x]).Perm (existing ++ [x] ++ [y]) := by
      rw [List.append_assoc, List.append_assoc]
      exact (List.Perm.swap x y []).append_left existing
    rw [acceptAll_cons, acceptAll_cons, acceptAll_cons, acceptAll_cons, ← and_assoc, ← and_assoc,
      accept_swap, acceptAll_perm_existing moved]
  | trans first second ih₁ ih₂ => exact (ih₁ existing).trans (ih₂ existing)

end Relation

/-! ## Plans -/

theorem RelationPlan.check_perm {W N : Type} {p q : RelationPlan W N}
    (relation : p.relation = q.relation) (rights : p.rights.Perm q.rights) :
    p.check = .ok () ↔ q.check = .ok () := by
  have count : p.size = q.size := rights.length_eq
  rw [check, check, relation, count]
  cases q.relation.cardinality with
  | many => rfl
  | one => rfl
  | optional => rfl
  | keyed key => exact Relation.acceptAll_perm (rights.map (·.args)) q.relation []

/-! ## Builders -/

namespace Builder

variable {W N : Type}

/-- Relates right nodes to the left node, one after the other. -/
def relateAll (b : Builder W N) (relation : Relation) (rights : List (N × Attrs)) (left : N) :
    Action W N :=
  rights.foldlM (fun node right => b.relate relation node right.1 right.2) left

/-- The builder relates right nodes that are there exactly if they are accepted behind those that
the left node has, and then the left node has one more. `Has` says that right nodes can be related
to a node, which has some with these attributes already. -/
structure Judges (b : Builder W N) (relation : Relation) (There : W → N → Prop)
    (Has : W → N → List Attrs → Prop) : Prop where
  unique : ∀ {w node existing others}, Has w node existing → Has w node others → existing = others
  there : ∀ {w node right args other},
    There (b.relate relation node right args w).state other ↔ There w other
  relate_iff : ∀ {w node right args},
    (∃ next, (b.relate relation node right args w).outcome = .done next) ↔
      ∃ existing, Has w node existing ∧ There w right ∧ relation.accept existing args = .ok ()
  related : ∀ {w node right args next existing},
    (b.relate relation node right args w).outcome = .done next → Has w node existing →
      Has (b.relate relation node right args w).state next (existing ++ [args])

variable {b : Builder W N} {relation : Relation} {There : W → N → Prop}
  {Has : W → N → List Attrs → Prop}

theorem relateAll_cons (b : Builder W N) (relation : Relation) (right : N × Attrs)
    (more : List (N × Attrs)) (left : N) (w : W) :
    (∃ node, (b.relateAll relation (right :: more) left w).outcome = .done node) ↔
      ∃ next, (b.relate relation left right.1 right.2 w).outcome = .done next ∧
        ∃ node, (b.relateAll relation more next
          (b.relate relation left right.1 right.2 w).state).outcome = .done node := by
  rw [relateAll, List.foldlM_cons]
  constructor
  · rintro ⟨node, hdone⟩
    obtain ⟨next, hnext, hrest, -⟩ := Action.done_of_bind hdone
    exact ⟨next, hnext, node, hrest⟩
  · rintro ⟨next, hnext, node, hrest⟩
    refine ⟨node, ?_⟩
    rw [Action.bind_of_done hnext]
    exact hrest

/-- **Run lemma.** Right nodes are related one after the other exactly if all of them are there and
accepted. Induction on the right nodes behind the first one. -/
theorem Judges.relateAll_iff (judges : b.Judges relation There Has) (right : N × Attrs)
    (more : List (N × Attrs)) (left : N) (w : W) :
    (∃ node, (b.relateAll relation (right :: more) left w).outcome = .done node) ↔
      ∃ existing, Has w left existing ∧ (∀ r ∈ right :: more, There w r.1) ∧
        relation.acceptAll existing ((right :: more).map (·.2)) = .ok () := by
  induction more generalizing right left w with
  | nil =>
    have last : (∃ node, (b.relateAll relation [right] left w).outcome = .done node) ↔
        ∃ next, (b.relate relation left right.1 right.2 w).outcome = .done next := by
      rw [relateAll_cons]
      exact ⟨fun ⟨next, hnext, _⟩ => ⟨next, hnext⟩, fun ⟨next, hnext⟩ => ⟨next, hnext, next, rfl⟩⟩
    rw [last, judges.relate_iff]
    simp only [List.map_cons, List.map_nil, List.forall_mem_singleton, Relation.acceptAll_cons]
    refine exists_congr fun existing => and_congr_right fun _ => and_congr_right fun _ => ?_
    exact (and_iff_left rfl).symm
  | cons r more ih =>
    rw [relateAll_cons, List.map_cons]
    constructor
    · rintro ⟨next, hnext, hrest⟩
      obtain ⟨existing, has, there, accepted⟩ := judges.relate_iff.1 ⟨next, hnext⟩
      obtain ⟨others, has', others_there, rest⟩ := (ih r next _).1 hrest
      rw [judges.unique has' (judges.related hnext has)] at rest
      refine ⟨existing, has, List.forall_mem_cons.2 ⟨there, fun o ho => ?_⟩, ?_⟩
      · exact judges.there.1 (others_there o ho)
      · exact (relation.acceptAll_cons existing _ _).2 ⟨accepted, rest⟩
    · rintro ⟨existing, has, there, accepted⟩
      obtain ⟨here, others_there⟩ := List.forall_mem_cons.1 there
      obtain ⟨first, rest⟩ := (relation.acceptAll_cons existing _ _).1 accepted
      obtain ⟨next, hnext⟩ := judges.relate_iff.2 ⟨existing, has, here, first⟩
      refine ⟨next, hnext, (ih r next _).2 ⟨_, judges.related hnext has, fun o ho => ?_, rest⟩⟩
      exact judges.there.2 (others_there o ho)

/-- Such a builder does not mind the order. -/
theorem Judges.relateAll_perm (judges : b.Judges relation There Has)
    {rights others : List (N × Attrs)} (h : rights.Perm others) (left : N) (w : W) :
    (∃ node, (b.relateAll relation rights left w).outcome = .done node) ↔
      ∃ node, (b.relateAll relation others left w).outcome = .done node := by
  cases rights with
  | nil => rw [h.nil_eq]
  | cons r more =>
    cases others with
    | nil => cases h.eq_nil
    | cons o rest =>
      rw [judges.relateAll_iff, judges.relateAll_iff]
      refine exists_congr fun existing => and_congr_right fun _ => ?_
      rw [Relation.acceptAll_perm (h.map (·.2))]
      simp only [h.mem_iff]

end Builder

/-! ## Trees -/

theorem Tree.judges (W : Type) (relation : Relation) :
    (Tree.builder : Builder W Tree).Judges relation (fun _ _ => True) fun _ t existing =>
      Bundle.Under relation t.bundles existing where
  unique := Bundle.Under.unique
  there := Iff.rfl
  relate_iff := by
    intro w t right args
    constructor
    · rintro ⟨next, hdone⟩
      obtain ⟨bundles, attached, -⟩ := Tree.relate_eq_ok_iff.1 (Action.ofExcept_done hdone)
      obtain ⟨existing, under, accepted, -⟩ := attached.under
      exact ⟨existing, under, trivial, accepted⟩
    · rintro ⟨existing, under, -, accepted⟩
      obtain ⟨bundles, attached⟩ := under.attached accepted right
      refine ⟨{ t with bundles }, ?_⟩
      exact congrArg Outcome.ofExcept (Tree.relate_eq_ok_iff.2 ⟨bundles, attached, rfl⟩)
  related := by
    intro w t right args next existing hdone under
    obtain ⟨bundles, attached, rfl⟩ := Tree.relate_eq_ok_iff.1 (Action.ofExcept_done hdone)
    obtain ⟨existing', under', -, now⟩ := attached.under
    rw [under.unique under']
    exact now

/-! ## Nodes of an arena -/

namespace Arena

/-- Right nodes can be related to the left node, which has some with these attributes. -/
def HasUnder (relation : Relation) (a : Arena) (left : Handle) (existing : List Attrs) : Prop :=
  ∃ slot, a.slot? left = some slot ∧ slot.finished = false ∧
    a.checked (·.checkRelation slot.kind relation) = .ok () ∧
    Bundle.Under relation slot.bundles existing

theorem judges (relation : Relation) :
    (builder Lens.whole).Judges relation (fun a right => right.index < a.size)
      (HasUnder relation) where
  unique := by
    rintro a left existing others ⟨slot, hslot, -, -, under⟩ ⟨slot', hslot', -, -, under'⟩
    obtain rfl := Option.some.inj (hslot.symm.trans hslot')
    exact under.unique under'
  there := by
    intro a left right args other
    show other.index < (relate relation left right args a).state.size ↔ other.index < a.size
    rw [relate_size]
  relate_iff := by
    intro a left right args
    show (∃ next, (relate relation left right args a).outcome = .done next) ↔ _
    constructor
    · rintro ⟨next, hdone⟩
      obtain ⟨-, slot, bundles, hslot, unfinished, there, allowed, attached, -⟩ := relate_done hdone
      obtain ⟨existing, under, accepted, -⟩ := attached.under
      exact ⟨existing, ⟨slot, hslot, unfinished, allowed, under⟩, there, accepted⟩
    · rintro ⟨existing, ⟨slot, hslot, unfinished, allowed, under⟩, there, accepted⟩
      obtain ⟨bundles, attached⟩ := under.attached accepted right
      refine ⟨left, ?_⟩
      rw [relate_open there hslot unfinished, relatedSlot_open unfinished allowed,
        attached.attach_eq]
      rfl
  related := by
    rintro a left right args next existing hdone ⟨slot, hslot, -, -, under⟩
    change (relate relation left right args a).outcome = .done next at hdone
    show HasUnder relation (relate relation left right args a).state next (existing ++ [args])
    obtain ⟨rfl, slot', bundles, hslot', unfinished, -, allowed, attached, state⟩ :=
      relate_done hdone
    obtain rfl := Option.some.inj (hslot.symm.trans hslot')
    obtain ⟨existing', under', -, now⟩ := attached.under
    rw [under.unique under', state]
    refine ⟨{ slot with bundles }, slot?_setSlot (slot?_lt hslot) _, unfinished, ?_, now⟩
    rw [checked] at allowed ⊢
    rw [setSlot, schema_touch]
    exact allowed

end Arena

/-! ## Any order -/

/-- **Whether right nodes are accepted does not depend on their order.** This holds of admission one
after the other, of the check of a plan, and of relating the right nodes to a tree, or to a node of
an arena, whatever the tree or the arena has already. -/
theorem order_irrelevant (relation : Relation) :
    (∀ existing xs ys : List Attrs, xs.Perm ys →
      (relation.acceptAll existing xs = .ok () ↔ relation.acceptAll existing ys = .ok ())) ∧
    (∀ (W N : Type) (p q : RelationPlan W N), p.relation = relation → q.relation = relation →
      p.rights.Perm q.rights → (p.check = .ok () ↔ q.check = .ok ())) ∧
    (∀ (W : Type) (w : W) (left : Tree) (rights others : List (Tree × Attrs)),
      rights.Perm others →
      ((∃ t, (Tree.builder.relateAll relation rights left w).outcome = .done t) ↔
        ∃ t, (Tree.builder.relateAll relation others left w).outcome = .done t)) ∧
    ∀ (a : Arena) (left : Handle) (rights others : List (Handle × Attrs)), rights.Perm others →
      ((∃ h, ((Arena.builder Lens.whole).relateAll relation rights left a).outcome = .done h) ↔
        ∃ h, ((Arena.builder Lens.whole).relateAll relation others left a).outcome = .done h) := by
  refine ⟨fun existing xs ys h => Relation.acceptAll_perm h relation existing, ?_, ?_, ?_⟩
  · rintro W N p q hp rfl rights
    exact RelationPlan.check_perm hp rights
  · intro W w left rights others h
    exact (Tree.judges W relation).relateAll_perm h left w
  · intro a left rights others h
    exact (Arena.judges relation).relateAll_perm h left a

/-- Two items under different keys. -/
def lettered : List Attrs := [(∅ : Attrs).push "k" (.text "a"), (∅ : Attrs).push "k" (.text "b")]

/-- They are accepted in the one order, and so they are in the other. -/
theorem order_irrelevant_lettered :
    Relation.acceptAll ⟨"items", .keyed "k"⟩ [] lettered.reverse = .ok () ∧
      (RelationPlan.mk ⟨"items", .keyed "k"⟩
        (lettered.reverse.map (RightSupply.mk (Action.pure ()))) : RelationPlan Unit Unit).check =
          .ok () ∧
      (∃ t, (Tree.builder.relateAll ⟨"items", .keyed "k"⟩
        (lettered.reverse.map (Prod.mk (Tree.make "rest" ∅))) (Tree.make "pair" ∅) ()).outcome =
          .done t) ∧
      ∃ h, ((Arena.builder Lens.whole).relateAll ⟨"items", .keyed "k"⟩
        (lettered.reverse.map (Prod.mk ⟨0⟩)) ⟨0⟩
        { slots := [{ kind := "pair", attrs := ∅ }] }).outcome = .done h := by
  have swapped : lettered.Perm lettered.reverse := (List.reverse_perm lettered).symm
  obtain ⟨admission, plans, trees, arenas⟩ := order_irrelevant ⟨"items", .keyed "k"⟩
  refine ⟨?_, ?_, ?_, ?_⟩
  · exact (admission [] _ _ swapped).1 rfl
  · exact (plans Unit Unit (.mk _ (lettered.map (.mk (Action.pure ())))) _ rfl rfl
      (swapped.map _)).1 rfl
  · exact (trees Unit () (Tree.make "pair" ∅) _ _ (swapped.map _)).1 ⟨_, rfl⟩
  · exact (arenas _ ⟨0⟩ _ _ (swapped.map _)).1 ⟨⟨0⟩, rfl⟩

end TreeProtocol
