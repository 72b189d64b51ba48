import Mathlib.Logic.Relation
import TreeProtocol.Proofs.Admission
import TreeProtocol.Proofs.NormalForm
import TreeProtocol.Proofs.Views

/-!
# The attachments that a node stands for

The bundles of a node are determined by the right nodes that were attached to it, in the order in
which they were attached. `Attachment.bundles` says how, and `View.Represents` is all that is then
known of the node: relation names differ, there are as many right nodes as the cardinality of their
relation says, keys are there and differ, and a view answers with the right nodes in order.

* `bundles_of_attached` — attaching one more right node adds one more attachment;
* `represents_of_wellFormed` — the invariant of a node, read off well-formed bundles;
* `Tree.Grown` — how a tree came to its right nodes, and `Tree.Obtained.represents`.
-/

namespace TreeProtocol

/-- A right node that was attached, the relation, and the attributes it was attached with. -/
structure Attachment (N : Type) where
  relation : Relation
  right : N
  args : Attrs

namespace Attachment

variable {N : Type} {log : List (Attachment N)}

/-- The right nodes that were attached under a name, in order. -/
def under (log : List (Attachment N)) (name : String) : List (N × Attrs) :=
  (log.filter (·.relation.name == name)).map fun x => (x.right, x.args)

/-- The bundles of a node with these attachments: one for each name, in the order of the first
attachment under it. -/
def bundles (log : List (Attachment N)) : List (Bundle N) :=
  (Relation.firstNamed (log.map (·.relation))).map fun r => ⟨r, under log r.name⟩

/-- One attachment as a bundle of its own. -/
def bundle (x : Attachment N) : Bundle N := ⟨x.relation, [(x.right, x.args)]⟩

theorem rightsUnder_bundle (log : List (Attachment N)) (name : String) :
    Bundle.rightsUnder (log.map bundle) name = under log name := by
  induction log with
  | nil => rfl
  | cons x more ih =>
    rw [Bundle.rightsUnder, under] at *
    rw [List.map_cons, List.filter_cons, List.filter_cons]
    show List.flatMap _ (if (x.relation.name == name) = true then _ else _) = _
    split
    · rw [List.flatMap_cons, ih, List.map_cons]
      rfl
    · exact ih

theorem bundles_eq_gathered (log : List (Attachment N)) :
    bundles log = Bundle.gathered (log.map bundle) := by
  have all : (log.map bundle).filter (!·.isEmpty) = log.map bundle := by
    rw [List.filter_eq_self, List.forall_mem_map]
    exact fun _ _ => rfl
  rw [Bundle.gathered, Bundle.established, all, Bundle.relations, List.map_map, bundles]
  refine List.map_congr_left fun r _ => ?_
  rw [rightsUnder_bundle]

/-- **One more right node, one more attachment.** -/
theorem bundles_of_attached {relation : Relation} {right : N} {args : Attrs}
    {next : List (Bundle N)} (h : Bundle.Attached relation right args (bundles log) next) :
    next = bundles (log ++ [⟨relation, right, args⟩]) := by
  rw [bundles_eq_gathered] at h ⊢
  rw [Bundle.eq_gathered_of_attached h, List.map_append]
  rfl

end Attachment

/-! ## The representation invariant of a node -/

namespace Bundle

variable {N : Type}

/-- What holds of a bundle, whichever attachments it comes from. -/
structure Regular (b : Bundle N) : Prop where
  filled : 1 ≤ b.size
  single : b.relation.cardinality = .one ∨ b.relation.cardinality = .optional → b.size = 1
  keyed : ∀ key, b.relation.cardinality = .keyed key → ∀ r ∈ b.rights, r.2.contains key = true
  apart : ∀ key, b.relation.cardinality = .keyed key →
    ∀ (i j : Nat) (hi : i < b.rights.length) (hj : j < b.rights.length), i ≠ j →
      Attrs.Apart key b.rights[i].2 b.rights[j].2

/-- A pair of different positions is ordered one way or the other, and being apart is symmetric. -/
theorem apart_of_pairwise {key : String} {rights : List (N × Attrs)}
    (h : (rights.map (·.2)).Pairwise (Attrs.Apart key)) {i j : Nat} (hi : i < rights.length)
    (hj : j < rights.length) (hne : i ≠ j) : Attrs.Apart key rights[i].2 rights[j].2 := by
  rw [List.pairwise_map, List.pairwise_iff_getElem] at h
  rcases Nat.lt_or_gt_of_ne hne with hlt | hgt
  · exact h i j hi hj hlt
  · exact (h j i hj hi hgt).symm

theorem WellFormed.regular {bundles : List (Bundle N)} (h : WellFormed bundles) {b : Bundle N}
    (hb : b ∈ bundles) : b.Regular := by
  have admitted := (Relation.acceptAll_eq_ok_iff _ _).1 (h.accepted b hb)
  have filled : 1 ≤ b.size := List.length_pos_iff.2 (h.filled b hb)
  refine ⟨filled, fun hsingle => ?_, fun key hkey => ?_, fun key hkey => ?_⟩
  · have few := Relation.acceptAll_single hsingle (h.accepted b hb)
    rw [List.length_map] at few
    exact Nat.le_antisymm few filled
  · rw [Relation.admits_keyed hkey, List.forall_mem_map] at admitted
    exact admitted.1
  · rw [Relation.admits_keyed hkey] at admitted
    exact fun i j hi hj => apart_of_pairwise admitted.2 hi hj

end Bundle

/-- The node has the bundles, which come from the attachments, and the view shows them. -/
structure View.Represents {N : Type} (v : View N) (n : N) (bundles : List (Bundle N))
    (log : List (Attachment N)) : Prop where
  names : (bundles.map (·.relation.name)).Nodup
  regular : ∀ b ∈ bundles, b.Regular
  relations : v.relations n = .ok (bundles.map (·.relation))
  related : ∀ b ∈ bundles, ∃ related, v.related b.relation n = .ok related ∧
    related.pairs = b.rights ∧ related.nodes.length = related.args.length
  order : bundles.map (·.relation) = Relation.firstNamed (log.map (·.relation))
  attached : ∀ b ∈ bundles, b.rights = Attachment.under log b.relation.name

/-- **The invariant of a node**, if its bundles are well-formed and the view reads them. -/
theorem represents_of_wellFormed {N : Type} {v : View N} {n : N} {log : List (Attachment N)}
    (wellFormed : Bundle.WellFormed (Attachment.bundles log))
    (relations : v.relations n = .ok (Bundle.relations (Attachment.bundles log)))
    (related : ∀ b ∈ Attachment.bundles log, v.related b.relation n = .ok ⟨b.rights⟩) :
    v.Represents n (Attachment.bundles log) log where
  names := wellFormed.names
  regular := fun _ hb => wellFormed.regular hb
  relations := relations
  related := fun b hb => by
    refine ⟨_, related b hb, rfl, ?_⟩
    rw [Related.length_nodes, Related.length_args]
  order := by
    rw [Attachment.bundles, List.map_map]
    exact List.map_id _
  attached := by
    intro b hb
    obtain ⟨r, -, rfl⟩ := List.mem_map.1 hb
    rfl

namespace Tree

/-! ## Trees -/

/-- The tree was made and then got these right nodes, in this order. -/
inductive Grown : List (Attachment Tree) → Tree → Prop
  | made (kind : Kind) (attrs : Attrs) : Grown [] (make kind attrs)
  | related {log : List (Attachment Tree)} {relation : Relation} {left right t : Tree}
      {args : Attrs} (before : Grown log left) (result : relate relation left right args = .ok t) :
      Grown (log ++ [⟨relation, right, args⟩]) t
  | finished {log : List (Attachment Tree)} {kind : Kind} {node t : Tree} (before : Grown log node)
      (result : finish kind node = .ok t) : Grown log t

/-- The one tree is a right node of the other. -/
def RightOf (child parent : Tree) : Prop := ∃ b ∈ parent.bundles, ∃ r ∈ b.rights, r.1 = child

theorem Grown.bundles_eq {log : List (Attachment Tree)} {t : Tree} (h : Grown log t) :
    t.bundles = Attachment.bundles log := by
  induction h with
  | made kind attrs => rfl
  | related before result ih =>
    obtain ⟨bundles, attached, rfl⟩ := relate_eq_ok_iff.1 result
    rw [ih] at attached
    exact Attachment.bundles_of_attached attached
  | finished before result ih => rw [(finish_eq_ok_iff.1 result).2, ih]

theorem Obtained.grown {t : Tree} (h : Obtained t) : ∃ log, Grown log t := by
  induction h with
  | returned nodes result ih =>
    rcases returned_cases ih result with
      ⟨kind, attrs, rfl⟩ | ⟨relation, left, right, args, ⟨log, grown⟩, -, heq⟩ |
        ⟨kind, node, ⟨log, grown⟩, heq⟩
    · exact ⟨[], .made kind attrs⟩
    · exact ⟨_, .related grown heq⟩
    · exact ⟨log, .finished grown heq⟩

/-- The right nodes of a tree that can be obtained can be obtained. -/
theorem Obtained.right {t u : Tree} (h : Obtained t) (hu : RightOf u t) : Obtained u := by
  suffices both : ∀ t, Obtained t → Obtained t ∧ ∀ u, RightOf u t → Obtained u from
    (both t h).2 u hu
  intro t h
  induction h with
  | @returned c t nodes result ih =>
    refine ⟨.returned nodes result, ?_⟩
    rcases returned_cases ih result with
      ⟨kind, attrs, rfl⟩ | ⟨relation, left, right, args, hleft, hright, heq⟩ |
        ⟨kind, node, hnode, heq⟩
    · rintro u ⟨b, hb, -⟩
      cases hb
    · obtain ⟨bundles, attached, rfl⟩ := relate_eq_ok_iff.1 heq
      rintro u ⟨b, hb, r, hr, rfl⟩
      rcases attached.mem hb hr with ⟨b', hb', hr'⟩ | rfl
      · exact hleft.2 r.1 ⟨b', hb', r, hr', rfl⟩
      · exact hright.1
    · rw [(finish_eq_ok_iff.1 heq).2]
      exact hnode.2

/-- Whatever is inside a tree that can be obtained can be obtained. -/
theorem Obtained.inside {t u : Tree} (h : Obtained t) (hu : Relation.ReflTransGen RightOf u t) :
    Obtained u := by
  induction hu using Relation.ReflTransGen.head_induction_on with
  | refl => exact h
  | head hstep _ ih => exact ih.right hstep

theorem Obtained.represents {t : Tree} (h : Obtained t) :
    ∃ log, Grown log t ∧ view.Represents t t.bundles log := by
  obtain ⟨log, grown⟩ := h.grown
  have wellFormed := h.sound.wellFormed
  have related := fun b => related_eq (b := b) wellFormed.names
  refine ⟨log, grown, ?_⟩
  rw [grown.bundles_eq] at wellFormed related ⊢
  exact represents_of_wellFormed wellFormed (by rw [← grown.bundles_eq]; rfl) related

end Tree

end TreeProtocol
