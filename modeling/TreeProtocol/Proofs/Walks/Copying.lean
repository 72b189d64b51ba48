import TreeProtocol.Proofs.Arena.Unfolding
import TreeProtocol.Proofs.Walks.Complete

/-!
# Copying by a walk

A visitor copies what it visits to a builder: it descends into all relations, makes a node with the
kind and the attributes of the site, relates the results from below to it as the inspector pairs
them with relation attributes, and finishes it.

That the builder of trees accepts all this again rests on the representation invariant: whatever
the bundles of a sound tree hold was accepted once, in the same order.

* `attach_withLast` — refilling the last bundle, from the first right node on;
* `copying_folds` — the copy of one node, given the copies of its right nodes;
* `copy_identical` — the copy of a tree is the tree, and the copy of a node of an arena is the tree
  that it unfolds to.
-/

namespace TreeProtocol

open TreeProtocol.Action

variable {L W N M : Type}

/-- Relates what was found for a relation of a site, with the attributes that the inspector reports
at the same positions. -/
def Builder.relateFound (target : Builder W M) (site : Site W N) (node : M)
    (found : Relation × Findings M) : Action W M := do
  let related ← site.inspector.related found.1 site.node
  (found.2.values.zip related.args).foldlM
    (fun node right => target.relate found.1 node right.1 right.2) node

/-- The visitor that copies every node to a builder. -/
def Visitor.copying (target : Builder W M) : Visitor L W N M where
  visit site descent := do
    let findings ← descent none none
    let node ← target.make site.kind site.attrs
    let node ← (site.relations.zip findings).foldlM (target.relateFound site) node
    target.finish site.kind node

/-! ## Refilling bundles -/

namespace Bundle

variable {relation : Relation}

/-- The bundles with one more behind them, if there is something to put into it. -/
def withLast (done : List (Bundle N)) (relation : Relation) (rights : List (N × Attrs)) :
    List (Bundle N) :=
  if rights = [] then done else done ++ [⟨relation, rights⟩]

theorem withLast_nil (done : List (Bundle N)) (relation : Relation) :
    withLast done relation [] = done := if_pos rfl

theorem withLast_of_ne {rights : List (N × Attrs)} (h : rights ≠ []) (done : List (Bundle N))
    (relation : Relation) : withLast done relation rights = done ++ [⟨relation, rights⟩] :=
  if_neg h

theorem attach_withLast {done : List (Bundle N)} {rights : List (N × Attrs)} {right : N × Attrs}
    (others : ∀ b ∈ done, b.relation.name ≠ relation.name)
    (accepted : relation.accept (rights.map (·.2)) right.2 = .ok ()) (span : Option Span) :
    attach relation right.1 right.2 span (withLast done relation rights) =
      .ok (withLast done relation (rights ++ [right])) := by
  refine Attached.attach_eq ?_
  rw [withLast_of_ne (List.append_ne_nil_of_right_ne_nil _ (List.cons_ne_nil _ _))]
  by_cases hrights : rights = []
  · rw [hrights, withLast_nil]
    rw [hrights] at accepted
    exact .started others accepted
  · rw [withLast_of_ne hrights]
    have joined : Attached relation right.1 right.2 (done ++ ⟨relation, rights⟩ :: [])
        (done ++ ⟨relation, rights ++ [right]⟩ :: []) := .joined others accepted
    exact joined

end Bundle

/-! ## The copy of one node -/

namespace Tree

variable {w : W}

theorem relate_yields {relation : Relation} {left right t : Tree} {args : Attrs}
    (h : relate relation left right args = .ok t) :
    ((builder (W := W)).relate relation left right args).Yields w t :=
  ⟨congrArg Outcome.ofExcept h, rfl⟩

/-- Right nodes that were accepted behind others are all related again. -/
theorem relateAll_yields {relation : Relation} {done : List (Bundle Tree)}
    (others : ∀ b ∈ done, b.relation.name ≠ relation.name) (kind : Kind) (attrs : Attrs)
    (before : List (Tree × Attrs)) {rest : List (Tree × Attrs)}
    (accepted : relation.acceptAll (before.map (·.2)) (rest.map (·.2)) = .ok ()) :
    (rest.foldlM (fun node right => (builder (W := W)).relate relation node right.1 right.2)
      ⟨kind, attrs, Bundle.withLast done relation before⟩).Yields w
        ⟨kind, attrs, Bundle.withLast done relation (before ++ rest)⟩ := by
  induction rest generalizing before with
  | nil =>
    rw [List.append_nil]
    exact yields_pure _ w
  | cons right more ih =>
    rw [List.map_cons, Relation.acceptAll_cons] at accepted
    rw [List.foldlM_cons]
    refine (relate_yields (t := ⟨kind, attrs, Bundle.withLast done relation (before ++ [right])⟩)
      ?_).bind ?_
    · rw [relate]
      dsimp only
      rw [Bundle.attach_withLast others accepted.1]
    · have hmore :
          relation.acceptAll ((before ++ [right]).map (·.2)) (more.map (·.2)) = .ok () := by
        rw [List.map_append]
        exact accepted.2
      have := ih (before ++ [right]) hmore
      rwa [List.append_assoc] at this

variable {view : W → View N} {site : Site W N}

theorem relateFound_yields {b : Bundle N} {tree : N → Tree} {done : List (Bundle Tree)}
    (related : (site.inspector.related b.relation site.node).Yields w ⟨b.rights⟩)
    (others : ∀ c ∈ done, c.relation.name ≠ b.relation.name) (filled : b.rights ≠ [])
    (accepted : b.relation.acceptAll [] (b.rights.map (·.2)) = .ok ())
    (kind : Kind) (attrs : Attrs) :
    ((builder (W := W)).relateFound site ⟨kind, attrs, done⟩
      (b.relation, .ofAll b.relation (b.rights.map fun r => tree r.1))).Yields w
        ⟨kind, attrs, done ++ [b.map tree]⟩ := by
  have few : b.relation.Allows (b.rights.map fun r => tree r.1).length := by
    have := Relation.allows_of_accepted accepted
    rwa [List.length_map] at this ⊢
  have pairs : (b.rights.map fun r => tree r.1).zip (Related.args ⟨b.rights⟩) =
      (b.map tree).rights := List.zip_map' ..
  have accepted' : b.relation.acceptAll [] ((b.map tree).rights.map (·.2)) = .ok () := by
    rw [Bundle.map_args]
    exact accepted
  have all := relateAll_yields (w := w) others kind attrs [] accepted'
  rw [Bundle.withLast_nil, List.nil_append, Bundle.withLast_of_ne (by simpa using filled)] at all
  refine related.bind ?_
  dsimp only
  rw [Findings.values_ofAll few, pairs]
  exact all

/-- Copying the bundles of a node one after the other; those in `done` are copied already. -/
theorem relateAllFound_yields {bundles : List (Bundle N)} {tree : N → Tree}
    (related : ∀ b ∈ bundles, (site.inspector.related b.relation site.node).Yields w ⟨b.rights⟩)
    (done : List (Bundle Tree))
    (wellFormed : Bundle.WellFormed (done ++ bundles.map (Bundle.map tree)))
    (kind : Kind) (attrs : Attrs) :
    ((bundles.map fun b => (b.relation,
      Findings.ofAll b.relation (b.rights.map fun r => tree r.1))).foldlM
        ((builder (W := W)).relateFound site) ⟨kind, attrs, done⟩).Yields w
          ⟨kind, attrs, done ++ bundles.map (Bundle.map tree)⟩ := by
  induction bundles generalizing done with
  | nil =>
    rw [List.map_nil, List.map_nil, List.append_nil]
    exact yields_pure _ w
  | cons b more ih =>
    obtain ⟨hrelated, hmore⟩ := List.forall_mem_cons.1 related
    have hb : b.map tree ∈ done ++ (b :: more).map (Bundle.map tree) :=
      List.mem_append_right _ List.mem_cons_self
    have others : ∀ c ∈ done, c.relation.name ≠ b.relation.name := by
      have names := wellFormed.names
      rw [List.map_append, List.nodup_append] at names
      intro c hc
      exact names.2.2 _ (List.mem_map_of_mem hc) _ List.mem_cons_self
    have filled : b.rights ≠ [] := by simpa using wellFormed.filled _ hb
    have accepted : b.relation.acceptAll [] (b.rights.map (·.2)) = .ok () := by
      rw [← Bundle.map_args tree]
      exact wellFormed.accepted _ hb
    have split : done ++ (b :: more).map (Bundle.map tree) =
        (done ++ [b.map tree]) ++ more.map (Bundle.map tree) := by simp
    rw [split] at wellFormed ⊢
    rw [List.map_cons, List.foldlM_cons]
    exact (relateFound_yields hrelated others filled accepted kind attrs).bind
      (ih hmore _ wellFormed)

end Tree

/-- **The copy of one node**, if its right nodes are copied to what they show. -/
theorem copying_folds (view : W → View N) (w : W) :
    Walk.Folds view w (Visitor.copying Tree.builder : Visitor L W N Tree) fun _ t => t := by
  intro site descent bundles tree inspector relations wellFormed related findings
  refine findings.bind ?_
  refine (yields_pure (Tree.make site.kind site.attrs) w).bind ?_
  refine Yields.bind (a := ⟨site.kind, site.attrs, bundles.map (Bundle.map tree)⟩) ?_ ?_
  · rw [relations, Bundle.relations, List.zip_map']
    refine Tree.relateAllFound_yields ?_ [] ?_ site.kind site.attrs
    · intro b hb
      rw [inspector]
      exact Inspector.reading_related (related b hb)
    · exact (Bundle.wellFormed_map tree).2 wellFormed
  · exact ⟨congrArg Outcome.ofExcept (if_pos rfl), rfl⟩

/-- A walk that copies what a view shows. -/
theorem copy_shown (view : W → View N) {w : W} {n : N} {t : Tree} (hs : (view w).Shows n t)
    (ht : t.Sound) {limit : Nat} (hlimit : t.height ≤ limit) (label : L) :
    (walk (fun _ => Visitor.copying Tree.builder) limit (.reading view) label n).Yields w
      (some t) :=
  Walk.node_fold rfl (copying_folds view w) hs ht hlimit label none

/-- **Copies are identical.** The copying visitor never fails and brings back every tree that can be
obtained, and below every acyclic node of an arena the tree that the node unfolds to. -/
theorem copy_identical :
    (∀ t : Tree, t.Obtained → ∀ (L W : Type) (label : L) (w : W) (limit : Nat), t.height ≤ limit →
      (walk (fun _ => Visitor.copying Tree.builder) limit Tree.inspector label t).Yields w
        (some t)) ∧
    ∀ (schema : Option Schema) (calls : List (Call Handle)) (root : Handle),
      root.index < (Arena.reached schema calls).size →
      (Arena.reached schema calls).AcyclicBelow root →
      ∃ t, (Arena.reached schema calls).Unfolds root t ∧
        ∀ (L W : Type) (place : Lens W Arena) (label : L) (w : W) (limit : Nat),
          place.get w = Arena.reached schema calls → t.height ≤ limit →
          (walk (fun _ => Visitor.copying Tree.builder) limit (Arena.inspector place) label
            root).Yields w (some t) := by
  constructor
  · intro t ht L W label w limit hlimit
    exact copy_shown (fun _ => Tree.view) (Tree.shows_self ht.sound) ht.sound hlimit label
  · intro schema calls root there acyclic
    obtain ⟨t, ht⟩ :=
      (Arena.exists_unfolds_iff (Arena.reached_closed schema calls)).2 ⟨there, acyclic⟩
    have hsound := ht.sound (Arena.reached_wellFormed schema calls)
    refine ⟨t, ht, fun L W place label w limit hplace hlimit => ?_⟩
    refine copy_shown (fun w => (place.get w).view) ?_ hsound hlimit label
    rw [hplace]
    exact ht.shows hsound

/-- The part of the pair that was related first. -/
def startedPair : Tree :=
  ⟨"pair", ∅, [⟨⟨"items", .many⟩, [(Tree.make "literal" ∅, ∅)]⟩]⟩

theorem copy_identical_pair :
    (startedPair.Obtained ∧
      (walk (fun _ : Unit => Visitor.copying Tree.builder) 2 Tree.inspector () startedPair).Yields
        () (some startedPair)) ∧
    (Arena.reached none Arena.pairCalls).AcyclicBelow ⟨1⟩ ∧
      ∃ t, (Arena.reached none Arena.pairCalls).Unfolds ⟨1⟩ t ∧
        (walk (fun _ : Unit => Visitor.copying Tree.builder) t.height (Arena.inspector Lens.whole)
          () ⟨1⟩).Yields (Arena.reached none Arena.pairCalls) (some t) := by
  have related : Tree.relate ⟨"items", .many⟩ (Tree.make "pair" ∅) (Tree.make "literal" ∅) ∅ =
      .ok startedPair := rfl
  have obtained : startedPair.Obtained :=
    (Tree.obtained_make "pair" ∅).relate (Tree.obtained_make "literal" ∅) related
  obtain ⟨t, ht, copied⟩ :=
    copy_identical.2 none Arena.pairCalls ⟨1⟩ (by decide) Arena.acyclicBelow_pair
  exact ⟨⟨obtained, copy_identical.1 startedPair obtained Unit Unit () () 2 (by decide)⟩,
    Arena.acyclicBelow_pair, t, ht,
    copied Unit Arena Lens.whole () _ t.height rfl (Nat.le_refl _)⟩

end TreeProtocol
