import TreeProtocol.Proofs.Views
import TreeProtocol.Walk

/-!
# Walks that go everywhere

A visitor without a gate that descends into all relations of every node brings back a result that
is folded up from the tree that its nodes show. To know the result of the whole walk it is enough to
know what the visitor makes of one node from the results of its right nodes (`node_fold`).
-/

namespace TreeProtocol

open TreeProtocol.Action

variable {L W N R : Type}

/-- What a walk brings back from one relation, where right nodes may be left out. -/
def Findings.ofResults (relation : Relation) (results : List (Option R)) : Findings R :=
  if relation.cardinality.isSequence then .sequence results else .single results.head?.join

/-- What a walk brings back from one relation if no right node is left out. -/
def Findings.ofAll (relation : Relation) (results : List R) : Findings R :=
  if relation.cardinality.isSequence then .sequence (results.map some) else .single results.head?

theorem Findings.ofResults_some (relation : Relation) (results : List R) :
    ofResults relation (results.map some) = ofAll relation results := by
  rw [ofResults, ofAll]
  cases relation.cardinality.isSequence with
  | true => rfl
  | false => cases results <;> rfl

/-- The results are as many as a walk lets a relation have. -/
def Relation.Allows (relation : Relation) (count : Nat) : Prop :=
  relation.cardinality.isSequence = false → count ≤ 1

theorem Relation.allows_of_accepted {relation : Relation} {args : List Attrs}
    (h : relation.acceptAll [] args = .ok ()) : relation.Allows args.length := by
  intro hsingle
  refine acceptAll_single ?_ h
  cases hc : relation.cardinality with
  | one => exact .inl rfl
  | optional => exact .inr rfl
  | many =>
    rw [hc] at hsingle
    cases hsingle
  | keyed key =>
    rw [hc] at hsingle
    cases hsingle

theorem Bundle.WellFormed.allows {bundles : List (Bundle N)} (h : WellFormed bundles) {b : Bundle N}
    (hb : b ∈ bundles) : b.relation.Allows b.rights.length := by
  have := Relation.allows_of_accepted (h.accepted b hb)
  rwa [List.length_map] at this

theorem Findings.values_ofAll {relation : Relation} {results : List R}
    (h : relation.Allows results.length) : (ofAll relation results).values = results := by
  rw [ofAll]
  cases hs : relation.cardinality.isSequence with
  | true => simp [values, List.filterMap_map]
  | false =>
    have hle := h hs
    match results, hle with
    | [], _ => rfl
    | [r], _ => rfl

namespace Walk

variable {step : Step L W N R} {site : Site W N} {w : W}

theorem judge_ungated {visitor : Visitor L W N R} (gate : visitor.gate = none)
    (inspector : Inspector W N) (edge : Option Edge) (n : N) :
    judge visitor inspector edge n = Action.pure (.proceed none) := by
  unfold judge
  rw [gate]

theorem judge_gated {visitor : Visitor L W N R}
    {asked : Inspector W N → Option Edge → N → Action W (Verdict W N)}
    (gate : visitor.gate = some asked) (inspector : Inspector W N) (edge : Option Edge) (n : N) :
    judge visitor inspector edge n = asked inspector edge n := by
  unfold judge
  rw [gate]

/-- **A relation of which every right node has a result**, or is left out. -/
theorem intoRelation_yields_results {relation : Relation} {related : Related N}
    {g : N × Attrs → Option R}
    (answers : (site.inspector.related relation site.node).Yields w related)
    (few : relation.Allows related.size) (label : L)
    (rights : ∀ r ∈ related.pairs,
      (step site.inspector label (some ⟨relation, r.2⟩) r.1).Yields w (g r)) :
    (intoRelation step site label relation).Yields w
      (.ofResults relation (related.pairs.map g)) := by
  refine answers.bind ?_
  rw [Findings.ofResults]
  cases hs : relation.cardinality.isSequence with
  | true => exact (yields_forEach rights).bind (yields_pure _ w)
  | false =>
    have hle := few hs
    rw [Related.size] at hle
    cases hpairs : related.pairs with
    | nil => exact yields_pure _ w
    | cons r more =>
      have hr : r ∈ related.pairs := by rw [hpairs]; exact List.mem_cons_self
      cases more with
      | nil => exact (rights r hr).bind (yields_pure _ w)
      | cons s more =>
        rw [hpairs] at hle
        simp at hle

theorem intoRelation_yields {b : Bundle N} {g : N × Attrs → R}
    (related : (site.inspector.related b.relation site.node).Yields w ⟨b.rights⟩)
    (few : b.relation.Allows b.rights.length) (label : L)
    (rights : ∀ r ∈ b.rights,
      (step site.inspector label (some ⟨b.relation, r.2⟩) r.1).Yields w (some (g r))) :
    (intoRelation step site label b.relation).Yields w
      (.ofAll b.relation (b.rights.map g)) := by
  rw [← Findings.ofResults_some, List.map_map]
  exact intoRelation_yields_results related few label rights

theorem descend_yields {bundles : List (Bundle N)} {g : Relation → N × Attrs → R}
    (relations : site.relations = Bundle.relations bundles)
    (related : ∀ b ∈ bundles,
      (site.inspector.related b.relation site.node).Yields w ⟨b.rights⟩)
    (few : ∀ b ∈ bundles, b.relation.Allows b.rights.length) (label : L)
    (rights : ∀ b ∈ bundles, ∀ r ∈ b.rights,
      (step site.inspector label (some ⟨b.relation, r.2⟩) r.1).Yields w (some (g b.relation r))) :
    (descend step site label none none).Yields w
      (bundles.map fun b => .ofAll b.relation (b.rights.map (g b.relation))) := by
  show (forEach (intoRelation step site label) site.relations).Yields w _
  rw [relations, Bundle.relations, forEach_map]
  refine yields_forEach fun b hb => ?_
  exact intoRelation_yields (related b hb) (few b hb) label (rights b hb)

/-- What `visitor` makes of a node of the view at `w` is `result`, if `result` is what it got for
the right nodes. -/
def Folds (view : W → View N) (w : W) (visitor : Visitor L W N R)
    (result : Option Edge → Tree → R) : Prop :=
  ∀ (site : Site W N) (descent : Descent L W R) (bundles : List (Bundle N)) (tree : N → Tree),
    site.inspector = .reading view → site.relations = Bundle.relations bundles →
    Bundle.WellFormed bundles →
    (∀ b ∈ bundles, (view w).related b.relation site.node = .ok ⟨b.rights⟩) →
    (descent none none).Yields w (bundles.map fun b =>
      .ofAll b.relation (b.rights.map fun r => result (some ⟨b.relation, r.2⟩) (tree r.1))) →
    (visitor.visit site descent).Yields w
      (result site.edge ⟨site.kind, site.attrs, bundles.map (Bundle.map tree)⟩)

/-- **A walk that goes everywhere folds the tree up.** Induction on what the view shows; the limit
of the walk only has to be as high as the tree. -/
theorem node_fold {view : W → View N} {visitor : Visitor L W N R} (gate : visitor.gate = none)
    {result : Option Edge → Tree → R} (folds : Folds view w visitor result) {n : N} {t : Tree}
    (hs : (view w).Shows n t) (ht : t.Sound) {limit : Nat} (hlimit : t.height ≤ limit) (label : L)
    (edge : Option Edge) :
    (node (fun _ => visitor) limit (.reading view) label edge n).Yields w
      (some (result edge t)) := by
  induction hs generalizing limit label edge with
  | @node n kind attrs bundles tree kindOf attrsOf relationsOf relatedOf rights ih =>
    obtain _ | limit := limit
    · have := Tree.height_pos ⟨kind, attrs, bundles.map (Bundle.map tree)⟩
      omega
    · have wellFormed : Bundle.WellFormed bundles :=
        (Bundle.wellFormed_map tree).1 ht.wellFormed
      rw [node, level, arrive, judge_ungated gate]
      refine (yields_pure _ w).bind ?_
      refine Yields.bind
        (a := ⟨edge, n, kind, Bundle.relations bundles, attrs, .reading view⟩) ?_ ?_
      · refine (Inspector.reading_kind kindOf).bind ?_
        refine (Inspector.reading_relations relationsOf).bind ?_
        exact (Inspector.reading_attrs attrsOf).bind (yields_pure _ w)
      · refine Yields.emit_bind _ (Yields.bind ?_ (yields_pure _ w))
        refine folds _ _ bundles tree rfl rfl wellFormed relatedOf ?_
        refine descend_yields (g := fun relation r => result (some ⟨relation, r.2⟩) (tree r.1))
          rfl (fun b hb => Inspector.reading_related (relatedOf b hb))
          (fun b hb => wellFormed.allows hb) label ?_
        intro b hb r hr
        have hb' : b.map tree ∈ bundles.map (Bundle.map tree) := List.mem_map_of_mem hb
        have hr' : (tree r.1, r.2) ∈ (b.map tree).rights := List.mem_map_of_mem hr
        have hlower := Tree.height_lt (t := ⟨kind, attrs, _⟩) hb' hr'
        exact ih b hb r hr (ht.right hb' hr') (by dsimp only at hlower; omega) label _

end Walk

end TreeProtocol
