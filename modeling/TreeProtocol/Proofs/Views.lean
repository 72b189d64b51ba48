import TreeProtocol.Proofs.Arena.Unfolding

/-!
# What a view shows below a node

A view shows a tree below a node if following its answers from node to node gives the tree. Walks
look at nodes through views only, so what is proved of all nodes that show a tree holds of trees
themselves and of the nodes of arenas alike:

* `View.Reads` — the node answers by its bundles;
* `Tree.shows_self` — a sound tree shows itself;
* `Arena.Unfolds.shows` — a node that unfolds to a sound tree shows it.

Views find the right nodes of a relation by its name, so both rest on distinct names.
-/

namespace TreeProtocol

variable {W N : Type}

/-- Below the node the view shows the tree: it answers with kind, attributes, relations, and for
every relation with right nodes that show the trees in their place. -/
inductive View.Shows (v : View N) : N → Tree → Prop
  | node {n : N} {kind : Kind} {attrs : Attrs} {bundles : List (Bundle N)} (tree : N → Tree)
      (kindOf : v.kind n = .ok kind) (attrsOf : v.attrs n = .ok attrs)
      (relationsOf : v.relations n = .ok (Bundle.relations bundles))
      (relatedOf : ∀ b ∈ bundles, v.related b.relation n = .ok ⟨b.rights⟩)
      (rights : ∀ b ∈ bundles, ∀ r ∈ b.rights, Shows v r.1 (tree r.1)) :
      Shows v n ⟨kind, attrs, bundles.map (Bundle.map tree)⟩

/-- The node answers with the kind and the attributes, and as the bundles say about relations; for a
name that no bundle has, `missing` is the error. -/
structure View.Reads (v : View N) (n : N) (kind : Kind) (attrs : Attrs) (bundles : List (Bundle N))
    (missing : String → BuildError) : Prop where
  kind : v.kind n = .ok kind
  attrs : v.attrs n = .ok attrs
  relations : v.relations n = .ok (Bundle.relations bundles)
  found : ∀ {r : Relation} {b : Bundle N}, Bundle.find? bundles r.name = some b →
    v.related r n = .ok ⟨b.rights⟩
  lacking : ∀ {r : Relation}, Bundle.find? bundles r.name = none →
    v.related r n = .error (missing r.name)

theorem Tree.reads (t : Tree) :
    view.Reads t t.kind t.attrs t.bundles fun name => Fault.treeLacksRelation t.kind name where
  kind := rfl
  attrs := rfl
  relations := rfl
  found := by
    intro r b found
    rw [view]
    dsimp only
    rw [bundle?, found]
  lacking := by
    intro r new
    rw [view]
    dsimp only
    rw [bundle?, new]

theorem Tree.related_eq {t : Tree} (names : (t.bundles.map (·.relation.name)).Nodup)
    {b : Bundle Tree} (hb : b ∈ t.bundles) : view.related b.relation t = .ok ⟨b.rights⟩ :=
  t.reads.found (Bundle.find?_of_mem names hb)

theorem Tree.shows_self {t : Tree} (ht : t.Sound) : view.Shows t t := by
  induction ht with
  | @node t wellFormed rights ih =>
    obtain ⟨kind, attrs, bundles⟩ := t
    have shown : view.Shows ⟨kind, attrs, bundles⟩ ⟨kind, attrs, bundles.map (Bundle.map id)⟩ :=
      .node id rfl rfl rfl (fun b hb => related_eq wellFormed.names hb) ih
    rwa [Bundle.map_id, List.map_id] at shown

namespace Arena

variable {a : Arena} {h : Handle} {slot : Slot}

theorem kind_eq (there : a.slot? h = some slot) : a.view.kind h = .ok slot.kind :=
  congrArg (Except.map _) (slotOf_of_there there)

theorem attrs_eq (there : a.slot? h = some slot) : a.view.attrs h = .ok slot.attrs :=
  congrArg (Except.map _) (slotOf_of_there there)

theorem relations_eq (there : a.slot? h = some slot) :
    a.view.relations h = .ok (Bundle.relations slot.bundles) :=
  congrArg (Except.map _) (slotOf_of_there there)

theorem reads (there : a.slot? h = some slot) :
    a.view.Reads h slot.kind slot.attrs slot.bundles fun name =>
      Fault.unestablishedRelation slot.kind h.index name where
  kind := kind_eq there
  attrs := attrs_eq there
  relations := relations_eq there
  found := by
    intro r b found
    rw [view]
    dsimp only
    rw [slotOf_of_there there]
    dsimp only
    rw [found]
  lacking := by
    intro r new
    rw [view]
    dsimp only
    rw [slotOf_of_there there]
    dsimp only
    rw [new]

theorem related_eq (there : a.slot? h = some slot)
    (names : (slot.bundles.map (·.relation.name)).Nodup) {b : Bundle Handle}
    (hb : b ∈ slot.bundles) : a.view.related b.relation h = .ok ⟨b.rights⟩ :=
  (reads there).found (Bundle.find?_of_mem names hb)

theorem Unfolds.shows {t : Tree} (hu : a.Unfolds h t) (ht : t.Sound) : a.view.Shows h t := by
  induction hu with
  | @node h slot tree there rights ih =>
    have names : (slot.bundles.map (·.relation.name)).Nodup :=
      ((Bundle.wellFormed_map tree).1 ht.wellFormed).names
    refine .node tree (kind_eq there) (attrs_eq there) (relations_eq there)
      (fun b hb => related_eq there names hb) ?_
    intro b hb r hr
    exact ih b hb r hr (ht.right (List.mem_map_of_mem hb) (List.mem_map_of_mem hr))

end Arena

/-! ## Asking an inspector that reads a view -/

namespace Inspector

variable {view : W → View N} {w : W} {n : N}

theorem reading_kind {kind : Kind} (h : (view w).kind n = .ok kind) :
    ((reading view).kind n).Yields w kind :=
  ⟨congrArg Outcome.ofExcept h, rfl⟩

theorem reading_attrs {attrs : Attrs} (h : (view w).attrs n = .ok attrs) :
    ((reading view).attrs n).Yields w attrs :=
  ⟨congrArg Outcome.ofExcept h, rfl⟩

theorem reading_relations {relations : List Relation} (h : (view w).relations n = .ok relations) :
    ((reading view).relations n).Yields w relations :=
  ⟨congrArg Outcome.ofExcept h, rfl⟩

theorem reading_related {relation : Relation} {related : Related N}
    (h : (view w).related relation n = .ok related) :
    ((reading view).related relation n).Yields w related :=
  ⟨congrArg Outcome.ofExcept h, rfl⟩

end Inspector

end TreeProtocol
