import TreeProtocol.Proofs.Composites
import TreeProtocol.Proofs.Walks.Complete

/-!
# Walks over what was built

The reporting visitor brings everything back that a walk shows of a node: the way to it, kind,
attributes and relations, and for every relation the reports from below as the walk hands them over.

* `Report.ofTree` — the report of a tree;
* `reporting_folds` — reporting one node, given the reports of its right nodes;
* `reports_normal` — what was built from a description is reported as its normal form.
-/

namespace TreeProtocol

open TreeProtocol.Action

variable {L W N : Type}

/-- Everything that a walk shows of a node. -/
structure Report where
  edge : Option Edge
  kind : Kind
  attrs : Attrs
  relations : List Relation
  findings : List (Findings Report)

/-- The visitor that reports every node. -/
def Visitor.reporting : Visitor L W N Report where
  visit site descent := do
    let findings ← descent none none
    Action.pure ⟨site.edge, site.kind, site.attrs, site.relations, findings⟩

namespace Report

mutual

/-- The report of a tree that is reached by an edge. -/
def ofTree : Option Edge → Tree → Report
  | edge, ⟨kind, attrs, bundles⟩ =>
    ⟨edge, kind, attrs, Bundle.relations bundles, ofBundles bundles⟩

/-- The reports from below, relation by relation: a single one where the relation is for at most one
right node, else the sequence of them, none of which is left out. -/
def ofBundles : List (Bundle Tree) → List (Findings Report)
  | [] => []
  | ⟨relation, rights⟩ :: more => .ofAll relation (ofRights relation rights) :: ofBundles more

/-- The reports of the right nodes of a relation. -/
def ofRights : Relation → List (Tree × Attrs) → List Report
  | _, [] => []
  | relation, (t, args) :: more => ofTree (some ⟨relation, args⟩) t :: ofRights relation more

end

theorem ofRights_eq_map (relation : Relation) (rights : List (Tree × Attrs)) :
    ofRights relation rights = rights.map fun r => ofTree (some ⟨relation, r.2⟩) r.1 := by
  induction rights with
  | nil => rfl
  | cons r more ih => rw [ofRights, ih, List.map_cons]

theorem ofBundles_eq_map (bundles : List (Bundle Tree)) :
    ofBundles bundles = bundles.map fun b =>
      .ofAll b.relation (b.rights.map fun r => ofTree (some ⟨b.relation, r.2⟩) r.1) := by
  induction bundles with
  | nil => rfl
  | cons b more ih => rw [ofBundles, ih, ofRights_eq_map, List.map_cons]

end Report

theorem reporting_folds (view : W → View N) (w : W) :
    Walk.Folds view w (Visitor.reporting : Visitor L W N Report) Report.ofTree := by
  intro site descent bundles tree inspector relations wellFormed related findings
  have all : Report.ofBundles (bundles.map (Bundle.map tree)) = bundles.map fun b =>
      .ofAll b.relation
        (b.rights.map fun r => Report.ofTree (some ⟨b.relation, r.2⟩) (tree r.1)) := by
    rw [Report.ofBundles_eq_map, List.map_map]
    refine List.map_congr_left fun b _ => ?_
    rw [Function.comp_apply, Bundle.map_rights, List.map_map]
    rfl
  rw [Report.ofTree, Bundle.relations_map, all, ← relations]
  exact findings.bind (yields_pure _ w)

/-- A walk that reports what a view shows. -/
theorem report_shown (view : W → View N) {w : W} {n : N} {t : Tree} (hs : (view w).Shows n t)
    (ht : t.Sound) {limit : Nat} (hlimit : t.height ≤ limit) (label : L) :
    (walk (fun _ => Visitor.reporting) limit (.reading view) label n).Yields w
      (some (.ofTree none t)) :=
  Walk.node_fold rfl (reporting_folds view w) hs ht hlimit label none

/-- **What was built from a description is reported as its normal form**, by a walk over trees as
well as by a walk over the arena in which it was built, whatever there was in it before. -/
theorem reports_normal (d : Tree) :
    (∀ (V : Type) (v : V) (t : Tree), (Tree.builder.build d v).outcome = .done t →
      ∀ (L W : Type) (label : L) (w : W) (limit : Nat), d.normal.height ≤ limit →
        (walk (fun _ => Visitor.reporting) limit Tree.inspector label t).Yields w
          (some (.ofTree none d.normal))) ∧
    ∀ (W : Type) (place : Lens W Arena) (w : W) (h : Handle),
      ((Arena.builder place).build d w).outcome = .done h →
      ∀ (L : Type) (label : L) (limit : Nat), d.normal.height ≤ limit →
        (walk (fun _ => Visitor.reporting) limit (Arena.inspector place) label h).Yields
          ((Arena.builder place).build d w).state (some (.ofTree none d.normal)) := by
  constructor
  · intro V v t done L W label w limit hlimit
    obtain ⟨rfl, hsound⟩ := Tree.represents.build d done
    exact report_shown (fun _ => Tree.view) (Tree.shows_self hsound) hsound hlimit label
  · intro W place w h done L label limit hlimit
    obtain ⟨added, hsound⟩ := (Arena.represents place).build d done
    exact report_shown (fun w => (place.get w).view) (added.holds.unfolds.shows hsound) hsound
      hlimit label

/-- A record whose items are described in two places, with an empty relation between them. -/
def scatteredRecord : Tree :=
  ⟨"record", ∅,
    [⟨⟨"items", .many⟩, [(Tree.make "literal" ∅, ∅)]⟩, ⟨⟨"doc", .optional⟩, []⟩,
      ⟨⟨"first", .one⟩, [(⟨"pair", ∅, [⟨⟨"items", .many⟩, [(Tree.make "a" ∅, ∅)]⟩]⟩, ∅)]⟩,
      ⟨⟨"items", .many⟩, [(Tree.make "b" ∅, ∅), (Tree.make "c" ∅, ∅)]⟩]⟩

theorem reports_normal_scatteredRecord :
    Bundle.relations scatteredRecord.normal.bundles = [⟨"items", .many⟩, ⟨"first", .one⟩] ∧
    (Tree.builder.build scatteredRecord ()).outcome = .done scatteredRecord.normal ∧
      (walk (fun _ => Visitor.reporting) 3 Tree.inspector () scatteredRecord.normal).Yields ()
        (some (.ofTree none scatteredRecord.normal)) ∧
    ((Arena.builder Lens.whole).build scatteredRecord { slots := [default] }).outcome =
        .done ⟨1⟩ ∧
      (walk (fun _ => Visitor.reporting) 3 (Arena.inspector Lens.whole) () ⟨1⟩).Yields
        ((Arena.builder Lens.whole).build scatteredRecord { slots := [default] }).state
        (some (.ofTree none scatteredRecord.normal)) := by
  have tree : (Tree.builder.build scatteredRecord ()).outcome = .done scatteredRecord.normal := rfl
  have node : ((Arena.builder Lens.whole).build scatteredRecord { slots := [default] }).outcome =
      .done ⟨1⟩ := rfl
  have height : scatteredRecord.normal.height ≤ 3 := by decide
  obtain ⟨overTrees, overArena⟩ := reports_normal scatteredRecord
  exact ⟨rfl, tree, overTrees Unit () _ tree Unit Unit () () 3 height, node,
    overArena Arena Lens.whole _ ⟨1⟩ node Unit () 3 height⟩

end TreeProtocol
