import TreeProtocol.Proofs.Arena.Producers
import TreeProtocol.Proofs.Walks.Agents
import TreeProtocol.Proofs.Walks.Reporting

/-!
# How deep walks go

A walk has no guard against circles: it ends because what it goes down ends. Below a node that
unfolds to a tree, no walk of agents goes deeper than the tree is high: whatever there would be
further down, the walk does the same (`iterate_level_alike`).

Together with `Arena.reached_grounded` this bounds all walks over arenas in which only finished
nodes were attached by the number of nodes (`walks_end`).
-/

namespace TreeProtocol

open TreeProtocol.Action

namespace Walk

variable {L W N R V : Type}

/-- A walk is as many levels as its limit says, above a limit that is used up. -/
theorem node_add (visitors : L → Visitor L W N R) (depth limit : Nat) :
    node visitors (depth + limit) = (level visitors)^[depth] (node visitors limit) := by
  induction depth with
  | zero => rw [Nat.zero_add, Function.iterate_zero, id]
  | succ depth ih => rw [Nat.succ_add, node, ih, Function.iterate_succ_apply']

/-- **Below the tree of a node a walk does not go.** Induction on how the node unfolds. -/
theorem iterate_level_alike {a : Arena}
    (wellFormed : ∀ slot ∈ a.slots, Bundle.WellFormed slot.bundles)
    (agents : L → Agent L Arena V Handle R) (below below' : Step L (Arena × V) Handle R)
    {h : Handle} {t : Tree} (hu : a.Unfolds h t) {depth : Nat} (high : t.height ≤ depth) (label : L)
    (edge : Option Edge) :
    Alike a
      ((level (Agent.visitors agents))^[depth] below (Arena.inspector Lens.fst) label edge h)
      ((level (Agent.visitors agents))^[depth] below' (Arena.inspector Lens.fst) label edge h) := by
  induction hu generalizing depth label edge with
  | @node h slot tree there rights ih =>
    obtain _ | depth := depth
    · have := Tree.height_pos (slot.toTree tree)
      omega
    · have names := (wellFormed slot (List.mem_of_getElem? there)).names
      rw [Function.iterate_succ_apply', Function.iterate_succ_apply', level_eq, level_eq]
      refine ((agents label).letsIn_alike edge h).bind fun pass => ?_
      cases pass with
      | false => exact (alike_of_still fun _ => rfl).bind fun _ => alike_pure _
      | true =>
        rw [if_pos rfl, if_pos rfl, enter, enter]
        have surveyed : Answers (V := V) a (survey (Arena.inspector Lens.fst) edge h)
            ⟨edge, h, slot.kind, Bundle.relations slot.bundles, slot.attrs,
              Arena.inspector Lens.fst⟩ :=
          survey_answers (fun _ => rfl) edge (Arena.kind_eq there) (Arena.attrs_eq there)
            (Arena.relations_eq there)
        refine Alike.answered surveyed surveyed ?_
        refine (alike_of_still fun _ => rfl).bind fun _ => Alike.bind ?_ fun _ => alike_pure _
        refine Course.run_alike _ fun names' other => ?_
        have related : ∀ b ∈ slot.bundles, Answers (V := V) a
            ((Arena.inspector Lens.fst).related b.relation h) ⟨b.rights⟩ := fun b hb =>
          answers_read fun _ => Arena.related_eq there names hb
        refine descend_alike id rfl rfl related ?_ label ?_ names' other
        · intro b hb
          rw [Bundle.map_id, id]
          exact related b hb
        · intro b hb r hr label edge
          have hb' : b.map tree ∈ (slot.toTree tree).bundles := List.mem_map_of_mem hb
          have hr' : (tree r.1, r.2) ∈ (b.map tree).rights := List.mem_map_of_mem hr
          have hlower := Tree.height_lt hb' hr'
          exact ih b hb r hr (by dsimp only at hlower; omega) label edge

end Walk

namespace Arena

/-- No walk of agents from the node nests more than `depth` visits: with that many levels it does
the same whatever there would be below them, a crash included, and a higher limit changes
nothing. -/
def WalkedWithin (a : Arena) (depth : Nat) (root : Handle) : Prop :=
  ∀ (L V R : Type) (agents : L → Agent L Arena V Handle R) (label : L) (v : V),
    (∀ below : Walk.Step L (Arena × V) Handle R,
      (Walk.level (Agent.visitors agents))^[depth] below (inspector Lens.fst) label none root
          (a, v) =
        walk (Agent.visitors agents) depth (inspector Lens.fst) label root (a, v)) ∧
    ∀ limit, depth ≤ limit →
      walk (Agent.visitors agents) limit (inspector Lens.fst) label root (a, v) =
        walk (Agent.visitors agents) depth (inspector Lens.fst) label root (a, v)

theorem Unfolds.walkedWithin {a : Arena}
    (wellFormed : ∀ slot ∈ a.slots, Bundle.WellFormed slot.bundles) {root : Handle} {t : Tree}
    (hu : a.Unfolds root t) {depth : Nat} (high : t.height ≤ depth) :
    a.WalkedWithin depth root := by
  intro L V R agents label v
  have all : walk (Agent.visitors agents) depth (inspector Lens.fst) label root (a, v) =
      (Walk.level (Agent.visitors agents))^[depth] (Walk.node (Agent.visitors agents) 0)
        (inspector Lens.fst) label none root (a, v) := by
    rw [walk, ← Walk.node_add]
    rfl
  have same := fun below => (Walk.iterate_level_alike wellFormed agents below
    (Walk.node (Agent.visitors agents) 0) hu high label none v).1
  refine ⟨fun below => (same below).trans all.symm, fun limit hle => ?_⟩
  rw [all, ← same (Walk.node (Agent.visitors agents) (limit - depth)), ← Walk.node_add,
    Nat.add_sub_cancel' hle, walk]

end Arena

/-- **Walks end if only finished nodes are attached.** In every state of a run in which each right
node was finished when it was attached, whatever sessions there were, no node leads back to itself,
each node unfolds to a tree that is no higher than there are nodes, and no walk from it nests
deeper; so the walk that goes into all relations brings the whole tree back. To make nodes in one
go, with right nodes from producers of finished nodes, is such a producer. -/
theorem walks_end :
    (∀ (schema : Option Schema) (calls : List (Call Handle)),
      Arena.RightsFinished calls { schema } → ∀ n,
      (∀ h, ¬ Relation.TransGen (Arena.reached schema (calls.take n)).RightOf h h) ∧
      ∀ root : Handle, root.index < (Arena.reached schema (calls.take n)).size →
        (Arena.reached schema (calls.take n)).WalkedWithin
          (Arena.reached schema (calls.take n)).size root ∧
        ∃ t, (Arena.reached schema (calls.take n)).Unfolds root t ∧
          t.height ≤ (Arena.reached schema (calls.take n)).size ∧
          ∀ (L : Type) (label : L),
            (walk (fun _ => Visitor.reporting) (Arena.reached schema (calls.take n)).size
              (Arena.inspector Lens.whole) label root).Yields
              (Arena.reached schema (calls.take n)) (some (.ofTree none t))) ∧
    ∀ (W : Type) (place : Lens W Arena) (K : W → Prop), Arena.KeptByCalls place K →
      ∀ (kind : Kind) (attrs : Attrs),
        Arena.Producer place K ((Arena.builder place).leaf kind attrs) ∧
        ∀ plans : List (RelationPlan W Handle),
          (∀ p ∈ plans, ∀ r ∈ p.rights, Arena.Producer place K r.produce) →
          Arena.Producer place K ((Arena.builder place).composite kind attrs plans) := by
  constructor
  · intro schema calls finished n
    have grounded := Arena.reached_grounded (finished.take n)
    have wellFormed := Arena.reached_wellFormed schema (calls.take n)
    refine ⟨grounded.acyclic, fun root there => ?_⟩
    obtain ⟨slot, hslot⟩ := Arena.slot?_of_lt there
    obtain ⟨t, held⟩ := grounded.holds hslot
    have high := held.unfolds.height_le
    refine ⟨held.unfolds.walkedWithin wellFormed high, t, held.unfolds, high, fun L label => ?_⟩
    have sound := held.unfolds.sound wellFormed
    exact report_shown Arena.view (held.unfolds.shows sound) sound high label
  · intro W place K hK kind attrs
    exact ⟨Arena.producer_leaf hK kind attrs, fun plans h =>
      Arena.producer_composite hK kind attrs h⟩

/-- A list that was finished in a session that was aborted, and then given another item. -/
def reopenedCalls : List (Call Handle) :=
  [.make "item" ∅, .finish "item" ⟨0⟩, .make "list" ∅, .prepare,
    .relate ⟨"items", .many⟩ ⟨1⟩ ⟨0⟩ ∅, .finish "list" ⟨1⟩, .close .aborted,
    .relate ⟨"items", .many⟩ ⟨1⟩ ⟨0⟩ ∅, .relate ⟨"items", .many⟩ ⟨1⟩ ⟨0⟩ ∅, .finish "list" ⟨1⟩]

theorem walks_end_reopened :
    Arena.RightsFinished reopenedCalls { schema := none } ∧
    (Arena.reached none reopenedCalls).size = 2 ∧
    (∀ h, ¬ Relation.TransGen (Arena.reached none reopenedCalls).RightOf h h) ∧
    (Arena.reached none reopenedCalls).WalkedWithin 2 ⟨1⟩ ∧
    Arena.Producer Lens.whole (fun a => a.isFinished ⟨0⟩ = true)
      ((Arena.builder Lens.whole).composite "list" ∅
        [.many "items"
          [.existing ⟨0⟩, { produce := (Arena.builder Lens.whole).leaf "item" ∅ }]]) := by
  have finished : Arena.RightsFinished reopenedCalls { schema := none } :=
    ⟨trivial, trivial, trivial, trivial, rfl, trivial, trivial, rfl, rfl, trivial, trivial⟩
  obtain ⟨runs, programs⟩ := walks_end
  obtain ⟨acyclic, walks⟩ := runs none reopenedCalls finished 10
  have kept := Arena.keptByCalls_isFinished Lens.whole ⟨0⟩
  refine ⟨finished, rfl, acyclic, (walks ⟨1⟩ (by decide)).1, ?_⟩
  refine (programs Arena Lens.whole _ kept "list" ∅).2 _ ?_
  intro p hp r hr
  rw [List.mem_singleton.1 hp] at hr
  rcases List.mem_cons.1 hr with rfl | hr
  · exact Arena.producer_existing Lens.whole ⟨0⟩
  · rw [List.mem_singleton.1 hr]
    exact (programs Arena Lens.whole _ kept "item" ∅).1

end TreeProtocol
