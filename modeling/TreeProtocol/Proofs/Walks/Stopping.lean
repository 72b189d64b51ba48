import TreeProtocol.Proofs.Walks.Cuts
import TreeProtocol.Proofs.Walks.Settling

/-!
# The first failure ends a walk

A visitor that does its visits in stages may fail at any of its turns. Beside the walk of the same
visitor without its failures, its own walk is a prefix of turns that ends with the first one that
fails.

* `Stages.Ends` — below a node the walk comes to an end, whatever the gate and the inspector answer;
* `ends_settles` — then the walk of a visitor that never fails settles;
* `Inspector.Finite`, `ends_of_finite` — it does if the inspector unfolds a node finitely and the
  gate puts nothing else in its place;
* `first_failure_ends` — where and with what the walk ends.
-/

namespace TreeProtocol

open TreeProtocol.Action

variable {L V N A R : Type}

/-! ## Where walks end -/

/-- The inspector answers, and with no more right nodes than a walk lets the relation have. -/
structure Site.Reports (site : Site V N) (relation : Relation) : Prop where
  answers : (site.inspector.related relation site.node).Total
  few : ∀ related, (site.inspector.related relation site.node).May related →
    relation.Allows related.size

namespace Stages

/-- A walk that comes to the node may have the site visited. -/
inductive Reaches (s : Stages V N A R) (i : Inspector V N) (edge : Option Edge) (here : N) :
    Site V N → Prop
  | entered {other : Option (Inspector V N)} {kind : Kind} {relations : List Relation}
      {attrs : Attrs} (rules : s.Rules i edge here (.proceed other))
      (mayKind : ((other.getD i).kind here).May kind)
      (mayRelations : ((other.getD i).relations here).May relations)
      (mayAttrs : ((other.getD i).attrs here).May attrs) :
      Reaches s i edge here ⟨edge, here, kind, relations, attrs, other.getD i⟩
  | replaced {node : N} {kind : Kind} {attrs : Attrs} {relations : List Relation}
      {other : Option (Inspector V N)}
      (rules : s.Rules i edge here (.replace node kind attrs relations other)) :
      Reaches s i edge here ⟨edge, node, kind, relations, attrs, other.getD i⟩

/-- Whatever the gate rules and the inspectors answer, every question of a walk that comes to the
node is answered, and there is no way down from it that does not end. -/
inductive Ends (s : Stages V N A R) : Inspector V N → Option Edge → N → Prop
  | node {i : Inspector V N} {edge : Option Edge} {here : N}
      (surveyed : ∀ other, s.Rules i edge here (.proceed other) →
        Walk.Surveyed (other.getD i) here)
      (reports : ∀ site, s.Reaches i edge here site → ∀ relation ∈ site.relations,
        site.Reports relation)
      (below : ∀ site, s.Reaches i edge here site → ∀ relation ∈ site.relations,
        ∀ related, (site.inspector.related relation site.node).May related →
          ∀ r ∈ related.pairs, Ends s site.inspector (some ⟨relation, r.2⟩) r.1) :
      Ends s i edge here

/-- The visitor is never at a loss. -/
structure Total (s : Stages V N A R) : Prop where
  gate : ∀ gate ∈ s.gate, ∀ i edge here, (gate i edge here).Total
  before : ∀ site, (s.before site).Total
  after : ∀ site first findings, (s.after site first findings).Total

theorem Completes.total {full s : Stages V N A R} (h : full.Completes s) : full.Total where
  gate := by
    intro gate hgate i edge here v
    have gates := h.gate
    rw [Option.mem_def.1 hgate] at gates
    generalize s.gate = gate' at gates
    cases gates with
    | some completes => exact (completes i edge here v).1
  before := fun site v => (h.before site v).1
  after := fun site first findings v => (h.after site first findings v).1

theorem ends_settles {s : Stages V N A R} (total : s.Total) {i : Inspector V N}
    {edge : Option Edge} {here : N} (h : s.Ends i edge here) (label : L) :
    Settles (fun _ _ => True) fun limit =>
      Walk.node (fun _ : L => s.turned.visitor) limit i.turned label edge here := by
  induction h with
  | @node i edge here surveyed reports below ih =>
    have visits : ∀ site, s.Reaches i edge here site →
        Settles (fun _ _ => True) fun limit => Walk.visitSite (fun _ : L => s.turned.visitor)
          (Walk.node (fun _ => s.turned.visitor) limit) label site.turned := by
      intro site reached
      have into : ∀ relation ∈ site.relations, Settles (fun _ _ => True) fun limit =>
          Walk.intoRelation (Walk.node (fun _ : L => s.turned.visitor) limit) site.turned label
            relation := by
        intro relation hrelation
        obtain ⟨answers, few⟩ := reports site reached relation hrelation
        exact (Walk.intoRelation_settles answers few fun related may r hr =>
          ih site reached relation hrelation related may r hr).imp fun _ _ _ => trivial
      exact (Walk.visitSite_settles (total.before site) (Walk.descend_settles into)
        (total.after site)).imp fun _ _ _ => trivial
    refine Walk.node_settles (fun gate hgate => total.gate gate hgate i edge here)
      (fun _ => trivial) ?_ ?_
    · intro other rules
      exact ⟨surveyed other rules, fun kind relations attrs mayKind mayRelations mayAttrs =>
        visits _ (.entered rules mayKind mayRelations mayAttrs)⟩
    · exact fun node kind attrs relations other rules => visits _ (.replaced rules)

end Stages

/-- The inspector does not fail about the node and what it reports below it, reports at most one
right node for a relation that is for one, and there is no way down that does not end. -/
inductive Inspector.Finite (i : Inspector V N) : N → Prop
  | node {here : N} (surveyed : Walk.Surveyed i here)
      (answers : ∀ relations, (i.relations here).May relations → ∀ relation ∈ relations,
        (i.related relation here).Total)
      (few : ∀ relations, (i.relations here).May relations → ∀ relation ∈ relations,
        ∀ related, (i.related relation here).May related → relation.Allows related.size)
      (below : ∀ relations, (i.relations here).May relations → ∀ relation ∈ relations,
        ∀ related, (i.related relation here).May related → ∀ r ∈ related.pairs, Finite i r.1) :
      Finite i here

/-- A gate that at most leaves nodes out. -/
def Stages.Plain (s : Stages V N A R) : Prop :=
  ∀ i edge here verdict, s.Rules i edge here verdict → verdict = .skip ∨ verdict = .proceed none

theorem Stages.ends_of_finite {s : Stages V N A R} (plain : s.Plain) {i : Inspector V N} {here : N}
    (h : i.Finite here) (edge : Option Edge) : s.Ends i edge here := by
  induction h generalizing edge with
  | @node here surveyed answers few below ih =>
    have reached : ∀ site, s.Reaches i edge here site →
        site.inspector = i ∧ site.node = here ∧ (i.relations here).May site.relations := by
      intro site hsite
      cases hsite with
      | entered rules mayKind mayRelations mayAttrs =>
        rcases plain _ _ _ _ rules with h | h
        · exact nomatch h
        · cases h
          exact ⟨rfl, rfl, mayRelations⟩
      | replaced rules => rcases plain _ _ _ _ rules with h | h <;> exact nomatch h
    refine .node ?_ ?_ ?_
    · intro other rules
      rcases plain _ _ _ _ rules with h | h
      · exact nomatch h
      · cases h
        exact surveyed
    · rintro ⟨edge, node, kind, relations, attrs, inspector⟩ hsite relation hrelation
      obtain ⟨rfl, rfl, may⟩ := reached _ hsite
      exact ⟨answers _ may relation hrelation, few _ may relation hrelation⟩
    · rintro ⟨edge, node, kind, relations, attrs, inspector⟩ hsite relation hrelation related
        hrelated r hr
      obtain ⟨rfl, rfl, may⟩ := reached _ hsite
      exact ih _ may relation hrelation related hrelated r hr _

/-- A sound tree that a view shows is unfolded finitely by the inspector that reads the view. -/
theorem Inspector.finite_of_shows {view : View N} {n : N} {t : Tree} (hs : view.Shows n t)
    (ht : t.Sound) : (Inspector.reading fun _ : V => view).Finite n := by
  induction hs with
  | @node n kind attrs bundles tree kindOf attrsOf relationsOf relatedOf rights ih =>
    have wellFormed : Bundle.WellFormed bundles := (Bundle.wellFormed_map tree).1 ht.wellFormed
    have bundled : ∀ relations,
        ((Inspector.reading fun _ : V => view).relations n).May relations →
        ∀ relation ∈ relations, ∃ b ∈ bundles, b.relation = relation := by
      intro relations may relation hrelation
      rw [may.eq_of_ok relationsOf] at hrelation
      exact List.mem_map.1 hrelation
    refine .node ⟨total_of_ok kindOf, total_of_ok relationsOf, total_of_ok attrsOf⟩ ?_ ?_ ?_
    · intro relations may relation hrelation
      obtain ⟨b, hb, rfl⟩ := bundled relations may relation hrelation
      exact total_of_ok (relatedOf b hb)
    · intro relations may relation hrelation related hrelated
      obtain ⟨b, hb, rfl⟩ := bundled relations may relation hrelation
      rw [hrelated.eq_of_ok (relatedOf b hb)]
      have := Relation.allows_of_accepted (wellFormed.accepted b hb)
      rwa [List.length_map] at this
    · intro relations may relation hrelation related hrelated r hr
      obtain ⟨b, hb, rfl⟩ := bundled relations may relation hrelation
      rw [hrelated.eq_of_ok (relatedOf b hb)] at hr
      exact ih b hb r hr (ht.right (List.mem_map_of_mem hb)
        (List.mem_map_of_mem (f := fun r => (tree r.1, r.2)) hr))

/-! ## The first failure -/

namespace Stages

/-- The walk of `full` takes the turns, at which the visitor never fails; if it is done, they are in
depth-first order. The walk of `s` is the same, or it is cut short by the first turn that fails. -/
structure StopsFirst (full s : Stages V N A R) (limit : Nat) (i : Inspector V N) (label : L)
    (root : N) (v : V) (turns : List (Taken N)) : Prop where
  taken : (full.taken limit i label root v).state.2 = turns
  unfailing : Unfailing turns
  order : ∀ r, (full.taken limit i label root v).outcome = .done r →
    DepthFirst s.gate.isSome (.node none root) turns
  short : CutShort [] turns (full.taken limit i label root v) (s.taken limit i label root v)
  /-- The walk that is not written down ends in the same way. -/
  plain : (walk (fun _ => s.visitor) limit i label root v).outcome =
    (s.taken limit i label root v).outcome

theorem Completes.stopsFirst {full s : Stages V N A R} (h : full.Completes s) (limit : Nat)
    (i : Inspector V N) (label : L) (root : N) (v : V) :
    full.StopsFirst s limit i label root v (full.taken limit i label root v).state.2 := by
  obtain ⟨turns, state, unfailing, order, short⟩ := Walk.node_cut h limit i label none root v []
  have same : (full.taken limit i label root v).state.2 = turns := state
  rw [same]
  exact ⟨same, unfailing, order, short, (turned_walk s limit i label root v).1.symm⟩

end Stages

/-- **The first failure of a visitor ends the walk**: of the turns of the walk without failures
there are those up to the first one that fails, and the walk ends as it did. Where the walk without
failures comes to an end, its turns are in depth-first order and do not depend on the limit; it does
so if the inspector is finite and the gate puts nothing in the place of nodes. -/
theorem first_failure_ends {full s : Stages V N A R} (h : full.Completes s) (i : Inspector V N)
    (label : L) (root : N) (v : V) :
    (∀ limit, ∃ turns, full.StopsFirst s limit i label root v turns) ∧
    (full.Ends i none root → ∃ turns depth, DepthFirst s.gate.isSome (.node none root) turns ∧
      ∀ limit, depth ≤ limit → (∃ r, (full.taken limit i label root v).outcome = .done r) ∧
        full.StopsFirst s limit i label root v turns) ∧
    (full.Plain → i.Finite root → full.Ends i none root) := by
  refine ⟨fun limit => ⟨_, h.stopsFirst limit i label root v⟩, fun ends => ?_,
    fun plain finite => Stages.ends_of_finite plain finite none⟩
  obtain ⟨r, v', turns, depth, -, settled⟩ := Stages.ends_settles h.total ends label v []
  have stops : ∀ limit, depth ≤ limit → full.StopsFirst s limit i label root v turns := by
    intro limit hlimit
    have taken : (full.taken limit i label root v).state.2 = turns :=
      congrArg Prod.snd (settled limit hlimit).2
    exact taken ▸ h.stopsFirst limit i label root v
  refine ⟨turns, depth, ?_, fun limit hlimit => ⟨⟨r, (settled limit hlimit).1⟩, stops limit hlimit⟩⟩
  exact (stops depth (Nat.le_refl depth)).order r (settled depth (Nat.le_refl depth)).1

/-- A record of items of these kinds. -/
def recordOf (kinds : List Kind) : Tree :=
  ⟨"record", ∅, [⟨⟨"items", .many⟩, kinds.map fun kind => (Tree.make kind ∅, ∅)⟩]⟩

/-- A record of three items. -/
def threeItems : Tree := recordOf ["good", "bad", "good"]

/-- Lets every node in, and does not visit bad ones if it is fussy. -/
def fussy (isFussy : Bool) : Stages Unit Tree Unit Unit where
  gate := some fun _ _ _ => Action.pure (.proceed none)
  before site := if isFussy && site.kind == "bad" then fail (Fault.raised "bad") else Action.pure ()
  after _ _ _ := Action.pure ()

theorem first_failure_ends_fussy :
    (fussy false).Completes (fussy true) ∧ (fussy false).Plain ∧
      (Tree.inspector : Inspector Unit Tree).Finite threeItems ∧
    (∃ turns depth, DepthFirst true (.node none threeItems) turns ∧
      (fussy false).StopsFirst (fussy true) depth Tree.inspector () threeItems () turns) ∧
    ∃ turns, (fussy false).StopsFirst (fussy true) 2 Tree.inspector () threeItems () turns ∧
      turns.length = 25 ∧
      ((fussy true).taken 2 Tree.inspector () threeItems ()).outcome =
        .failed (Fault.raised "bad") ∧
      ((fussy true).taken 2 Tree.inspector () threeItems ()).state.2.length = 17 := by
  have completes : (fussy false).Completes (fussy true) := by
    refine ⟨.some fun _ _ _ _ => ⟨⟨_, rfl⟩, fun _ h => ⟨h, rfl⟩⟩, fun site _ => ⟨⟨(), rfl⟩, ?_⟩,
      fun _ _ _ _ => ⟨⟨(), rfl⟩, fun _ h => ⟨h, rfl⟩⟩⟩
    intro a ha
    unfold fussy at ha ⊢
    dsimp only at ha ⊢
    split at ha
    · exact nomatch ha
    · exact ⟨ha, rfl⟩
  have plain : (fussy false).Plain := by
    rintro i edge here verdict ⟨v, hv⟩
    exact .inr (Outcome.done.inj hv).symm
  have finite : (Tree.inspector : Inspector Unit Tree).Finite threeItems := by
    have add : ∀ {t u : Tree} (kind : Kind), t.Obtained →
        Tree.relate ⟨"items", .many⟩ t (Tree.make kind ∅) ∅ = .ok u → u.Obtained :=
      fun kind ht h => ht.relate (Tree.obtained_make kind ∅) h
    have one : (recordOf ["good"]).Obtained := add "good" (Tree.obtained_make "record" ∅) rfl
    have two : (recordOf ["good", "bad"]).Obtained := add "bad" one rfl
    have sound : threeItems.Sound := (add "good" two rfl).sound
    exact Inspector.finite_of_shows (Tree.shows_self sound) sound
  obtain ⟨stops, ends, endsOf⟩ :=
    first_failure_ends completes Tree.inspector () threeItems ()
  obtain ⟨turns, depth, order, settled⟩ := ends (endsOf plain finite)
  obtain ⟨turns', stops'⟩ := stops 2
  exact ⟨completes, plain, finite, ⟨turns, depth, order, (settled depth (Nat.le_refl depth)).2⟩,
    turns', stops', stops'.taken ▸ rfl, rfl, rfl⟩

end TreeProtocol
