import TreeProtocol.Proofs.Walks.Reporting
import TreeProtocol.Proofs.Walks.Settling

/-!
# Walks that leave nodes out and put others in their place

A walk over a tree whose gate is a function of the way to a node and the node. What the walk reports
is a projection of the tree: nodes that are left out leave a gap, and where another tree is put in
the place of a node, the walk goes on below the other one.

* `Choice`, `Stages.choosing` — the function, and the reporting visitor with this gate;
* `Projects` — the projection, with the turns of the walk that reports it;
* `projects_settles` — the walk reports the projection and takes these turns;
* `exists_projects` — a gate that puts nothing in the place of nodes has a projection of every tree;
* `walk_projects` — all of it, for trees that can be obtained.
-/

namespace TreeProtocol

open TreeProtocol.Action

variable {L V N α β γ : Type}

/-- What is done with a node of a tree. -/
inductive Choice where
  | skip
  | pass
  /-- Another tree that was built is put in its place. -/
  | substitute (other : Tree) (obtained : other.Obtained)

/-- The choice as a verdict: a tree that is put in the place of a node comes with its own kind,
attributes and relations, and without an inspector. -/
def Choice.verdict {W : Type} : Choice → Verdict W Tree
  | skip => .skip
  | pass => .proceed none
  | substitute other _ =>
    .replace other other.kind other.attrs (Bundle.relations other.bundles) none

/-- The reporting visitor, in stages and with a gate that chooses. -/
def Stages.choosing (choose : Option Edge → Tree → Choice) : Stages V Tree Unit Report where
  gate := some fun _ edge here => Action.pure (choose edge here).verdict
  before _ := Action.pure ()
  after site _ findings :=
    Action.pure ⟨site.edge, site.kind, site.attrs, site.relations, findings⟩

/-- The reporting visitor with a gate that chooses. -/
def Visitor.choosing (choose : Option Edge → Tree → Choice) : Visitor L V Tree Report :=
  { Visitor.reporting with gate := some fun _ edge here => Action.pure (choose edge here).verdict }

theorem Stages.choosing_visitor (choose : Option Edge → Tree → Choice) :
    ((Stages.choosing choose).visitor : Visitor L V Tree Report) = .choosing choose := rfl

/-! ## Projections -/

/-- The report of a tree that is reached by an edge, if there are these reports of its right nodes.
Every right node has its own entry, also if it was left out. -/
def Report.above (edge : Option Edge) (shown : Tree)
    (report : Relation → Tree × Attrs → Option Report) : Report :=
  ⟨edge, shown.kind, shown.attrs, Bundle.relations shown.bundles,
    shown.bundles.map fun b => .ofResults b.relation (b.rights.map (report b.relation))⟩

/-- The turns of a visit of the tree, if these are taken for its right nodes. -/
def turnsAbove (edge : Option Edge) (shown : Tree)
    (turns : Relation → Tree × Attrs → List (Taken Tree)) : List (Taken Tree) :=
  visitTurns edge shown (shown.bundles.flatMap fun b =>
    ⟨.asked (.related b.relation shown), .done ⟨b.rights⟩⟩ :: b.rights.flatMap (turns b.relation))

/-- **The projection of a tree**: the report that a walk brings back, or none, and the turns that
the walk takes. The choice is made once for every node that is reached. Nothing else is done with a
node that is left out. A tree in the place of a node is neither chosen about nor asked for its kind,
its relations and its attributes; the choices below are made about its own right nodes. -/
inductive Projects (choose : Option Edge → Tree → Choice) :
    Option Edge → Tree → Option Report → List (Taken Tree) → Prop
  | skipped {edge : Option Edge} {t : Tree} (choice : choose edge t = .skip) :
      Projects choose edge t none [⟨.gate edge t, .done .skip⟩]
  | passed {edge : Option Edge} {t : Tree} (choice : choose edge t = .pass)
      (report : Relation → Tree × Attrs → Option Report)
      (turns : Relation → Tree × Attrs → List (Taken Tree))
      (rights : ∀ b ∈ t.bundles, ∀ r ∈ b.rights,
        Projects choose (some ⟨b.relation, r.2⟩) r.1 (report b.relation r) (turns b.relation r)) :
      Projects choose edge t (some (.above edge t report))
        (⟨.gate edge t, .done .proceed⟩ ::
          (surveyTurns t t.kind (Bundle.relations t.bundles) t.attrs ++ turnsAbove edge t turns))
  | substituted {edge : Option Edge} {t other : Tree} {obtained : other.Obtained}
      (choice : choose edge t = .substitute other obtained)
      (report : Relation → Tree × Attrs → Option Report)
      (turns : Relation → Tree × Attrs → List (Taken Tree))
      (rights : ∀ b ∈ other.bundles, ∀ r ∈ b.rights,
        Projects choose (some ⟨b.relation, r.2⟩) r.1 (report b.relation r) (turns b.relation r)) :
      Projects choose edge t (some (.above edge other report))
        (⟨.gate edge t, .done (.replace other other.kind other.attrs
          (Bundle.relations other.bundles))⟩ :: turnsAbove edge other turns)

variable {choose : Option Edge → Tree → Choice}

/-- **The root is left out if and only if there is no report.** -/
theorem Projects.eq_none_iff {edge : Option Edge} {t : Tree} {result : Option Report}
    {turns : List (Taken Tree)} (h : Projects choose edge t result turns) :
    result = none ↔ choose edge t = .skip := by
  cases h with
  | skipped choice => exact ⟨fun _ => choice, fun _ => rfl⟩
  | passed choice => rw [choice]; exact ⟨nofun, nofun⟩
  | substituted choice => rw [choice]; exact ⟨nofun, nofun⟩

/-- **A gate that only leaves nodes out has a projection of every tree.** Induction over the
tree. -/
theorem exists_projects
    (keeps : ∀ edge t other obtained, choose edge t ≠ .substitute other obtained) (t : Tree)
    (edge : Option Edge) : ∃ result turns, Projects choose edge t result turns := by
  induction t using Tree.induction generalizing edge with
  | node t ih =>
    cases choice : choose edge t with
    | skip => exact ⟨_, _, .skipped choice⟩
    | substitute other obtained => exact absurd choice (keeps edge t other obtained)
    | pass =>
      have all : ∀ relation (r : Tree × Attrs), ∃ result turns,
          (∃ b ∈ t.bundles, b.relation = relation ∧ r ∈ b.rights) →
            Projects choose (some ⟨relation, r.2⟩) r.1 result turns := by
        intro relation r
        by_cases there : ∃ b ∈ t.bundles, b.relation = relation ∧ r ∈ b.rights
        · obtain ⟨b, hb, rfl, hr⟩ := there
          obtain ⟨result, turns, h⟩ := ih b hb r hr (some ⟨b.relation, r.2⟩)
          exact ⟨result, turns, fun _ => h⟩
        · exact ⟨none, [], fun h => absurd h there⟩
      choose! report turns h using all
      exact ⟨_, _, .passed choice report turns fun b hb r hr => h b.relation r ⟨b, hb, rfl, hr⟩⟩

/-! ## The walk -/

theorem chained_eq {f : α → β} {g : α → List (Taken N)} {xs : List α} {ys : List β}
    {log : List (Taken N)} (h : Chained (fun x y log => y = f x ∧ log = g x) xs ys log) :
    ys = xs.map f ∧ log = xs.flatMap g := by
  induction h with
  | nil => exact ⟨rfl, rfl⟩
  | cons head tail ih =>
    obtain ⟨rfl, rfl⟩ := head
    obtain ⟨rfl, rfl⟩ := ih
    exact ⟨rfl, rfl⟩

/-- A tree as a site. -/
def Tree.site (edge : Option Edge) (shown : Tree) : Site V Tree :=
  ⟨edge, shown, shown.kind, Bundle.relations shown.bundles, shown.attrs, Tree.inspector⟩

section Below

variable {shown : Tree} {edge : Option Edge} {label : L}
  {step : Nat → Walk.Step L (V × List (Taken Tree)) Tree Report}
  {report : Relation → Tree × Attrs → Option Report}
  {turns : Relation → Tree × Attrs → List (Taken Tree)}

theorem intoBundle_settles (sound : shown.Sound) {b : Bundle Tree} (hb : b ∈ shown.bundles)
    (rights : ∀ r ∈ b.rights, Settles
      (fun result log => result = report b.relation r ∧ log = turns b.relation r)
      fun limit => step limit Tree.inspector.turned label (some ⟨b.relation, r.2⟩) r.1) :
    Settles
      (fun findings log => findings = .ofResults b.relation (b.rights.map (report b.relation)) ∧
        log = ⟨.asked (.related b.relation shown), .done ⟨b.rights⟩⟩ ::
          b.rights.flatMap (turns b.relation))
      fun limit => Walk.intoRelation (step limit) (shown.site edge).turned label b.relation := by
  have related := Tree.related_eq sound.wellFormed.names hb
  refine (Walk.intoRelation_settles
    (P := fun r result log => result = report b.relation r ∧ log = turns b.relation r)
    (total_of_ok related) ?_ ?_).imp ?_
  · intro answer may
    rw [may.eq_of_ok related]
    have := Relation.allows_of_accepted (sound.wellFormed.accepted b hb)
    rwa [List.length_map] at this
  · intro answer may r hr
    rw [may.eq_of_ok related] at hr
    exact rights r hr
  · rintro findings log ⟨answer, results, below, may, chained, rfl, rfl⟩
    rw [may.eq_of_ok related] at chained ⊢
    obtain ⟨rfl, rfl⟩ := chained_eq chained
    exact ⟨rfl, rfl⟩

/-- A visit of a sound tree, given what becomes of its right nodes. -/
theorem visit_settles (sound : shown.Sound)
    (rights : ∀ b ∈ shown.bundles, ∀ r ∈ b.rights, Settles
      (fun result log => result = report b.relation r ∧ log = turns b.relation r)
      fun limit => step limit Tree.inspector.turned label (some ⟨b.relation, r.2⟩) r.1) :
    Settles
      (fun result log => result = some (.above edge shown report) ∧
        log = turnsAbove edge shown turns)
      fun limit => Walk.visitSite (fun _ : L => (Stages.choosing choose).turned.visitor)
        (step limit) label (shown.site edge).turned := by
  have descent : Settles
      (fun findings log =>
        findings = shown.bundles.map
          (fun b => .ofResults b.relation (b.rights.map (report b.relation))) ∧
        log = shown.bundles.flatMap fun b =>
          ⟨.asked (.related b.relation shown), .done ⟨b.rights⟩⟩ ::
            b.rights.flatMap (turns b.relation))
      fun limit => Walk.descend (step limit) (shown.site edge).turned label none none := by
    show Settles _ fun limit => forEach _ (shown.bundles.map (·.relation))
    simp only [forEach_map]
    exact (Settles.forEach fun b hb => intoBundle_settles sound hb (rights b hb)).imp
      fun findings log chained => chained_eq chained
  refine (Walk.visitSite_settles (total_pure ()) descent fun _ _ => total_pure _).imp ?_
  rintro result log ⟨first, findings, below, made, -, ⟨rfl, rfl⟩, may, rfl, rfl⟩
  exact ⟨congrArg some may.eq_of_pure, rfl⟩

end Below

theorem choosing_total {i : Inspector V Tree} {edge : Option Edge} {here : Tree} :
    ∀ gate ∈ (Stages.choosing choose).gate, (gate i edge here).Total := by
  intro gate hgate
  cases hgate
  exact total_pure _

theorem choosing_rules {i : Inspector V Tree} {edge : Option Edge} {here : Tree} {choice : Choice}
    (h : choose edge here = choice) {verdict : Verdict V Tree}
    (rules : (Stages.choosing choose).Rules i edge here verdict) : verdict = choice.verdict := by
  rw [← h]
  exact May.eq_of_pure rules

/-- **The walk reports the projection and takes its turns.** Induction on the projection. -/
theorem projects_settles {edge : Option Edge} {t : Tree} {result : Option Report}
    {turns : List (Taken Tree)} (h : Projects choose edge t result turns) (sound : t.Sound)
    (label : L) :
    Settles (V := V) (fun r log => r = result ∧ log = turns) fun limit =>
      Walk.node (fun _ : L => (Stages.choosing choose).turned.visitor) limit
        Tree.inspector.turned label edge t := by
  induction h with
  | @skipped edge t choice =>
    refine Walk.node_settles choosing_total (fun _ => ⟨rfl, rfl⟩) ?_ ?_
    · exact fun other rules => nomatch choosing_rules choice rules
    · exact fun node kind attrs relations other rules => nomatch choosing_rules choice rules
  | @passed edge t choice report turns rights ih =>
    refine Walk.node_settles choosing_total ?_ ?_ ?_
    · exact fun rules => nomatch choosing_rules choice rules
    · intro other rules
      cases choosing_rules choice rules
      refine ⟨⟨total_of_ok rfl, total_of_ok rfl, total_of_ok rfl⟩, ?_⟩
      intro kind relations attrs mayKind mayRelations mayAttrs
      rw [mayKind.eq_of_ok rfl, mayRelations.eq_of_ok rfl, mayAttrs.eq_of_ok rfl]
      refine (visit_settles sound fun b hb r hr => ih b hb r hr (sound.right hb hr)).imp ?_
      rintro r log ⟨rfl, rfl⟩
      exact ⟨rfl, rfl⟩
    · exact fun node kind attrs relations other rules => nomatch choosing_rules choice rules
  | @substituted edge t other obtained choice report turns rights ih =>
    refine Walk.node_settles choosing_total ?_ ?_ ?_
    · exact fun rules => nomatch choosing_rules choice rules
    · exact fun other rules => nomatch choosing_rules choice rules
    · intro node kind attrs relations other' rules
      cases choosing_rules choice rules
      have sound' := obtained.sound
      refine (visit_settles sound' fun b hb r hr => ih b hb r hr (sound'.right hb hr)).imp ?_
      rintro r log ⟨rfl, rfl⟩
      exact ⟨rfl, rfl⟩

/-- **A walk over a tree reports its projection**, from some limit on, and takes the turns of the
projection and no other ones. There is no result if and only if the root is left out. If the gate
puts nothing in the place of nodes, there is a projection. -/
theorem walk_projects {root : Tree} (obtained : root.Obtained)
    (choose : Option Edge → Tree → Choice) :
    (∀ result turns, Projects choose none root result turns →
      (result = none ↔ choose none root = .skip) ∧
      ∀ (L V : Type) (label : L) (v : V), ∃ depth, ∀ limit, depth ≤ limit →
        (walk (fun _ => .choosing choose) limit Tree.inspector label root v).outcome =
            .done result ∧
          ((Stages.choosing choose).taken limit Tree.inspector label root v).state.2 = turns) ∧
    ((∀ edge t other obtained, choose edge t ≠ .substitute other obtained) →
      ∃ result turns, Projects choose none root result turns) := by
  refine ⟨fun result turns h => ⟨h.eq_none_iff, fun L V label v => ?_⟩,
    fun keeps => exists_projects keeps root none⟩
  obtain ⟨r, v', log, depth, ⟨rfl, rfl⟩, settled⟩ := projects_settles h obtained.sound label v []
  refine ⟨depth, fun limit hlimit => ?_⟩
  obtain ⟨outcome, state⟩ := settled limit hlimit
  have plain := (turned_walk (Stages.choosing choose) limit Tree.inspector label root v).1
  rw [Stages.choosing_visitor] at plain
  exact ⟨plain.symm.trans outcome, congrArg Prod.snd state⟩

/-- What stands for a macro. -/
def expansion : Tree :=
  ⟨"pair", ∅, [⟨⟨"items", .many⟩, [(Tree.make "hidden" ∅, ∅), (Tree.make "literal" ∅, ∅)]⟩]⟩

theorem expansion_obtained : expansion.Obtained := by
  have first : Tree.relate ⟨"items", .many⟩ (Tree.make "pair" ∅) (Tree.make "hidden" ∅) ∅ =
    .ok ⟨"pair", ∅, [⟨⟨"items", .many⟩, [(Tree.make "hidden" ∅, ∅)]⟩]⟩ := rfl
  have second : Tree.relate ⟨"items", .many⟩
      ⟨"pair", ∅, [⟨⟨"items", .many⟩, [(Tree.make "hidden" ∅, ∅)]⟩]⟩ (Tree.make "literal" ∅) ∅ =
    .ok expansion := rfl
  exact ((Tree.obtained_make "pair" ∅).relate (Tree.obtained_make "hidden" ∅) first).relate
    (Tree.obtained_make "literal" ∅) second

/-- A macro and a hidden node. -/
def macroRecord : Tree :=
  ⟨"record", ∅,
    [⟨⟨"items", .many⟩, [(Tree.make "macro" ∅, ∅)]⟩,
      ⟨⟨"doc", .optional⟩, [(Tree.make "hidden" ∅, ∅)]⟩]⟩

/-- Leaves out what is hidden, and puts the expansion in the place of macros. -/
def expanding (_ : Option Edge) (t : Tree) : Choice :=
  if t.kind = "hidden" then .skip
  else if t.kind = "macro" then .substitute expansion expansion_obtained
  else .pass

/-- Leaves out what is hidden. -/
def pruning (_ : Option Edge) (t : Tree) : Choice := if t.kind = "hidden" then .skip else .pass

/-- The expansion, with a gap where it has a hidden node. -/
def expandedReport : Report :=
  ⟨some ⟨⟨"items", .many⟩, ∅⟩, "pair", ∅, [⟨"items", .many⟩],
    [.sequence [none, some ⟨some ⟨⟨"items", .many⟩, ∅⟩, "literal", ∅, [], []⟩]]⟩

theorem projects_expansion : ∃ turns, turns.length = 11 ∧
    Projects expanding (some ⟨⟨"items", .many⟩, ∅⟩) (Tree.make "macro" ∅) (some expandedReport)
      turns := by
  obtain ⟨turns, length, literal⟩ : ∃ turns, turns.length = 6 ∧
      Projects expanding (some ⟨⟨"items", .many⟩, ∅⟩) (Tree.make "literal" ∅)
        (some ⟨some ⟨⟨"items", .many⟩, ∅⟩, "literal", ∅, [], []⟩) turns :=
    ⟨_, rfl, .passed rfl (fun _ _ => none) (fun _ _ => []) fun _ hb => nomatch hb⟩
  have choice : expanding (some ⟨⟨"items", .many⟩, ∅⟩) (Tree.make "macro" ∅) =
    .substitute expansion expansion_obtained := rfl
  refine ⟨_, ?_, .substituted choice
    (fun _ r => if r.1.kind = "literal" then
      some ⟨some ⟨⟨"items", .many⟩, ∅⟩, "literal", ∅, [], []⟩ else none)
    (fun relation r => if r.1.kind = "literal" then turns
      else [⟨.gate (some ⟨relation, r.2⟩) r.1, .done .skip⟩]) ?_⟩
  · simp [turnsAbove, visitTurns, expansion, Tree.make, length]
  · refine List.forall_mem_singleton.2 (List.forall_mem_cons.2 ⟨.skipped rfl, ?_⟩)
    exact List.forall_mem_singleton.2 literal

theorem walk_projects_macroRecord :
    macroRecord.Obtained ∧
    ∃ turns, turns.length = 20 ∧ Projects expanding none macroRecord
        (some ⟨none, "record", ∅, [⟨"items", .many⟩, ⟨"doc", .optional⟩],
          [.sequence [some expandedReport], .single none]⟩) turns ∧
      (∃ depth,
        ((Stages.choosing expanding).taken depth Tree.inspector () macroRecord ()).state.2 =
          turns) ∧
      ∃ result turns, Projects pruning none macroRecord result turns := by
  have obtained : macroRecord.Obtained := by
    have first : Tree.relate ⟨"items", .many⟩ (Tree.make "record" ∅) (Tree.make "macro" ∅) ∅ =
      .ok ⟨"record", ∅, [⟨⟨"items", .many⟩, [(Tree.make "macro" ∅, ∅)]⟩]⟩ := rfl
    have second : Tree.relate ⟨"doc", .optional⟩
        ⟨"record", ∅, [⟨⟨"items", .many⟩, [(Tree.make "macro" ∅, ∅)]⟩]⟩ (Tree.make "hidden" ∅) ∅ =
      .ok macroRecord := rfl
    exact ((Tree.obtained_make "record" ∅).relate (Tree.obtained_make "macro" ∅) first).relate
      (Tree.obtained_make "hidden" ∅) second
  obtain ⟨turns, length, projected⟩ : ∃ turns, turns.length = 20 ∧
      Projects expanding none macroRecord
        (some ⟨none, "record", ∅, [⟨"items", .many⟩, ⟨"doc", .optional⟩],
          [.sequence [some expandedReport], .single none]⟩) turns := by
    obtain ⟨below, length, expanded⟩ := projects_expansion
    refine ⟨_, ?_, .passed rfl
      (fun _ r => if r.1.kind = "macro" then some expandedReport else none)
      (fun relation r => if r.1.kind = "macro" then below
        else [⟨.gate (some ⟨relation, r.2⟩) r.1, .done .skip⟩]) ?_⟩
    · simp [turnsAbove, visitTurns, surveyTurns, macroRecord, Tree.make, length]
    · refine List.forall_mem_cons.2 ⟨List.forall_mem_singleton.2 expanded, ?_⟩
      exact List.forall_mem_singleton.2 (List.forall_mem_singleton.2 (.skipped rfl))
  obtain ⟨-, settled⟩ := (walk_projects obtained expanding).1 _ _ projected
  obtain ⟨depth, walked⟩ := settled Unit Unit () ()
  have hides : ∀ edge t other obtained, pruning edge t ≠ .substitute other obtained := by
    intro edge t other obtained
    unfold pruning
    split <;> exact nofun
  exact ⟨obtained, turns, length, projected, ⟨depth, (walked depth (Nat.le_refl depth)).2⟩,
    (walk_projects obtained pruning).2 hides⟩

end TreeProtocol
