import TreeProtocol.Proofs.Walks.Complete

/-!
# Walks that do not look at nodes

An onlooker is a visitor that sees the way to a node, its kind, its relations, its attributes and
what the walk brings back from below, but neither the node itself nor the inspector. Its gate lets
nodes through or leaves them out. It acts on a state of its own, which lies beside the arena: during
a walk the arena is only read.

* `Action.Alike` — two actions that do the same beside a state that stays;
* `node_alike` — walks of onlookers over two views that show one tree are alike, visit for visit;
* `walk_agree` — an onlooker cannot tell a node of an arena from the tree that it unfolds to.
-/

namespace TreeProtocol

/-! ## Actions beside a state that stays -/

namespace Action

variable {A V α β : Type} {a : A}

/-- The action on the second of two states, with the first held at `a`. -/
def beside (a : A) (x : Action (A × V) α) : Action V α := fun v =>
  ⟨(x (a, v)).outcome, (x (a, v)).state.2, (x (a, v)).events⟩

/-- Beside `a` the two actions do the same, and leave `a` as it is. -/
def Alike (a : A) (x y : Action (A × V) α) : Prop :=
  ∀ v, x (a, v) = y (a, v) ∧ (x (a, v)).state.1 = a

/-- Beside `a` the action has a result, and does nothing else. -/
def Answers (a : A) (x : Action (A × V) α) (result : α) : Prop :=
  ∀ v, x (a, v) = ⟨.done result, (a, v), []⟩

theorem alike_of_still {x : Action (A × V) α} (h : ∀ s, (x s).state = s) : Alike a x x :=
  fun v => ⟨rfl, by rw [h]⟩

theorem alike_pure (result : α) : Alike (V := V) a (pure result) (pure result) :=
  alike_of_still fun _ => rfl

theorem alike_zoom (x : Action V α) : Alike a (x.zoom Lens.snd) (x.zoom Lens.snd) :=
  fun _ => ⟨rfl, rfl⟩

theorem Alike.bind {x y : Action (A × V) α} {f g : α → Action (A × V) β} (hxy : Alike a x y)
    (hfg : ∀ r, Alike a (f r) (g r)) : Alike a (x >>= f) (y >>= g) := by
  intro v
  obtain ⟨heq, hstill⟩ := hxy v
  cases ho : (x (a, v)).outcome with
  | done r =>
    obtain ⟨heq', hstill'⟩ := hfg r (x (a, v)).state.2
    have hstate : (x (a, v)).state = (a, (x (a, v)).state.2) := Prod.ext hstill rfl
    rw [bind_of_done ho, bind_of_done (heq ▸ ho), ← heq, hstate, ← heq']
    exact ⟨rfl, hstill'⟩
  | failed e =>
    rw [bind_of_failed ho, bind_of_failed (heq ▸ ho), ← heq]
    exact ⟨rfl, hstill⟩
  | crashed =>
    rw [bind_of_crashed ho, bind_of_crashed (heq ▸ ho), ← heq]
    exact ⟨rfl, hstill⟩

theorem answers_read {read : A × V → Except BuildError α} {r : α} (h : ∀ v, read (a, v) = .ok r) :
    Answers a (fun s => ⟨.ofExcept (read s), s, []⟩) r := by
  intro v
  dsimp only
  rw [h]
  rfl

theorem Answers.bind_eq {x : Action (A × V) α} {r : α} (h : Answers a x r)
    (f : α → Action (A × V) β) (v : V) : (x >>= f) (a, v) = f r (a, v) := by
  rw [bind_of_done (a := r) (by rw [h v]), h v]
  rfl

theorem Answers.bind {x : Action (A × V) α} {r : α} {f : α → Action (A × V) β} {q : β}
    (hx : Answers a x r) (hf : Answers a (f r) q) : Answers a (x >>= f) q := by
  intro v
  rw [hx.bind_eq f v, hf v]

/-- Two questions may have different answers, if what follows does the same on them. -/
theorem Alike.answered {γ : Type} {x : Action (A × V) α} {y : Action (A × V) γ} {r : α} {q : γ}
    {f : α → Action (A × V) β} {g : γ → Action (A × V) β} (hx : Answers a x r) (hy : Answers a y q)
    (h : Alike a (f r) (g q)) : Alike a (x >>= f) (y >>= g) := by
  intro v
  rw [hx.bind_eq f v, hy.bind_eq g v]
  exact h v

theorem Alike.forEach {f g : α → Action (A × V) β} {xs : List α}
    (h : ∀ x ∈ xs, Alike a (f x) (g x)) :
    Alike a (Action.forEach f xs) (Action.forEach g xs) := by
  induction xs with
  | nil => exact alike_pure []
  | cons x more ih =>
    obtain ⟨hhead, hmore⟩ := List.forall_mem_cons.1 h
    exact hhead.bind fun _ => (ih hmore).bind fun _ => alike_pure _

theorem Alike.beside_eq {x y : Action (A × V) α} (h : Alike a x y) : x.beside a = y.beside a := by
  funext v
  rw [beside, beside, (h v).1]

end Action

/-! ## Onlookers -/

/-- A visitor that is told neither the node nor the inspector. The gate says whether a node is let
through. -/
structure Onlooker (L V R : Type) where
  gate : Option (Option Edge → Action V Bool) := none
  visit : Option Edge → Kind → List Relation → Attrs → Descent L V R → Action V R

namespace Onlooker

variable {L V R : Type}

/-- The onlooker as a visitor of nodes of any type, on a state beside which an `A` is held. -/
def visitor (o : Onlooker L V R) (A N : Type) : Visitor L (A × V) N R where
  gate := o.gate.map fun gate _ edge _ => do
    let pass ← (gate edge).zoom Lens.snd
    Action.pure (if pass then .proceed none else .skip)
  visit site descent := fun s =>
    Action.zoom Lens.snd (o.visit site.edge site.kind site.relations site.attrs
      fun names label => (descent names label).beside s.1) s

/-- The visitors that onlookers are, label for label. -/
abbrev visitors (onlookers : L → Onlooker L V R) (A N : Type) : L → Visitor L (A × V) N R :=
  fun label => (onlookers label).visitor A N

/-- Whether the onlooker lets a node through; without a gate it always does. -/
def letsIn {A : Type} (o : Onlooker L V R) (edge : Option Edge) : Action (A × V) Bool :=
  match o.gate with
  | some gate => (gate edge).zoom Lens.snd
  | none => Action.pure true

theorem letsIn_alike {A : Type} {a : A} (o : Onlooker L V R) (edge : Option Edge) :
    Action.Alike a (o.letsIn edge) (o.letsIn edge) := by
  rw [letsIn]
  cases o.gate with
  | none => exact Action.alike_pure true
  | some gate => exact Action.alike_zoom (gate edge)

end Onlooker

/-- A call of an onlooker with its arguments. -/
inductive Contact (L : Type) where
  | gate (label : L) (edge : Option Edge)
  | visit (label : L) (edge : Option Edge) (kind : Kind) (relations : List Relation) (attrs : Attrs)

/-- The onlooker that notes every call before it answers as the one of its label does. -/
def Onlooker.noting {L V R : Type} (log : Lens V (List (Contact L))) (label : L)
    (o : Onlooker L V R) : Onlooker L V R where
  gate := o.gate.map fun gate edge => do
    Action.modify (log.modify (· ++ [.gate label edge]))
    gate edge
  visit edge kind relations attrs descent := do
    Action.modify (log.modify (· ++ [.visit label edge kind relations attrs]))
    o.visit edge kind relations attrs descent

/-! ## Walks of onlookers -/

namespace Walk

open TreeProtocol.Action

variable {A L V N M R : Type} {a : A}

theorem intoRelation_alike {step : Step L (A × V) N R} {step' : Step L (A × V) M R}
    {site : Site (A × V) N} {site' : Site (A × V) M} {b : Bundle N} {image : N → M}
    (related : Answers a (site.inspector.related b.relation site.node) ⟨b.rights⟩)
    (related' : Answers a (site'.inspector.related b.relation site'.node) ⟨(b.map image).rights⟩)
    (label : L)
    (rights : ∀ r ∈ b.rights, ∀ edge,
      Alike a (step site.inspector label edge r.1) (step' site'.inspector label edge (image r.1))) :
    Alike a (intoRelation step site label b.relation)
      (intoRelation step' site' label b.relation) := by
  refine Alike.answered related related' ?_
  dsimp only
  cases b.relation.cardinality.isSequence with
  | true =>
    refine Alike.bind ?_ fun _ => alike_pure _
    rw [Bundle.map_rights, forEach_map]
    exact Alike.forEach fun r hr => rights r hr _
  | false =>
    match hrights : b.rights with
    | [] =>
      rw [Bundle.map_rights, hrights]
      exact alike_pure _
    | [r] =>
      rw [Bundle.map_rights, hrights]
      have hr : r ∈ b.rights := by rw [hrights]; exact List.mem_cons_self
      exact (rights r hr _).bind fun _ => alike_pure _
    | r :: s :: more =>
      rw [Bundle.map_rights, hrights]
      simp only [Related.size, List.map_cons, List.length_cons, List.length_map]
      exact alike_of_still fun _ => rfl

theorem descend_alike {step : Step L (A × V) N R} {step' : Step L (A × V) M R}
    {site : Site (A × V) N} {site' : Site (A × V) M} {bundles : List (Bundle N)}
    (image : N → M) (relations : site.relations = Bundle.relations bundles)
    (relations' : site'.relations = Bundle.relations bundles)
    (related : ∀ b ∈ bundles, Answers a (site.inspector.related b.relation site.node) ⟨b.rights⟩)
    (related' : ∀ b ∈ bundles,
      Answers a (site'.inspector.related b.relation site'.node) ⟨(b.map image).rights⟩)
    (label : L)
    (rights : ∀ b ∈ bundles, ∀ r ∈ b.rights, ∀ label edge,
      Alike a (step site.inspector label edge r.1) (step' site'.inspector label edge (image r.1)))
    (names : Option (List String)) (other : Option L) :
    Alike a (descend step site label names other) (descend step' site' label names other) := by
  have into : ∀ relation ∈ Bundle.relations bundles,
      Alike a (intoRelation step site (other.getD label) relation)
        (intoRelation step' site' (other.getD label) relation) := by
    intro relation hrelation
    obtain ⟨b, hb, rfl⟩ := List.mem_map.1 hrelation
    exact intoRelation_alike (related b hb) (related' b hb) _ fun r hr => rights b hb r hr _
  cases names with
  | none =>
    show Alike a (forEach _ site.relations) (forEach _ site'.relations)
    rw [relations, relations']
    exact Alike.forEach into
  | some names =>
    show Alike a (forEach (intoNamed step site _) names) (forEach (intoNamed step' site' _) names)
    refine Alike.forEach fun name _ => ?_
    rw [intoNamed, intoNamed, relations, relations']
    cases hfound : (Bundle.relations bundles).find? (·.name == name) with
    | none => exact alike_pure _
    | some relation => exact into relation (List.mem_of_find?_eq_some hfound)

/-- Has a node visited that was let through. -/
def enter {W : Type} (visitors : L → Visitor L W N R) (step : Step L W N R)
    (inspector : Inspector W N) (label : L) (edge : Option Edge) (here : N) :
    Action W (Option R) := do
  let site ← survey inspector edge here
  visitSite visitors step label site

/-- One level of a walk, if the gate only lets the node through or leaves it out. -/
theorem level_of_judged {W : Type} {visitors : L → Visitor L W N R} {below : Step L W N R}
    {inspector : Inspector W N} {label : L} {edge : Option Edge} {here : N}
    {letsIn : Action W Bool} (judged : judge (visitors label) inspector edge here =
      letsIn >>= fun pass => Action.pure (if pass then .proceed none else .skip)) :
    level visitors below inspector label edge here = letsIn >>= fun pass =>
      if pass then enter visitors below inspector label edge here
      else emit (.nodeSkipped (edge.map (·.relation.name))) >>= fun _ => Action.pure none := by
  rw [level, arrive, judged, bind_assoc]
  refine congrArg _ (funext fun pass => ?_)
  cases pass <;> rfl

variable {onlookers : L → Onlooker L V R} {inspector : Inspector (A × V) N} {label : L}

theorem onlooker_judge_eq (edge : Option Edge) (here : N) :
    judge (Onlooker.visitors onlookers A N label) inspector edge here =
      (onlookers label).letsIn edge >>= fun pass =>
        Action.pure (if pass then .proceed none else .skip) := by
  unfold judge Onlooker.letsIn
  rw [show (Onlooker.visitors onlookers A N label).gate = (onlookers label).gate.map _ from rfl]
  cases (onlookers label).gate <;> rfl

theorem survey_answers {view : A × V → View N} {shown : View N} (reads : ∀ v, view (a, v) = shown)
    (edge : Option Edge) {n : N} {kind : Kind} {attrs : Attrs} {relations : List Relation}
    (kindOf : shown.kind n = .ok kind) (attrsOf : shown.attrs n = .ok attrs)
    (relationsOf : shown.relations n = .ok relations) :
    Answers a (survey (.reading view) edge n)
      ⟨edge, n, kind, relations, attrs, .reading view⟩ := by
  refine (answers_read fun v => by rw [reads]; exact kindOf).bind ?_
  refine (answers_read fun v => by rw [reads]; exact relationsOf).bind ?_
  exact (answers_read fun v => by rw [reads]; exact attrsOf).bind fun v => rfl

theorem visitSite_alike {step : Step L (A × V) N R} {step' : Step L (A × V) Tree R}
    {site : Site (A × V) N} {site' : Site (A × V) Tree} (edge : site.edge = site'.edge)
    (kind : site.kind = site'.kind) (relations : site.relations = site'.relations)
    (attrs : site.attrs = site'.attrs)
    (descents : ∀ names other,
      Alike a (descend step site label names other) (descend step' site' label names other)) :
    Alike a (visitSite (Onlooker.visitors onlookers A N) step label site)
      (visitSite (Onlooker.visitors onlookers A Tree) step' label site') := by
  -- All that an onlooker gets of the two sites and does not see is what descending does.
  have below : (fun names other => (descend step site label names other).beside a) =
      fun names other => (descend step' site' label names other).beside a :=
    funext fun names => funext fun other => (descents names other).beside_eq
  have visits : Alike a
      ((Onlooker.visitors onlookers A N label).visit site (descend step site label))
      ((Onlooker.visitors onlookers A Tree label).visit site' (descend step' site' label)) := by
    intro v
    show Action.zoom Lens.snd
        ((onlookers label).visit site.edge site.kind site.relations site.attrs
          fun names other => (descend step site label names other).beside a) (a, v) =
      Action.zoom Lens.snd
        ((onlookers label).visit site'.edge site'.kind site'.relations site'.attrs
          fun names other => (descend step' site' label names other).beside a) (a, v) ∧ _
    rw [below, edge, kind, relations, attrs]
    exact ⟨rfl, rfl⟩
  rw [visitSite, visitSite, visitWith, visitWith, edge, kind, relations]
  exact (alike_of_still fun _ => rfl).bind fun _ => visits.bind fun _ => alike_pure _

/-- **Walks over two views that show one tree are alike**, with one limit or with two that are both
high enough. Induction on what the view shows. -/
theorem node_alike (onlookers : L → Onlooker L V R) {view : A × V → View N} {shown : View N}
    (reads : ∀ v, view (a, v) = shown) {n : N} {t : Tree} (hs : shown.Shows n t) (ht : t.Sound)
    {limit limit' : Nat} (hlimit : limit = limit' ∨ t.height ≤ limit ∧ t.height ≤ limit')
    (label : L) (edge : Option Edge) :
    Alike a (node (Onlooker.visitors onlookers A N) limit (.reading view) label edge n)
      (node (Onlooker.visitors onlookers A Tree) limit' Tree.inspector label edge t) := by
  induction hs generalizing limit limit' label edge with
  | @node n kind attrs bundles tree kindOf attrsOf relationsOf relatedOf rights ih =>
    have hpos := Tree.height_pos ⟨kind, attrs, bundles.map (Bundle.map tree)⟩
    -- A limit that is used up is too low for the tree, so the other one is used up as well.
    match limit, limit', hlimit with
    | 0, 0, _ => exact alike_of_still fun _ => rfl
    | 0, _ + 1, hlimit => omega
    | _ + 1, 0, hlimit => omega
    | limit + 1, limit' + 1, hlimit =>
      have surveyed := survey_answers reads edge kindOf attrsOf relationsOf
      have surveyed' : Answers (V := V) a
          (survey Tree.inspector edge ⟨kind, attrs, bundles.map (Bundle.map tree)⟩)
          ⟨edge, ⟨kind, attrs, bundles.map (Bundle.map tree)⟩, kind, Bundle.relations bundles,
            attrs, Tree.inspector⟩ := by
        rw [← Bundle.relations_map tree]
        exact survey_answers (fun _ => rfl) edge rfl rfl rfl
      have entered : Alike a
          (enter (Onlooker.visitors onlookers A N) (node (Onlooker.visitors onlookers A N) limit)
            (.reading view) label edge n)
          (enter (Onlooker.visitors onlookers A Tree)
            (node (Onlooker.visitors onlookers A Tree) limit') Tree.inspector label edge
            ⟨kind, attrs, bundles.map (Bundle.map tree)⟩) := by
        refine Alike.answered surveyed surveyed' (visitSite_alike rfl rfl rfl rfl ?_)
        refine descend_alike tree rfl rfl ?_ ?_ label ?_
        · intro b hb
          exact answers_read fun v => by rw [reads]; exact relatedOf b hb
        · intro b hb
          exact answers_read fun v => Tree.related_eq ht.wellFormed.names (List.mem_map_of_mem hb)
        · intro b hb r hr label edge
          have hb' : b.map tree ∈ bundles.map (Bundle.map tree) := List.mem_map_of_mem hb
          have hr' : (tree r.1, r.2) ∈ (b.map tree).rights := List.mem_map_of_mem hr
          have hlower := Tree.height_lt (t := ⟨kind, attrs, _⟩) hb' hr'
          exact ih b hb r hr (ht.right hb' hr') (by dsimp only at hlower; omega) label edge
      rw [node, node, level_of_judged (onlooker_judge_eq edge _),
        level_of_judged (onlooker_judge_eq edge _)]
      refine ((onlookers label).letsIn_alike edge).bind fun pass => ?_
      cases pass with
      | true => exact entered
      | false => exact (alike_of_still fun _ => rfl).bind fun _ => alike_pure _

end Walk

/-- **An onlooker cannot tell a node of an arena from the tree that it unfolds to.** Every run of a
walk leaves the same behind, with the same calls of the onlookers noted in the same order. From the
height of the tree on, the limit does not matter. -/
theorem walk_agree (schema : Option Schema) (calls : List (Call Handle)) (root : Handle)
    (there : root.index < (Arena.reached schema calls).size)
    (acyclic : (Arena.reached schema calls).AcyclicBelow root) :
    ∃ t, (Arena.reached schema calls).Unfolds root t ∧
      ∀ (L V R : Type) (onlookers : L → Onlooker L V R) (label : L) (v : V),
        (∀ limit,
          walk (Onlooker.visitors onlookers Arena Handle) limit (Arena.inspector Lens.fst) label
              root (Arena.reached schema calls, v) =
            walk (Onlooker.visitors onlookers Arena Tree) limit Tree.inspector label t
              (Arena.reached schema calls, v)) ∧
        (∀ limit, t.height ≤ limit →
          walk (Onlooker.visitors onlookers Arena Tree) limit Tree.inspector label t
              (Arena.reached schema calls, v) =
            walk (Onlooker.visitors onlookers Arena Tree) t.height Tree.inspector label t
              (Arena.reached schema calls, v)) ∧
        ∀ (log : Lens V (List (Contact L))) (limit : Nat),
          walk (Onlooker.visitors (fun l => (onlookers l).noting log l) Arena Handle) limit
              (Arena.inspector Lens.fst) label root (Arena.reached schema calls, v) =
            walk (Onlooker.visitors (fun l => (onlookers l).noting log l) Arena Tree) limit
              Tree.inspector label t (Arena.reached schema calls, v) := by
  obtain ⟨t, ht⟩ :=
    (Arena.exists_unfolds_iff (Arena.reached_closed schema calls)).2 ⟨there, acyclic⟩
  have hsound := ht.sound (Arena.reached_wellFormed schema calls)
  have agree : ∀ {L V R : Type} (onlookers : L → Onlooker L V R) (label : L) (v : V) (limit : Nat),
      walk (Onlooker.visitors onlookers Arena Handle) limit (Arena.inspector Lens.fst) label root
          (Arena.reached schema calls, v) =
        walk (Onlooker.visitors onlookers Arena Tree) limit Tree.inspector label t
          (Arena.reached schema calls, v) := fun onlookers label v limit =>
    (Walk.node_alike onlookers (fun _ => rfl) (ht.shows hsound) hsound (.inl rfl) label none v).1
  refine ⟨t, ht, fun L V R onlookers label v => ⟨agree onlookers label v, ?_, ?_⟩⟩
  · intro limit hlimit
    exact (Walk.node_alike onlookers (fun _ => rfl) (Tree.shows_self hsound) hsound
      (.inr ⟨hlimit, Nat.le_refl _⟩) label none v).1
  · exact fun log limit => agree _ label v limit

/-- Lists kinds from the root down, and leaves out what is related as `first`. -/
def listKinds : Onlooker Unit Unit (List Kind) where
  gate := some fun edge => Action.pure (edge.all fun way => !decide (way.relation.name = "first"))
  visit _ kind _ _ descent := do
    let findings ← descent none none
    Action.pure (kind :: (findings.flatMap Findings.values).flatten)

theorem walk_agree_listKinds :
    (Arena.reached none Arena.pairCalls).AcyclicBelow ⟨1⟩ ∧
      ∃ t, (Arena.reached none Arena.pairCalls).Unfolds ⟨1⟩ t ∧
        walk (Onlooker.visitors (fun _ => listKinds) Arena Handle) 2 (Arena.inspector Lens.fst) ()
            ⟨1⟩ (Arena.reached none Arena.pairCalls, ()) =
          walk (Onlooker.visitors (fun _ => listKinds) Arena Tree) 2 Tree.inspector () t
            (Arena.reached none Arena.pairCalls, ()) ∧
        (walk (Onlooker.visitors (fun _ => listKinds) Arena Tree) 2 Tree.inspector () t
          (Arena.reached none Arena.pairCalls, ())).outcome =
            .done (some ["pair", "literal", "literal"]) := by
  obtain ⟨t, ht, agree⟩ :=
    walk_agree none Arena.pairCalls ⟨1⟩ (by decide) Arena.acyclicBelow_pair
  have same := (agree Unit Unit (List Kind) (fun _ => listKinds) () ()).1 2
  exact ⟨Arena.acyclicBelow_pair, t, ht, same, by rw [← same]; rfl⟩

end TreeProtocol
