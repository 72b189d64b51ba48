import TreeProtocol.Proofs.Construction.Collecting
import TreeProtocol.Proofs.Keys

/-!
# Keyed plans

The attributes of a right node of a keyed plan come from three places: its key value, what it was
given itself, and what the plan was given for all of its right nodes. A look-up finds the first of
several values under a keyword, and the key value comes first, so it is what right nodes are told
apart by, whatever else stands under the key.

* `KeyedPlan`: a keyed plan with all that it and its right nodes were given, in order.
* `KeyedPlan.judged`: its right nodes are admitted if their key values differ.
* `Builder.Reports`, `Collects.reports`: a node that was constructed shows the right nodes with
  their attributes in order.
* `Builder.RelatesDistinct`, `Underway.relatesDistinct`: when the plan is carried out, all its right
  nodes are related exactly if their key values differ.
* `keyed_as_given`: all this for trees and arenas.
* `Arena.keyed_not_as_given`: what it takes that a node of an arena is left alone.
-/

namespace TreeProtocol

open TreeProtocol.Action

variable {W N : Type}

/-! ## The attributes of a keyed plan -/

/-- A right node of a keyed plan: its key value, how to produce it, and the attributes that it was
given, one call after the other. -/
structure KeyedRight (W N : Type) where
  value : Value
  produce : Action W N
  given : List Attrs := []

/-- The right node before the plan is made. -/
def KeyedRight.supply (r : KeyedRight W N) : RightSupply W N :=
  r.given.foldl RightSupply.withArgs { produce := r.produce }

/-- A keyed plan, and the attributes that it was given for all right nodes, one call after the
other. -/
structure KeyedPlan (W N : Type) where
  name : String
  key : String
  rights : List (KeyedRight W N)
  extra : List Attrs := []

namespace KeyedPlan

/-- The plan as it is made. -/
def plan (p : KeyedPlan W N) : RelationPlan W N :=
  p.extra.foldl RelationPlan.withArgs
    (.keyed p.name p.key (p.rights.map fun r => (r.value, r.supply)))

/-- The key value, then what the right node was given, then what the plan was given. -/
def argsOf (p : KeyedPlan W N) (r : KeyedRight W N) : Attrs :=
  ⟨(p.key, r.value) :: (r.given ++ p.extra).flatMap (·.pairs)⟩

/-- The attributes of all right nodes. -/
def args (p : KeyedPlan W N) : List Attrs := p.rights.map p.argsOf

/-- No two right nodes have equal key values. -/
def Distinct (p : KeyedPlan W N) : Prop :=
  (p.rights.map (·.value)).Pairwise fun x y => x.eqv y = false

/-- The relation that is planned. -/
def relation (p : KeyedPlan W N) : Relation := ⟨p.name, .keyed p.key⟩

end KeyedPlan

theorem RightSupply.foldl_withArgs (calls : List Attrs) (right : RightSupply W N) :
    calls.foldl withArgs right =
      ⟨right.produce, ⟨right.args.pairs ++ calls.flatMap (·.pairs)⟩⟩ := by
  induction calls generalizing right with
  | nil => rw [List.foldl_nil, List.flatMap_nil, List.append_nil]
  | cons args more ih =>
    rw [List.foldl_cons, ih, List.flatMap_cons, ← List.append_assoc]
    rfl

/-- What a plan is given goes to each of its right nodes. -/
theorem RelationPlan.foldl_withArgs (calls : List Attrs) (plan : RelationPlan W N) :
    calls.foldl withArgs plan =
      ⟨plan.relation, plan.rights.map fun right => calls.foldl RightSupply.withArgs right⟩ := by
  induction calls generalizing plan with
  | nil => simp only [List.foldl_nil, List.map_id_fun', id_eq]
  | cons args more ih =>
    simp only [List.foldl_cons]
    rw [ih, withArgs, List.map_map]
    rfl

namespace KeyedPlan

variable {p : KeyedPlan W N}

/-- **The plan** has the right nodes with their attributes in order. -/
theorem plan_eq (p : KeyedPlan W N) :
    p.plan = ⟨p.relation, p.rights.map fun r => ⟨r.produce, p.argsOf r⟩⟩ := by
  rw [plan, RelationPlan.foldl_withArgs, RelationPlan.keyed]
  simp only [List.map_map]
  refine congrArg (RelationPlan.mk p.relation) (List.map_congr_left fun r _ => ?_)
  have supplied : r.supply = ⟨r.produce, ⟨r.given.flatMap (·.pairs)⟩⟩ := by
    rw [KeyedRight.supply, RightSupply.foldl_withArgs]
    rfl
  show p.extra.foldl RightSupply.withArgs
    ⟨r.supply.produce, (∅ : Attrs).push p.key r.value ++ r.supply.args⟩ = _
  rw [supplied, RightSupply.foldl_withArgs, argsOf, List.flatMap_append]
  rfl

theorem plan_relation (p : KeyedPlan W N) : p.plan.relation = p.relation := by rw [plan_eq]

theorem plan_args (p : KeyedPlan W N) : p.plan.rights.map (·.args) = p.args := by
  rw [plan_eq, List.map_map]
  rfl

/-- **The key value comes first**, so it is what is found under the key. -/
theorem get?_argsOf (p : KeyedPlan W N) (r : KeyedRight W N) :
    (p.argsOf r).get? p.key = some r.value := by
  rw [Attrs.get?, argsOf, List.find?_cons_of_pos (by simp)]
  rfl

theorem apart_argsOf (p : KeyedPlan W N) (r s : KeyedRight W N) :
    Attrs.Apart p.key (p.argsOf r) (p.argsOf s) ↔ r.value.eqv s.value = false := by
  constructor
  · exact fun h => h _ _ (p.get?_argsOf r) (p.get?_argsOf s)
  · intro h x y hx hy
    rw [← Option.some.inj ((p.get?_argsOf r).symm.trans hx),
      ← Option.some.inj ((p.get?_argsOf s).symm.trans hy)]
    exact h

/-- **The right nodes are admitted together** exactly if their key values differ. -/
theorem admits_iff (p : KeyedPlan W N) : p.relation.Admits p.args ↔ p.Distinct := by
  have keyed : p.relation.cardinality = .keyed p.key := rfl
  have keys : ∀ a ∈ p.args, a.contains p.key = true := by
    refine List.forall_mem_map.2 fun r _ => ?_
    rw [Attrs.contains, get?_argsOf]
    rfl
  rw [Relation.admits_keyed keyed, Distinct, args, List.pairwise_map, List.pairwise_map]
  constructor
  · rintro ⟨-, apart⟩
    exact apart.imp fun {r s} h => (p.apart_argsOf r s).1 h
  · intro distinct
    exact ⟨keys, distinct.imp fun {r s} h => (p.apart_argsOf r s).2 h⟩

/-- Its right nodes have the attributes in order; each is judged by its key value, whenever it is
judged; and the plan passes its own check exactly if the key values differ. -/
structure Judged (p : KeyedPlan W N) : Prop where
  args : p.plan.rights.map (·.args) = p.args
  accept : ∀ r ∈ p.rights, ∀ existing : List Attrs,
    p.plan.relation.accept existing (p.argsOf r) =
      if Relation.keyTaken p.key r.value existing then
        .error (Fault.keyTaken p.name p.key r.value) else .ok ()
  check : p.plan.check = .ok () ↔ p.Distinct

theorem judged (p : KeyedPlan W N) : p.Judged where
  args := p.plan_args
  accept r _ existing := by
    rw [plan_relation, Relation.accept, relation]
    dsimp only
    rw [get?_argsOf]
  check := by
    have keyed : p.plan.relation.cardinality = .keyed p.key := by rw [plan_relation, relation]
    rw [RelationPlan.check_keyed keyed, Relation.acceptAll_eq_ok_iff, plan_relation, plan_args,
      admits_iff]

end KeyedPlan

/-! ## What is reported -/

namespace Builder

/-- If the plan is carried out among others in a construction that is done, the view shows its right
nodes as they were produced, behind those of the plans before, each with its attributes. -/
def Reports (b : Builder W N) (v : W → View N) (kind : Kind) (attrs : Attrs)
    (before : List (RelationPlan W N)) (p : KeyedPlan W N) (after : List (RelationPlan W N))
    (w : W) : Prop :=
  p.rights ≠ [] → ∀ n, (b.composite kind attrs (before ++ p.plan :: after) w).outcome = .done n →
    ∃ earlier nodes later : List N,
      (b.compositeWatched kind attrs (before ++ p.plan :: after) (w, [])).state.2.filterMap
        Entry.produced? = earlier ++ (nodes ++ later) ∧
      earlier.length = (RelationPlan.requests before).length ∧
      nodes.length = p.rights.length ∧
      (v (b.composite kind attrs (before ++ p.plan :: after) w).state).related p.relation n =
        .ok ⟨nodes.zip p.args⟩

end Builder

/-- What a keyed plan asks for. -/
theorem KeyedPlan.demands_cons (p : KeyedPlan W N) (after : List (RelationPlan W N)) :
    RelationPlan.demands (p.plan :: after) =
      p.args.map (fun args => (p.relation, args)) ++ RelationPlan.demands after := by
  rw [RelationPlan.demands, List.flatMap_cons, p.plan_relation, ← p.plan_args, List.map_map]
  rfl

namespace Builder

variable {b : Builder W N} {Kept : N → W → W → Prop} {Has : W → N → List (Bundle N) → Prop}

/-- **A node that was constructed shows the right nodes of a keyed plan**, if no other plan has its
name, and the view reads what the node has. -/
theorem Collects.reports (collects : b.Collects Kept Has) {v : W → View N}
    (reads : ∀ {w n bundles}, Has w n bundles → ∀ {r : Relation} {c : Bundle N},
      Bundle.find? bundles r.name = some c → (v w).related r n = .ok ⟨c.rights⟩)
    {kind : Kind} {attrs : Attrs} {before after : List (RelationPlan W N)} {p : KeyedPlan W N}
    {w : W} (names : ∀ q ∈ before ++ after, q.relation.name ≠ p.name)
    (alone : b.LeavesAlone Kept kind attrs (before ++ p.plan :: after) w) :
    b.Reports v kind attrs before p after w := by
  intro filled n done
  obtain ⟨made, has, hdemands, hproduced⟩ := collects.composite alone done
  -- The attachments are those for the plans before, for this plan, and for the plans after.
  rw [RelationPlan.demands_append, p.demands_cons] at hdemands
  obtain ⟨xs, rest, rfl, hxs, hrest⟩ := List.map_eq_append_iff.1 hdemands
  obtain ⟨ys, zs, rfl, hys, hzs⟩ := List.map_eq_append_iff.1 hrest
  have earlier : ∀ x ∈ xs, x.relation.name ≠ p.name := by
    intro x hx
    obtain ⟨q, hq, hrelation⟩ := Attachment.exists_plan hxs x hx
    rw [← hrelation]
    exact names q (List.mem_append_left _ hq)
  have later : ∀ x ∈ zs, x.relation.name ≠ p.name := by
    intro x hx
    obtain ⟨q, hq, hrelation⟩ := Attachment.exists_plan hzs x hx
    rw [← hrelation]
    exact names q (List.mem_append_right _ hq)
  have these : ∀ y ∈ ys, y.relation = p.relation := by
    intro y hy
    have demanded := Attachment.mem_demands hy
    rw [Attachment.demands, hys] at demanded
    obtain ⟨_, -, heq⟩ := List.mem_map.1 demanded
    exact (congrArg Prod.fst heq).symm
  have hargs : ys.map (·.args) = p.args := by
    have := congrArg (List.map Prod.snd) hys
    rwa [List.map_map, List.map_map, List.map_id''] at this
    exact fun _ => rfl
  have length : ys.length = p.rights.length := by
    have := congrArg List.length hargs
    rwa [List.length_map, KeyedPlan.args, List.length_map] at this
  have some : ys ≠ [] := by
    rintro rfl
    exact filled (List.length_eq_zero_iff.1 length.symm)
  have found := Attachment.find?_between earlier these later some
  refine ⟨xs.map (·.right), ys.map (·.right), zs.map (·.right), ?_, ?_, ?_, ?_⟩
  · rw [← hproduced, List.map_append, List.map_append]
  · have := congrArg List.length hxs
    rw [RelationPlan.demands_eq, List.length_map, List.length_map] at this
    rw [List.length_map, this]
  · rw [List.length_map, length]
  · rw [← hargs, List.zip_map']
    exact reads has found

/-! ## What is related -/

/-- If the turn of the plan comes in a construction, whatever its own check says, its right nodes
are all related exactly if their key values differ. -/
def RelatesDistinct (b : Builder W N) (kind : Kind) (attrs : Attrs)
    (before : List (RelationPlan W N)) (p : KeyedPlan W N) (w : W) : Prop :=
  ∀ node next, (b.make kind attrs w).outcome = .done node →
    (b.attachPlans kind before node (b.make kind attrs w).state).outcome = .done next →
    ((b.attachRights p.plan.relation p.plan.rights next
      (b.attachPlans kind before node (b.make kind attrs w).state).state).outcome.isDone = true ↔
      p.Distinct)

namespace Underway

variable {Leaves : N → W → N → W → Prop} {Holds : W → N → Kind → List (Bundle N) → Prop}
  {There : W → N → Prop} {kind : Kind}

/-- **When its turn comes**, a keyed plan finds nothing under its name, so its right nodes are
judged by their key values alone. -/
theorem relatesDistinct (underway : b.Underway Leaves Holds There) {attrs : Attrs}
    {before after : List (RelationPlan W N)} {p : KeyedPlan W N} {w : W}
    (made : ∀ node, (b.make kind attrs w).outcome = .done node →
      Holds (b.make kind attrs w).state node kind [])
    (names : ∀ q ∈ before, q.relation.name ≠ p.name)
    (supplies : b.Supplies Leaves kind attrs (before ++ p.plan :: after) w) :
    b.RelatesDistinct kind attrs before p w := by
  intro node next hmade hbefore
  have supplied := supplies node hmade
  rw [RelationPlan.requests, List.flatMap_append, List.flatMap_cons] at supplied
  obtain ⟨bundles, holds, supplied, others⟩ :=
    underway.attachPlans_passed before (made node hmade) supplied hbefore
  have new : Bundle.find? bundles p.plan.relation.name = none := by
    rw [p.plan_relation, KeyedPlan.relation, others p.name names]
    rfl
  rw [underway.attachRights p.plan.rights holds (.nothing new) supplied,
    Relation.acceptAll_eq_ok_iff, p.plan_relation, p.plan_args, p.admits_iff]

end Underway

end Builder

/-! ## The two builders -/

/-- A node of an arena that has bundles is read so. -/
theorem Arena.reads_has {place : Lens W Arena} {w : W} {h : Handle} {bundles : List (Bundle Handle)}
    (has : ∃ slot, (place.get w).slot? h = some slot ∧ slot.bundles = bundles) {r : Relation}
    {c : Bundle Handle} (found : Bundle.find? bundles r.name = some c) :
    (place.get w).view.related r h = .ok ⟨c.rights⟩ := by
  obtain ⟨slot, there, rfl⟩ := has
  exact (Arena.reads there).found found

/-- **Keyed plans as they were given.** The attributes of a right node are its key value under the
key, then what it was given, then what the plan was given; and it is judged by its key value,
whenever it is judged, whatever else stands under the key. So the plan passes its own check exactly
if no two key values are equal.

Let no other plan have its name. When a construction is done, the node shows the right nodes, as
they were produced, with these attributes; a node of an arena does so if the producers leave its
slot alone. When the turn of the plan comes, all its right nodes are related exactly if no two key
values are equal; this is for producers that are done and, in an arena, which has no schema, leave
the node under construction alone and return nodes of the arena. -/
theorem keyed_as_given :
    (∀ (W N : Type) (p : KeyedPlan W N), p.Judged) ∧
    (∀ (W : Type) (p : KeyedPlan W Tree) (kind : Kind) (attrs : Attrs)
        (before after : List (RelationPlan W Tree)) (w : W),
      (∀ q ∈ before ++ after, q.relation.name ≠ p.name) →
      Tree.builder.Reports (fun _ => Tree.view) kind attrs before p after w ∧
      (Tree.builder.Supplies (fun _ _ _ _ => True) kind attrs (before ++ p.plan :: after) w →
        Tree.builder.RelatesDistinct kind attrs before p w)) ∧
    ∀ (W : Type) (place : Lens W Arena) (p : KeyedPlan W Handle) (kind : Kind) (attrs : Attrs)
        (before after : List (RelationPlan W Handle)) (w : W),
      (∀ q ∈ before ++ after, q.relation.name ≠ p.name) →
      ((Arena.builder place).LeavesAlone (Arena.SlotKept place) kind attrs
          (before ++ p.plan :: after) w →
        (Arena.builder place).Reports (fun w => (place.get w).view) kind attrs before p after w) ∧
      ((place.get w).schema = none →
        (Arena.builder place).Supplies (Arena.Contributes place) kind attrs
          (before ++ p.plan :: after) w →
        (Arena.builder place).RelatesDistinct kind attrs before p w) := by
  refine ⟨fun W N p => p.judged, ?_, ?_⟩
  · intro W p kind attrs before after w names
    constructor
    · refine Tree.collects.reports ?_ names fun _ _ => Builder.leftAlone_tree
      rintro w t bundles rfl r c found
      exact t.reads.found found
    · intro supplies
      refine Tree.underway.relatesDistinct ?_ (fun q hq => names q (List.mem_append_left _ hq))
        supplies
      rintro node made
      obtain rfl := Outcome.done.inj made
      exact ⟨rfl, rfl⟩
  · intro W place p kind attrs before after w names
    constructor
    · exact fun alone => (Arena.collects place).reports Arena.reads_has names alone
    · intro free supplies
      refine (Arena.underway place).relatesDistinct ?_
        (fun q hq => names q (List.mem_append_left _ hq)) supplies
      intro node made
      obtain ⟨outcome, still, fresh⟩ := Arena.make_unchecked free kind attrs
      obtain rfl : ⟨(place.get w).size⟩ = node := Outcome.done.inj (outcome.symm.trans made)
      show (place.get ((Arena.make kind attrs).zoom place w).state).schema = none ∧
        (place.get ((Arena.make kind attrs).zoom place w).state).Open _ kind []
      rw [get_zoom]
      exact ⟨still, fresh⟩

/-- Two fields with different key values, both of which were given another value under the key, as
was the plan. -/
def clashingFields (produce : Action W N) : KeyedPlan W N where
  name := "fields"
  key := "id"
  rights :=
    [{ value := .text "x", produce, given := [(∅ : Attrs).push "id" (.text "z")] },
      { value := .text "y", produce,
        given := [(∅ : Attrs).push "note" .nil, (∅ : Attrs).push "id" (.text "z")] }]
  extra := [(∅ : Attrs).push "id" (.text "z")]

/-- The attributes of the fields, key values first. -/
def clashingArgs : List Attrs :=
  [⟨[("id", .text "x"), ("id", .text "z"), ("id", .text "z")]⟩,
    ⟨[("id", .text "y"), ("note", .nil), ("id", .text "z"), ("id", .text "z")]⟩]

/-- The fields as trees. -/
def treeFields : KeyedPlan Unit Tree := clashingFields (Action.pure (Tree.make "field" ∅))

/-- The fields as new nodes of an arena. -/
def arenaFields : KeyedPlan Arena Handle :=
  clashingFields ((Arena.builder Lens.whole).leaf "field" ∅)

/-- They are accepted by the check of the plan and as they are related, and the record shows them,
be it a tree or the first node of an arena. -/
theorem keyed_as_given_clashing :
    treeFields.plan.check = .ok () ∧
      (∃ (t : Tree) (nodes : List Tree),
        (Tree.builder.composite "record" ∅ ([.many "items" []] ++ [treeFields.plan]) ()).outcome =
          .done t ∧ nodes.length = 2 ∧
        Tree.view.related ⟨"fields", .keyed "id"⟩ t = .ok ⟨nodes.zip clashingArgs⟩) ∧
      (∃ nodes : List Handle, nodes.length = 2 ∧
        ((Arena.builder Lens.whole).composite "record" ∅ ([] ++ [arenaFields.plan])
          Arena.empty).state.view.related ⟨"fields", .keyed "id"⟩ ⟨0⟩ =
          .ok ⟨nodes.zip clashingArgs⟩) ∧
      ((Arena.builder Lens.whole).attachRights ⟨"fields", .keyed "id"⟩ arenaFields.plan.rights ⟨0⟩
        { slots := [{ kind := "record", attrs := ∅ }] }).outcome.isDone = true := by
  obtain ⟨plans, trees, arenas⟩ := keyed_as_given
  have unequal : (Value.text "x").eqv (.text "y") = false := by decide
  have distinct : ∀ (W N : Type) (produce : Action W N), (clashingFields produce).Distinct :=
    fun _ _ _ => List.pairwise_pair.2 unequal
  obtain ⟨reports, -⟩ := trees Unit treeFields "record" ∅ [.many "items" []] [] () (by decide)
  obtain ⟨reports', relates⟩ := arenas Arena Lens.whole arenaFields "record" ∅ [] [] Arena.empty
    (by decide)
  refine ⟨(plans Unit Tree treeFields).check.2 (distinct _ _ _), ?_, ?_, ?_⟩
  · have done : (Tree.builder.composite "record" ∅ ([.many "items" []] ++ [treeFields.plan])
        ()).outcome = .done _ := rfl
    obtain ⟨_, nodes, _, -, -, two, related⟩ := reports (List.cons_ne_nil _ _) _ done
    exact ⟨_, nodes, done, two, related⟩
  · have alone : (Arena.builder Lens.whole).LeavesAlone (Arena.SlotKept Lens.whole) "record" ∅
        ([] ++ [arenaFields.plan]) Arena.empty := by
      rintro node made
      cases made
      rintro produced done
      cases done
      refine ⟨rfl, ?_⟩
      rintro next related
      cases related
      rintro produced done
      cases done
      exact ⟨rfl, fun _ _ => trivial⟩
    obtain ⟨_, nodes, _, -, -, two, related⟩ := reports' alone (List.cons_ne_nil _ _) ⟨0⟩ rfl
    exact ⟨nodes, two, related⟩
  · have supplies : (Arena.builder Lens.whole).Supplies (Arena.Contributes Lens.whole) "record" ∅
        ([] ++ [arenaFields.plan]) Arena.empty := by
      rintro node made
      cases made
      refine ⟨⟨1⟩, rfl, ⟨⟨rfl, id⟩, by decide⟩, ?_⟩
      rintro next related
      cases related
      exact ⟨⟨2⟩, rfl, ⟨⟨rfl, id⟩, by decide⟩, fun _ _ => trivial⟩
    exact (relates rfl supplies ⟨0⟩ ⟨0⟩ rfl rfl).2 (distinct _ _ _)

/-- Takes back the session in which a record was begun, begins another one, and makes a field. -/
def reopening : Action Arena Handle := do
  (Arena.builder Lens.whole).close .aborted
  let _ ← (Arena.builder Lens.whole).make "record" ∅
  (Arena.builder Lens.whole).leaf "field" ∅

/-- Two fields, of which the second one is produced in this way. -/
def reopenedFields : KeyedPlan Arena Handle where
  name := "fields"
  key := "id"
  rights :=
    [{ value := .text "x", produce := (Arena.builder Lens.whole).leaf "field" ∅ },
      { value := .text "y", produce := reopening }]

/-- One field that nobody made. -/
def strangeField : KeyedPlan Arena Handle where
  name := "fields"
  key := "id"
  rights := [{ value := .text "x", produce := Action.pure ⟨99⟩ }]

/-- **A producer that interferes** makes a record of an arena lose the first of its fields, so that
it does not show it. And with a field that is **no node of the arena**, the fields are not all
related, although no two key values are equal. -/
theorem Arena.keyed_not_as_given :
    (¬ ∀ (W : Type) (place : Lens W Arena) (p : KeyedPlan W Handle) (kind : Kind) (attrs : Attrs)
        (before after : List (RelationPlan W Handle)) (w : W),
        (∀ q ∈ before ++ after, q.relation.name ≠ p.name) → (place.get w).schema = none →
        (Arena.builder place).Reports (fun w => (place.get w).view) kind attrs before p after w) ∧
      ¬ ∀ (W : Type) (place : Lens W Arena) (p : KeyedPlan W Handle) (kind : Kind) (attrs : Attrs)
        (before after : List (RelationPlan W Handle)) (w : W),
        (∀ q ∈ before ++ after, q.relation.name ≠ p.name) → (place.get w).schema = none →
        (Arena.builder place).Supplies (fun _ _ _ _ => True) kind attrs
          (before ++ p.plan :: after) w →
        (Arena.builder place).RelatesDistinct kind attrs before p w := by
  constructor
  · intro alwaysReports
    have reports := alwaysReports Arena Lens.whole reopenedFields "record" ∅ [] []
      { marks := [{ length := 0 }] } (by decide) rfl
    obtain ⟨_, nodes, _, -, -, two, related⟩ := reports (List.cons_ne_nil _ _) ⟨0⟩ rfl
    have one := congrArg (fun r => r.toOption.map Related.size) related
    have last : some 1 = some (nodes.zip reopenedFields.args).length := one
    rw [List.length_zip, two] at last
    cases last
  · intro alwaysRelates
    have relates := alwaysRelates Arena Lens.whole strangeField "record" ∅ [] [] Arena.empty
      (by decide) rfl fun node made => ⟨⟨99⟩, rfl, trivial, fun _ _ => trivial⟩
    have done := (relates ⟨0⟩ ⟨0⟩ rfl rfl).2 (List.pairwise_singleton _ _)
    cases done

end TreeProtocol
