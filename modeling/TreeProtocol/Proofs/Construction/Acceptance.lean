import TreeProtocol.Proofs.Arena.Outcomes
import TreeProtocol.Proofs.Construction.Joint
import TreeProtocol.Proofs.Construction.Script
import TreeProtocol.Proofs.Lookups

/-!
# Which plans are accepted

Composite construction checks every plan by itself before anything is made, and the right nodes
once more as they are related, one behind the other, over all plans. What passes both is said here
of the plans alone, for the builder of trees and for that of arenas without a schema.

* `Builder.Supplies`: the producers do their part, in this very run.
* `Builder.Underway`: a node under construction has the bundles that were asked of it so far.
* `Underway.supplying`: a script is carried out to its end exactly if all that it asks goes
  together. Induction on the right nodes that are still to come.
* `Underway.attachRights`, `Underway.attachPlans_passed`: the same of the right nodes of one
  relation, and what plans that were carried out leave behind.
* `Decided`: composite construction is done exactly if every plan is right by itself and all plans
  are compatible; with distinct names the first is enough, and nothing is refused on the way.
* `composite_decided`: both builders are decided.
-/

namespace TreeProtocol

variable {W N : Type}

/-- What plans ask of the node is what their right nodes are requested for. -/
theorem RelationPlan.demands_eq (plans : List (RelationPlan W N)) :
    demands plans = (requests plans).map fun x => (x.1, x.2.args) := by
  rw [demands, requests, List.map_flatMap]
  simp only [List.map_map, Function.comp_def]

namespace Builder

/-! ## Producers -/

/-- Each right node whose turn comes is produced. `Leaves` says what its production leaves behind,
given the node under construction, the state before, the right node and the state after. -/
def Supplied (b : Builder W N) (Leaves : N → W → N → W → Prop) :
    List (Relation × RightSupply W N) → N → W → Prop
  | [], _, _ => True
  | (relation, right) :: more, node, w =>
    ∃ produced, (right.produce w).outcome = .done produced ∧
      Leaves node w produced (right.produce w).state ∧
      ∀ next, (b.relate relation node produced right.args (right.produce w).state).outcome =
          .done next →
        b.Supplied Leaves more next
          (b.relate relation node produced right.args (right.produce w).state).state

/-- The right nodes of the plans are produced in the run of composite construction. -/
def Supplies (b : Builder W N) (Leaves : N → W → N → W → Prop) (kind : Kind) (attrs : Attrs)
    (plans : List (RelationPlan W N)) (w : W) : Prop :=
  ∀ node, (b.make kind attrs w).outcome = .done node →
    b.Supplied Leaves (RelationPlan.requests plans) node (b.make kind attrs w).state

/-! ## Nodes under construction -/

/-- `Holds` says of a node in a state that it is under construction, of a kind, with some bundles. A
right node that is produced can be related to it if its bundles accept it, and not otherwise, and
it can be finished. -/
structure Underway (b : Builder W N) (Leaves : N → W → N → W → Prop)
    (Holds : W → N → Kind → List (Bundle N) → Prop) (There : W → N → Prop) : Prop where
  produced : ∀ {w w' node kind bundles right}, Holds w node kind bundles →
    Leaves node w right w' → Holds w' node kind bundles ∧ There w' right
  related : ∀ {w node kind bundles relation right args next}, Holds w node kind bundles →
    There w right → Bundle.Attached relation right args bundles next →
    ∃ node', (b.relate relation node right args w).outcome = .done node' ∧
      Holds (b.relate relation node right args w).state node' kind next
  refused : ∀ {w node kind bundles relation right args}, Holds w node kind bundles →
    There w right → (¬ ∃ next, Bundle.Attached relation right args bundles next) →
    (b.relate relation node right args w).outcome.isDone = false
  finished : ∀ {w node kind bundles}, Holds w node kind bundles →
    (b.finish kind node w).outcome.isDone = true

namespace Underway

variable {b : Builder W N} {Leaves : N → W → N → W → Prop}
  {Holds : W → N → Kind → List (Bundle N) → Prop} {There : W → N → Prop}

/-- **Run lemma.** A node that was asked for what goes together, and that is to be asked for more,
is finished exactly if all of this goes together. -/
theorem supplying (underway : b.Underway Leaves Holds There) {kind : Kind}
    (requests : List (Relation × RightSupply W N)) (asked : List (Attachment N)) {node : N}
    {w w' : W} {log : List (Entry W N)} {o : Outcome N}
    (joint : Relation.Joint (Attachment.demands asked))
    (holds : Holds w node kind (Attachment.bundles asked))
    (supplied : b.Supplied Leaves requests node w)
    (trace : (Script.supplying kind requests node).Trace b w log o w') :
    o.isDone = true ↔
      Relation.Joint (Attachment.demands asked ++ requests.map fun x => (x.1, x.2.args)) := by
  induction requests generalizing asked node w log with
  | nil =>
    rw [Script.supplying] at trace
    cases trace with
    | last effect w =>
      rw [List.map_nil, List.append_nil]
      exact iff_of_true (underway.finished holds) joint
  | cons request more ih =>
    obtain ⟨relation, right⟩ := request
    obtain ⟨produced, hproduced, leaves, hmore⟩ := supplied
    rw [Script.supplying] at trace
    obtain ⟨rest, trace⟩ := trace.after hproduced
    obtain ⟨holds, there⟩ := underway.produced holds leaves
    have hsplit : Attachment.demands asked ++
          ((relation, right) :: more).map (fun x => (x.1, x.2.args)) =
        Attachment.demands (asked ++ [⟨relation, produced, right.args⟩]) ++
          more.map fun x => (x.1, x.2.args) := by
      simp [Attachment.demands]
    rw [hsplit]
    -- The right node goes together with what was asked for before, or the run ends here.
    by_cases attached :
        ∃ next, Bundle.Attached relation produced right.args (Attachment.bundles asked) next
    · have joint' : Relation.Joint
          (Attachment.demands (asked ++ [⟨relation, produced, right.args⟩])) := by
        rw [Attachment.demands, List.map_append]
        exact (Attachment.attached_iff joint).1 attached
      obtain ⟨next, attached⟩ := attached
      obtain ⟨node', hrelated, holds'⟩ := underway.related holds there attached
      rw [Attachment.bundles_of_attached attached] at holds'
      obtain ⟨rest', trace⟩ := trace.after hrelated
      exact ih _ joint' holds' (hmore node' hrelated) trace
    · have cut : o.isDone = false := trace.of_cut (underway.refused holds there attached)
      have apart : ¬ Relation.Joint (Attachment.demands asked ++ [(relation, right.args)]) :=
        fun h => attached ((Attachment.attached_iff joint).2 h)
      rw [cut]
      refine iff_of_false Bool.false_ne_true fun h => apart ?_
      rw [Attachment.demands, List.map_append] at h
      exact h.of_append

variable {kind : Kind} {relation : Relation}

/-- What is related was attached. -/
theorem related_of_done (underway : b.Underway Leaves Holds There) {w : W} {node right next : N}
    {bundles : List (Bundle N)} {args : Attrs} (holds : Holds w node kind bundles)
    (there : There w right) (done : (b.relate relation node right args w).outcome = .done next) :
    ∃ bundles', Bundle.Attached relation right args bundles bundles' ∧
      Holds (b.relate relation node right args w).state next kind bundles' := by
  by_cases attached : ∃ bundles', Bundle.Attached relation right args bundles bundles'
  · obtain ⟨bundles', attached⟩ := attached
    obtain ⟨node', hrelated, holds'⟩ := underway.related holds there attached
    rw [done] at hrelated
    obtain rfl := Outcome.done.inj hrelated
    exact ⟨bundles', attached, holds'⟩
  · have refused := underway.refused holds there attached
    rw [done] at refused
    cases refused

/-- **The right nodes of a relation** are all related exactly if they are accepted one after the
other. Induction on the right nodes. -/
theorem attachRights (underway : b.Underway Leaves Holds There) (rights : List (RightSupply W N))
    {more : List (Relation × RightSupply W N)} {w : W} {node : N} {bundles : List (Bundle N)}
    {existing : List Attrs} (holds : Holds w node kind bundles)
    (under : Bundle.Under relation bundles existing)
    (supplied : b.Supplied Leaves (rights.map (fun right => (relation, right)) ++ more) node w) :
    (b.attachRights relation rights node w).outcome.isDone = true ↔
      relation.acceptAll existing (rights.map (·.args)) = .ok () := by
  induction rights generalizing w node bundles existing with
  | nil => exact iff_of_true rfl rfl
  | cons right rest ih =>
    obtain ⟨produced, hproduced, leaves, hmore⟩ := supplied
    obtain ⟨holds, there⟩ := underway.produced holds leaves
    rw [Builder.attachRights, Action.bind_of_done hproduced, Ran.after_outcome, List.map_cons,
      Relation.acceptAll_cons]
    cases accepted : relation.accept existing right.args with
    | ok u =>
      obtain ⟨next, attached⟩ := under.attached accepted produced
      obtain ⟨node', hrelated, holds'⟩ := underway.related holds there attached
      obtain ⟨existing', under', -, last⟩ := attached.under
      rw [under'.unique under] at last
      rw [Action.bind_of_done hrelated, Ran.after_outcome, ih holds' last (hmore node' hrelated)]
      exact ⟨fun h => ⟨rfl, h⟩, fun h => h.2⟩
    | error e =>
      have apart : ¬ ∃ next, Bundle.Attached relation produced right.args bundles next := by
        rintro ⟨next, attached⟩
        have refusal := under.refused accepted produced none
        rw [attached.attach_eq] at refusal
        cases refusal
      have refused := underway.refused holds there apart
      refine iff_of_false ?_ ?_
      · rw [Action.isDone_bind refused]
        exact Bool.false_ne_true
      · rintro ⟨h, -⟩
        cases h

/-- Related right nodes leave the node under construction, and nothing changes under other names. -/
theorem attachRights_passed (underway : b.Underway Leaves Holds There)
    (rights : List (RightSupply W N)) {more : List (Relation × RightSupply W N)} {w : W}
    {node next : N} {bundles : List (Bundle N)} (holds : Holds w node kind bundles)
    (supplied : b.Supplied Leaves (rights.map (fun right => (relation, right)) ++ more) node w)
    (done : (b.attachRights relation rights node w).outcome = .done next) :
    ∃ bundles', Holds (b.attachRights relation rights node w).state next kind bundles' ∧
      b.Supplied Leaves more next (b.attachRights relation rights node w).state ∧
      ∀ name, relation.name ≠ name → Bundle.find? bundles' name = Bundle.find? bundles name := by
  induction rights generalizing w node bundles with
  | nil =>
    obtain rfl := Outcome.done.inj done
    exact ⟨bundles, holds, supplied, fun _ _ => rfl⟩
  | cons right rest ih =>
    obtain ⟨produced, hproduced, leaves, hmore⟩ := supplied
    obtain ⟨holds, there⟩ := underway.produced holds leaves
    rw [Builder.attachRights, Action.bind_of_done hproduced] at done ⊢
    obtain ⟨node', hrelated, done, hstate⟩ := Action.done_of_bind done
    obtain ⟨bundles', attached, holds'⟩ := underway.related_of_done holds there hrelated
    obtain ⟨last, hlast, supplied', others⟩ := ih holds' (hmore node' hrelated) done
    rw [Ran.after_state, hstate]
    refine ⟨last, hlast, supplied', fun name hne => ?_⟩
    rw [others name hne, attached.find?_of_ne hne]

/-- The same of plans that are carried out. -/
theorem attachPlans_passed (underway : b.Underway Leaves Holds There)
    (plans : List (RelationPlan W N)) {more : List (Relation × RightSupply W N)} {w : W}
    {node next : N} {bundles : List (Bundle N)} (holds : Holds w node kind bundles)
    (supplied : b.Supplied Leaves (RelationPlan.requests plans ++ more) node w)
    (done : (b.attachPlans kind plans node w).outcome = .done next) :
    ∃ bundles', Holds (b.attachPlans kind plans node w).state next kind bundles' ∧
      b.Supplied Leaves more next (b.attachPlans kind plans node w).state ∧
      ∀ name, (∀ q ∈ plans, q.relation.name ≠ name) →
        Bundle.find? bundles' name = Bundle.find? bundles name := by
  induction plans generalizing w node bundles with
  | nil =>
    obtain rfl := Outcome.done.inj done
    exact ⟨bundles, holds, supplied, fun _ _ => rfl⟩
  | cons plan rest ih =>
    rw [RelationPlan.requests, List.flatMap_cons, List.append_assoc] at supplied
    rw [Builder.attachPlans] at done ⊢
    obtain ⟨_, _, done, hstate⟩ := Action.done_of_bind done
    obtain ⟨node', hfilled, done, hstate'⟩ := Action.done_of_bind done
    obtain ⟨filled, hfill, supplied', others⟩ :=
      underway.attachRights_passed plan.rights holds supplied hfilled
    obtain ⟨last, hlast, supplied'', others'⟩ := ih hfill supplied' done
    rw [hstate, hstate']
    refine ⟨last, hlast, supplied'', fun name names => ?_⟩
    obtain ⟨hplan, hrest⟩ := List.forall_mem_cons.1 names
    rw [others' name hrest, others name hplan]

end Underway

/-! ## Decided plans -/

/-- Whether composite construction is done is decided by the plans alone. -/
structure Decided (b : Builder W N) (kind : Kind) (attrs : Attrs) (plans : List (RelationPlan W N))
    (w : W) : Prop where
  done_iff : (b.composite kind attrs plans w).outcome.isDone = true ↔
    (∀ p ∈ plans, p.check = .ok ()) ∧ RelationPlan.Compatible plans
  distinct : (plans.map (·.relation.name)).Nodup →
    ((b.composite kind attrs plans w).outcome.isDone = true ↔ ∀ p ∈ plans, p.check = .ok ())
  related : (plans.map (·.relation.name)).Nodup →
    ∀ relation left right args o, .carried (.relate relation left right args) o ∈
      (b.compositeWatched kind attrs plans (w, [])).state.2 → o.isDone = true

/-- **Whatever builds nodes in this way is decided**, once a node was made. -/
theorem Underway.decided {b : Builder W N} {Leaves : N → W → N → W → Prop}
    {Holds : W → N → Kind → List (Bundle N) → Prop} {There : W → N → Prop}
    (underway : b.Underway Leaves Holds There) {kind : Kind} {attrs : Attrs}
    {plans : List (RelationPlan W N)} {w : W} {node : N}
    (made : (b.make kind attrs w).outcome = .done node)
    (holds : Holds (b.make kind attrs w).state node kind [])
    (supplies : b.Supplies Leaves kind attrs plans w) : b.Decided kind attrs plans w := by
  have done_iff : (b.composite kind attrs plans w).outcome.isDone = true ↔
      (∀ p ∈ plans, p.check = .ok ()) ∧ RelationPlan.Compatible plans := by
    rw [← RelationPlan.checkAll_eq_ok_iff]
    cases hplans : RelationPlan.checkAll plans with
    | error e =>
      rw [composite_of_refused b kind attrs hplans w]
      exact iff_of_false Bool.false_ne_true fun h => nomatch h.1
    | ok u =>
      obtain ⟨log, trace, -, -⟩ := performs_composite b kind attrs hplans w []
      obtain ⟨rest, trace⟩ := trace.after made
      have joint := underway.supplying (RelationPlan.requests plans) [] Relation.joint_nil
        holds (supplies node made) trace
      rw [joint, RelationPlan.compatible_iff, RelationPlan.demands_eq]
      exact ⟨fun h => ⟨rfl, h⟩, fun h => h.2⟩
  have distinct : (plans.map (·.relation.name)).Nodup →
      ((b.composite kind attrs plans w).outcome.isDone = true ↔
        ∀ p ∈ plans, p.check = .ok ()) := by
    intro names
    rw [done_iff]
    exact ⟨fun h => h.1, fun h => ⟨h, RelationPlan.compatible_of_nodup names h⟩⟩
  refine ⟨done_iff, distinct, ?_⟩
  intro names relation left right args o hentry
  cases hplans : RelationPlan.checkAll plans with
  | error e =>
    have hwatched := RelationPlan.checkAll_watched b plans
    rw [hplans] at hwatched
    rw [compositeWatched, composite_of_refused b.watched kind attrs hwatched] at hentry
    exact absurd hentry List.not_mem_nil
  | ok u =>
    obtain ⟨log, trace, -, state⟩ := performs_composite b kind attrs hplans w []
    have done := (distinct names).2 (RelationPlan.checkAll_eq_ok_iff.1 hplans)
    obtain ⟨before, last, hlog, hbefore⟩ := trace.split
    rw [state, List.nil_append, hlog] at hentry
    rcases List.mem_append.1 hentry with hmem | hmem
    · obtain ⟨effect, result, heq⟩ := hbefore _ hmem
      cases heq
      rfl
    · cases List.mem_singleton.1 hmem
      exact done

end Builder

/-! ## Trees -/

/-- A tree under construction is a tree of the kind with the bundles. -/
theorem Tree.underway : (Tree.builder (W := W)).Underway (fun _ _ _ _ => True)
    (fun _ t kind bundles => t.kind = kind ∧ t.bundles = bundles) (fun _ _ => True) where
  produced holds _ := ⟨holds, trivial⟩
  related := by
    rintro w t kind bundles relation right args next ⟨hkind, rfl⟩ - attached
    have hrelate : Tree.relate relation t right args = .ok { t with bundles := next } :=
      Tree.relate_eq_ok_iff.2 ⟨next, attached, rfl⟩
    refine ⟨{ t with bundles := next }, ?_, hkind, rfl⟩
    show Outcome.ofExcept (Tree.relate relation t right args) = _
    rw [hrelate]
    rfl
  refused := by
    rintro w t kind bundles relation right args ⟨-, rfl⟩ - apart
    show (Outcome.ofExcept (Tree.relate relation t right args)).isDone = false
    cases hrelate : Tree.relate relation t right args with
    | error e => rfl
    | ok t' =>
      obtain ⟨next, attached, -⟩ := Tree.relate_eq_ok_iff.1 hrelate
      exact absurd ⟨next, attached⟩ apart
  finished := by
    rintro w t kind bundles ⟨hkind, -⟩
    show (Outcome.ofExcept (Tree.finish kind t)).isDone = true
    rw [Tree.finish_eq_ok_iff.2 ⟨hkind, rfl⟩]
    rfl

/-! ## Arenas -/

namespace Arena

variable {a : Arena} {node right : Handle} {slot : Slot}

/-- The node is there and unfinished, of the kind and with the bundles. -/
def Open (a : Arena) (node : Handle) (kind : Kind) (bundles : List (Bundle Handle)) : Prop :=
  ∃ slot, a.slot? node = some slot ∧ slot.finished = false ∧ slot.kind = kind ∧
    slot.bundles = bundles

/-- Production leaves the node under construction as it is, and no schema appears. -/
def Untouched (place : Lens W Arena) (node : Handle) (w w' : W) : Prop :=
  (place.get w').slot? node = (place.get w).slot? node ∧
    ((place.get w).schema = none → (place.get w').schema = none)

/-- Moreover, what is produced is a node of the arena. -/
def Contributes (place : Lens W Arena) (node : Handle) (w : W) (right : Handle) (w' : W) : Prop :=
  Untouched place node w w' ∧ right.index < (place.get w').size

theorem underway (place : Lens W Arena) : (builder place).Underway (Contributes place)
    (fun w node kind bundles => (place.get w).schema = none ∧ (place.get w).Open node kind bundles)
    (fun w right => right.index < (place.get w).size) where
  produced := by
    rintro w w' node kind bundles right ⟨free, slot, hslot, hopen⟩ ⟨⟨same, schema⟩, there⟩
    exact ⟨⟨schema free, slot, same.trans hslot, hopen⟩, there⟩
  related := by
    rintro w node kind bundles relation right args next ⟨free, slot, hslot, hopen, rfl, rfl⟩ there
      attached
    have hrelate := relate_unchecked relation args free there hslot hopen
    rw [attached.attach_eq] at hrelate
    refine ⟨node, ?_, ?_⟩
    · show (relate relation node right args (place.get w)).outcome = _
      rw [hrelate]
    · show (place.get ((relate relation node right args).zoom place w).state).schema = none ∧
        (place.get ((relate relation node right args).zoom place w).state).Open node slot.kind next
      rw [Action.get_zoom, hrelate]
      refine ⟨?_, { slot with bundles := next }, slot?_setSlot (slot?_lt hslot) _, hopen, rfl, rfl⟩
      show ((place.get w).touch node).schema = none
      rw [schema_touch, free]
  refused := by
    rintro w node kind bundles relation right args ⟨free, slot, hslot, hopen, -, rfl⟩ there apart
    have hrelate := relate_unchecked relation args free there hslot hopen
    show (relate relation node right args (place.get w)).outcome.isDone = false
    rw [hrelate]
    cases hattach : Bundle.attach relation right args slot.attrs.bounds? slot.bundles with
    | error e => rfl
    | ok next => exact absurd ⟨next, Bundle.attach_attached hattach⟩ apart
  finished := by
    rintro w node kind bundles ⟨free, slot, hslot, hopen, rfl, -⟩
    have hunfinished : ¬ slot.finished = true := by simp [hopen]
    show (finish slot.kind node (place.get w)).outcome.isDone = true
    rw [finish, slotOf_of_there hslot]
    dsimp only
    rw [checkFinish, if_neg (not_not.2 rfl), if_neg hunfinished, checked_of_none free]
    rfl

/-- A made node is under construction. -/
theorem make_unchecked (free : a.schema = none) (kind : Kind) (attrs : Attrs) :
    (make kind attrs a).outcome = .done ⟨a.size⟩ ∧ (make kind attrs a).state.schema = none ∧
      (make kind attrs a).state.Open ⟨a.size⟩ kind [] := by
  rw [make, checked_of_none free]
  exact ⟨rfl, free, { kind, attrs }, by simp [slot?, size], rfl, rfl, rfl⟩

end Arena

/-- A right node that nobody made. -/
def strangePlans : List (RelationPlan Arena Handle) := [.many "items" [.existing ⟨99⟩]]

/-- A right node that is **no node of the arena** is refused, though it is produced without fail and
the plan is right. -/
theorem Arena.strange_right_refused :
    ¬ ∀ (W : Type) (place : Lens W Arena) (kind : Kind) (attrs : Attrs)
        (plans : List (RelationPlan W Handle)) (w : W), (place.get w).schema = none →
        (Arena.builder place).Supplies (fun node w _ w' => Untouched place node w w') kind attrs
          plans w →
        (((Arena.builder place).composite kind attrs plans w).outcome.isDone = true ↔
          (∀ p ∈ plans, p.check = .ok ()) ∧ RelationPlan.Compatible plans) := by
  intro plansDecide
  have supplies : (Arena.builder Lens.whole).Supplies
      (fun node w _ w' => Untouched Lens.whole node w w') "record" ∅ strangePlans Arena.empty :=
    fun node made => ⟨⟨99⟩, rfl, ⟨rfl, id⟩, fun next related => trivial⟩
  have checked : ∀ p ∈ strangePlans, p.check = .ok () :=
    RelationPlan.checkAll_eq_ok_iff.1 rfl
  have compatible : RelationPlan.Compatible strangePlans :=
    RelationPlan.compatible_of_nodup (List.nodup_singleton _) checked
  have decided := plansDecide Arena Lens.whole "record" ∅ strangePlans Arena.empty rfl supplies
  have done := decided.2 ⟨checked, compatible⟩
  cases done

/-- **Which plans are accepted.** By the builder of trees, and by the builder of an arena without a
schema, composite construction is done exactly if every plan is right by itself and the plans are
compatible: those of one name that have right nodes have one cardinality, which admits all their
right nodes together. With distinct names every plan that is right by itself is accepted, and no
right node is refused. All this is for producers that do their part: they are done, and on an arena
they leave the node under construction alone and return nodes of the arena. -/
theorem composite_decided :
    (∀ (W : Type) (kind : Kind) (attrs : Attrs) (plans : List (RelationPlan W Tree)) (w : W),
        Tree.builder.Supplies (fun _ _ _ _ => True) kind attrs plans w →
        Tree.builder.Decided kind attrs plans w) ∧
      ∀ (W : Type) (place : Lens W Arena) (kind : Kind) (attrs : Attrs)
        (plans : List (RelationPlan W Handle)) (w : W), (place.get w).schema = none →
        (Arena.builder place).Supplies (Arena.Contributes place) kind attrs plans w →
        (Arena.builder place).Decided kind attrs plans w := by
  constructor
  · intro W kind attrs plans w supplies
    have made : (Tree.builder.make kind attrs w).outcome = .done (Tree.make kind attrs) := rfl
    exact Tree.underway.decided made ⟨rfl, rfl⟩ supplies
  · intro W place kind attrs plans w free supplies
    obtain ⟨made, still, fresh⟩ := Arena.make_unchecked free kind attrs
    have holds : (place.get ((Arena.builder place).make kind attrs w).state).schema = none ∧
        (place.get ((Arena.builder place).make kind attrs w).state).Open ⟨(place.get w).size⟩
          kind [] := by
      show (place.get ((Arena.make kind attrs).zoom place w).state).schema = none ∧
        (place.get ((Arena.make kind attrs).zoom place w).state).Open _ kind []
      rw [Action.get_zoom]
      exact ⟨still, fresh⟩
    exact (Arena.underway place).decided made holds supplies

/-- A keyed relation whose right nodes are planned in two parts, around a plan without any. -/
def keysInParts : List (RelationPlan Unit Tree) :=
  [.keyed "fields" "id" [(.text "x", .existing (Tree.make "field" ∅))], .many "items" [],
    .keyed "fields" "id" [(.text "y", .existing (Tree.make "field" ∅))]]

/-- An optional relation that is planned twice, with a new node each time. -/
def newTwice : List (RelationPlan Arena Handle) :=
  [.optional "first" (some ⟨(Arena.builder Lens.whole).leaf "item" ∅, ∅⟩),
    .optional "first" (some ⟨(Arena.builder Lens.whole).leaf "item" ∅, ∅⟩)]

/-- Keys that differ go together over two plans, and a relation for one right node does not. -/
theorem composite_decided_parts :
    (Tree.builder.composite "record" ∅ keysInParts ()).outcome.isDone = true ∧
      ((Arena.builder Lens.whole).composite "record" ∅ newTwice Arena.empty).outcome.isDone =
        false := by
  constructor
  · have supplies : Tree.builder.Supplies (fun _ _ _ _ => True) "record" ∅ keysInParts () :=
      fun node made => ⟨_, rfl, trivial, fun next related => ⟨_, rfl, trivial, fun _ _ => trivial⟩⟩
    have checked : ∀ p ∈ keysInParts, p.check = .ok () :=
      RelationPlan.checkAll_eq_ok_iff.1 rfl
    have first : Relation.Joint [(⟨"fields", .keyed "id"⟩, (∅ : Attrs).push "id" (.text "x"))] :=
      Relation.joint_concat.2 ⟨Relation.joint_nil, by simp, rfl⟩
    have both : Relation.Joint ([(⟨"fields", .keyed "id"⟩, (∅ : Attrs).push "id" (.text "x"))] ++
        [(⟨"fields", .keyed "id"⟩, (∅ : Attrs).push "id" (.text "y"))]) :=
      Relation.joint_concat.2 ⟨first, by simp, rfl⟩
    have compatible : RelationPlan.Compatible keysInParts :=
      RelationPlan.compatible_iff.2 both
    exact (composite_decided.1 Unit "record" ∅ keysInParts () supplies).done_iff.2
      ⟨checked, compatible⟩
  · have supplies : (Arena.builder Lens.whole).Supplies (Arena.Contributes Lens.whole) "record" ∅
        newTwice Arena.empty := by
      intro node made
      cases made
      refine ⟨⟨1⟩, rfl, ⟨⟨rfl, id⟩, by decide⟩, ?_⟩
      intro next related
      cases related
      refine ⟨⟨2⟩, rfl, ⟨⟨rfl, id⟩, by decide⟩, ?_⟩
      intro next related
      trivial
    rw [← Bool.not_eq_true, (composite_decided.2 Arena Lens.whole "record" ∅ newTwice Arena.empty
      rfl supplies).done_iff]
    rintro ⟨-, compatible⟩
    have two : 2 ≤ 1 := (compatible _ List.mem_cons_self rfl).2
    exact absurd two (by decide)

end TreeProtocol
