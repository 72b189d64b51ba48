import TreeProtocol.Proofs.Arena.Grounding
import TreeProtocol.Proofs.Arena.Transactions

/-!
# Producers of finished nodes

Programs that build with an arena make calls of its builder, and which calls these are can be told
from how the program runs (`Makes`). A producer attaches finished nodes only and returns a finished
node. Making a node in one go is a producer, whatever comes of it, if the right nodes come from
producers:

* `Makes.state` — the arena after a program is the arena after its calls;
* `Producer` — what is asked of producers, at the states at which they are run;
* `producer_leaf`, `producer_composite` — making a node with its relations is a producer;
* `producer_existing` — so is handing out a node that is finished.
-/

namespace TreeProtocol.Arena

open TreeProtocol.Action

variable {W α β : Type} {place : Lens W Arena}

/-- Run at a state, the action makes these calls of the builder in this order, whatever their
outcomes. What it does `elsewhere` leaves the arena as it is. -/
inductive Makes {W : Type} (place : Lens W Arena) :
    {α : Type} → Action W α → W → List (Call Handle) → Prop
  | elsewhere {α : Type} {x : Action W α} {w : W} (h : place.get (x w).state = place.get w) :
      Makes place x w []
  | make (kind : Kind) (attrs : Attrs) (w : W) :
      Makes place ((builder place).make kind attrs) w [.make kind attrs]
  | relate (relation : Relation) (left right : Handle) (args : Attrs) (w : W) :
      Makes place ((builder place).relate relation left right args) w
        [.relate relation left right args]
  | finish (kind : Kind) (node : Handle) (w : W) :
      Makes place ((builder place).finish kind node) w [.finish kind node]
  | stopped {α β : Type} {x : Action W α} {w : W} {calls : List (Call Handle)}
      (f : α → Action W β) (first : Makes place x w calls)
      (stops : ∀ a, (x w).outcome ≠ .done a) : Makes place (x >>= f) w calls
  | followed {α β : Type} {x : Action W α} {f : α → Action W β} {w : W} {a : α}
      {xs ys : List (Call Handle)} (first : Makes place x w xs) (done : (x w).outcome = .done a)
      (second : Makes place (f a) (x w).state ys) : Makes place (x >>= f) w (xs ++ ys)
  | caught {α : Type} {x : Action W α} {w : W} {calls : List (Call Handle)}
      (inside : Makes place x w calls) : Makes place x.caught w calls
  | session {α : Type} {body : Action W α} {w : W} {calls : List (Call Handle)}
      (inside : Makes place body ((builder place).prepare w).state calls) :
      Makes place ((builder place).session body) w
        (.prepare :: calls ++ [.close (bodyRun place body w).outcome.ending])

/-- **The arena after a program** is the arena after the calls that it makes. -/
theorem Makes.state {x : Action W α} {w : W} {calls : List (Call Handle)}
    (h : Makes place x w calls) :
    place.get (x w).state = (builder Lens.whole).after calls (place.get w) := by
  have one : ∀ (c : Call Handle) (a : Arena), (builder Lens.whole).after [c] a =
      (c.on (builder Lens.whole) a).state := fun _ _ => rfl
  induction h with
  | elsewhere h => exact h
  | make kind attrs w =>
    rw [one, Call.on, map_state]
    exact get_zoom place _ w
  | relate relation left right args w =>
    rw [one, Call.on, map_state]
    exact get_zoom place _ w
  | finish kind node w =>
    rw [one, Call.on, map_state]
    exact get_zoom place _ w
  | @stopped _ _ x w calls f first stops ih =>
    cases ho : (x w).outcome with
    | done a => exact absurd ho (stops a)
    | failed e =>
      rw [bind_of_failed ho]
      exact ih
    | crashed =>
      rw [bind_of_crashed ho]
      exact ih
  | followed first done second ihfirst ihsecond =>
    rw [bind_of_done done, Ran.after_state, ihsecond, ihfirst, Builder.after_append]
  | caught inside ih => exact ih
  | @session _ body w calls inside ih =>
    have opened : place.get ((builder place).prepare w).state = (prepare (place.get w)).state :=
      get_zoom place _ w
    rw [session_arena_eq, bodyRun, ih, opened, Builder.after_append, one, Call.on, map_state]
    rfl

/-! ## Tidy programs -/

/-- Run at `w`, the program attaches only nodes that are finished, and `K` holds after it. -/
structure Tidy (place : Lens W Arena) (K : W → Prop) (x : Action W α) (w : W) : Prop where
  calls : ∃ calls, Makes place x w calls ∧ RightsFinished calls (place.get w)
  kept : K (x w).state

/-- Run where `K` holds, the program attaches only nodes that are finished, its result, if it is
done, is a finished node, and `K` holds again after it. -/
def Producer (place : Lens W Arena) (K : W → Prop) (x : Action W Handle) : Prop :=
  ∀ w, K w → Tidy place K x w ∧
    ∀ h, (x w).outcome = .done h → (place.get (x w).state).isFinished h = true

/-- The construction calls keep `K`. -/
structure KeptByCalls (place : Lens W Arena) (K : W → Prop) : Prop where
  make : ∀ kind attrs w, K w → K ((builder place).make kind attrs w).state
  relate : ∀ relation left right args w, K w →
    K ((builder place).relate relation left right args w).state
  finish : ∀ kind node w, K w → K ((builder place).finish kind node w).state

variable {K : W → Prop} {w : W}

theorem tidy_still {x : Action W α} (still : (x w).state = w) (hw : K w) : Tidy place K x w :=
  ⟨⟨[], .elsewhere (congrArg place.get still), trivial⟩, by rwa [still]⟩

theorem Tidy.bind {x : Action W α} {f : α → Action W β} (hx : Tidy place K x w)
    (hf : ∀ a, (x w).outcome = .done a → Tidy place K (f a) (x w).state) :
    Tidy place K (x >>= f) w := by
  obtain ⟨⟨xs, makes, tidy⟩, kept⟩ := hx
  refine ⟨?_, bind_state kept fun a ha => (hf a ha).kept⟩
  by_cases hdone : ∃ a, (x w).outcome = .done a
  · obtain ⟨a, ha⟩ := hdone
    obtain ⟨ys, makes', tidy'⟩ := (hf a ha).calls
    rw [makes.state] at tidy'
    exact ⟨xs ++ ys, .followed makes ha makes', rightsFinished_append.2 ⟨tidy, tidy'⟩⟩
  · exact ⟨xs, .stopped f makes fun a ha => hdone ⟨a, ha⟩, tidy⟩

theorem tidy_make (hK : KeptByCalls place K) (hw : K w) (kind : Kind) (attrs : Attrs) :
    Tidy place K ((builder place).make kind attrs) w :=
  ⟨⟨_, .make kind attrs w, trivial, trivial⟩, hK.make kind attrs w hw⟩

theorem tidy_finish (hK : KeptByCalls place K) (hw : K w) (kind : Kind) (node : Handle) :
    Tidy place K ((builder place).finish kind node) w :=
  ⟨⟨_, .finish kind node w, trivial, trivial⟩, hK.finish kind node w hw⟩

theorem tidy_relate (hK : KeptByCalls place K) (hw : K w) {right : Handle}
    (finished : (place.get w).isFinished right = true) (relation : Relation) (left : Handle)
    (args : Attrs) : Tidy place K ((builder place).relate relation left right args) w :=
  ⟨⟨_, .relate relation left right args w, finished, trivial⟩,
    hK.relate relation left right args w hw⟩

/-! ## Making a node in one go -/

/-- What was finished is finished. -/
theorem isFinished_of_finish {a : Arena} {kind : Kind} {node h : Handle}
    (done : (finish kind node a).outcome = .done h) :
    (finish kind node a).state.isFinished h = true := by
  rw [finish] at done ⊢
  cases hslot : a.slotOf node with
  | error e =>
    rw [hslot] at done
    cases done
  | ok slot =>
    rw [hslot] at done
    dsimp only at done ⊢
    cases hcheck : a.checkFinish kind node slot with
    | error e =>
      rw [hcheck] at done
      cases done
    | ok u =>
      rw [hcheck] at done
      obtain rfl := Outcome.done.inj done
      dsimp only
      rw [isFinished, slot?_setSlot (slot?_lt (slotOf_eq_ok hslot))]
      rfl

theorem isFinished_of_finish_zoom {kind : Kind} {node h : Handle}
    (done : ((builder place).finish kind node w).outcome = .done h) :
    (place.get ((builder place).finish kind node w).state).isFinished h = true := by
  show (place.get ((finish kind node).zoom place w).state).isFinished h = true
  rw [get_zoom]
  exact isFinished_of_finish done

theorem producer_leaf (hK : KeptByCalls place K) (kind : Kind) (attrs : Attrs) :
    Producer place K ((builder place).leaf kind attrs) := by
  intro w hw
  have made := tidy_make hK hw kind attrs
  refine ⟨made.bind fun node _ => tidy_finish hK made.kept kind node, fun h done => ?_⟩
  obtain ⟨node, -, done, hstate⟩ := done_of_bind done
  rw [Builder.leaf, hstate]
  exact isFinished_of_finish_zoom done

theorem tidy_attachRights (hK : KeptByCalls place K) (relation : Relation)
    {rights : List (RightSupply W Handle)} (h : ∀ r ∈ rights, Producer place K r.produce)
    (node : Handle) {w : W} (hw : K w) :
    Tidy place K ((builder place).attachRights relation rights node) w := by
  induction rights generalizing node w with
  | nil => exact tidy_still rfl hw
  | cons r more ih =>
    obtain ⟨hhead, hmore⟩ := List.forall_mem_cons.1 h
    obtain ⟨produced, finished⟩ := hhead w hw
    refine produced.bind fun right done => ?_
    have related := tidy_relate hK produced.kept (finished right done) relation node r.args
    exact related.bind fun next _ => ih hmore next related.kept

theorem tidy_attachPlans (hK : KeptByCalls place K) (kind : Kind)
    {plans : List (RelationPlan W Handle)}
    (h : ∀ p ∈ plans, ∀ r ∈ p.rights, Producer place K r.produce) (node : Handle) {w : W}
    (hw : K w) : Tidy place K ((builder place).attachPlans kind plans node) w := by
  induction plans generalizing node w with
  | nil => exact tidy_still rfl hw
  | cons p more ih =>
    obtain ⟨hhead, hmore⟩ := List.forall_mem_cons.1 h
    refine (tidy_still rfl hw).bind fun _ _ => ?_
    have attached := tidy_attachRights hK p.relation hhead node hw
    exact attached.bind fun next _ => ih hmore next attached.kept

/-- **Composite construction is a producer** if its right nodes come from producers. -/
theorem producer_composite (hK : KeptByCalls place K) (kind : Kind) (attrs : Attrs)
    {plans : List (RelationPlan W Handle)}
    (h : ∀ p ∈ plans, ∀ r ∈ p.rights, Producer place K r.produce) :
    Producer place K ((builder place).composite kind attrs plans) := by
  intro w hw
  constructor
  · refine (tidy_still rfl hw).bind fun _ _ => ?_
    have made := tidy_make (w := w) hK hw kind attrs
    refine made.bind fun node _ => ?_
    have attached := tidy_attachPlans hK kind h node made.kept
    exact attached.bind fun next _ => tidy_finish hK attached.kept kind next
  · intro node done
    obtain ⟨_, -, done, hstate⟩ := done_of_bind done
    obtain ⟨_, -, done, hstate'⟩ := done_of_bind done
    obtain ⟨_, -, done, hstate''⟩ := done_of_bind done
    rw [Builder.composite, hstate, hstate', hstate'']
    exact isFinished_of_finish_zoom done

/-! ## Nodes that are there -/

theorem BuildStep.keepsFinished {a b : Arena} (step : BuildStep a b) : KeepsFinished a b := by
  intro h slot there finished
  cases step with
  | unchanged => exact there
  | saved _ _ => rwa [slot?_of_slots (slots_touch a _)]
  | made allowed => exact (List.getElem?_append_left (slot?_lt there)).trans there
  | @changed node old next hold change =>
    rw [sameBut_setSlot a node next h ?_, there]
    rintro rfl
    rw [← Option.some.inj (there.symm.trans hold)] at change
    rw [change.unfinished] at finished
    cases finished

theorem BuildStep.isFinished {a b : Arena} (step : BuildStep a b) {h : Handle}
    (finished : a.isFinished h = true) : b.isFinished h = true := by
  rw [Arena.isFinished, Option.any_eq_true] at finished ⊢
  obtain ⟨slot, there, flag⟩ := finished
  exact ⟨slot, step.keepsFinished h slot there flag, flag⟩

theorem isFinished_zoom {x : Action Arena α} (step : ∀ a, BuildStep a (x a).state) {node : Handle}
    (hw : (place.get w).isFinished node = true) :
    (place.get (x.zoom place w).state).isFinished node = true := by
  rw [get_zoom]
  exact (step (place.get w)).isFinished hw

theorem keptByCalls_isFinished (place : Lens W Arena) (node : Handle) :
    KeptByCalls place fun w => (place.get w).isFinished node = true where
  make kind attrs _ hw := isFinished_zoom (fun a => make_step a kind attrs) hw
  relate relation left right args _ hw :=
    isFinished_zoom (fun a => relate_step a relation left right args) hw
  finish kind other _ hw := isFinished_zoom (fun a => finish_step a kind other) hw

/-- A node that is finished can be handed out as it is. -/
theorem producer_existing (place : Lens W Arena) (node : Handle) :
    Producer place (fun w => (place.get w).isFinished node = true)
      (RightSupply.existing node : RightSupply W Handle).produce := by
  intro w hw
  refine ⟨tidy_still rfl hw, fun h done => ?_⟩
  obtain rfl := Outcome.done.inj done
  exact hw

end TreeProtocol.Arena
