import TreeProtocol.Construction.Composite
import TreeProtocol.Proofs.Walks.Errors
import TreeProtocol.Tree

/-!
# What composite construction does, step by step

Composite construction is watched at work: every call of the builder and every production of a
right node is written down, and so is every use of sessions. Whatever the builder and the producers
do, what is written down is set by the plans.

* `Effect`, `Script`: a step, and what is to be done in which order, each step with the results of
  those before.
* `Script.composite`: the script of composite construction.
* `Script.Trace`: a script that is carried out up to the first step that is not done.
* `RelationPlan.first_refused`: of plans that are not all right, the first wrong one decides.
* `Performs`: an action, watched, goes by a script; one lemma for each way to put scripts together.
* `composite_in_order`: nothing is done if a plan is wrong, and the script is carried out if not.
-/

namespace TreeProtocol

open TreeProtocol.Action

variable {W N : Type}

/-! ## Scripts -/

/-- A step of composite construction, which has a node for its result. -/
inductive Effect (W N : Type) where
  | make (kind : Kind) (attrs : Attrs)
  | produce (right : RightSupply W N)
  | relate (relation : Relation) (left right : N) (args : Attrs)
  | finish (kind : Kind) (node : N)

/-- Carries out a step. -/
def Effect.on (b : Builder W N) : Effect W N → Action W N
  | .make kind attrs => b.make kind attrs
  | .produce right => right.produce
  | .relate relation left right args => b.relate relation left right args
  | .finish kind node => b.finish kind node

/-- Steps in order, each of which may depend on the results of those before. -/
inductive Script (W N : Type) where
  | last (effect : Effect W N)
  | step (effect : Effect W N) (next : N → Script W N)

/-- What is written down of construction. -/
inductive Entry (W N : Type) where
  | carried (effect : Effect W N) (outcome : Outcome N)
  /-- A session was opened, closed, or run. -/
  | session

/-- The right nodes of the plans in order, each with the relation that it is for. -/
def RelationPlan.requests (plans : List (RelationPlan W N)) : List (Relation × RightSupply W N) :=
  plans.flatMap fun p => p.rights.map fun right => (p.relation, right)

namespace Script

/-- Every right node is produced and then related to the node that was returned last; then this node
is finished. -/
def supplying (kind : Kind) : List (Relation × RightSupply W N) → N → Script W N
  | [], node => .last (.finish kind node)
  | (relation, right) :: more, node =>
    .step (.produce right) fun produced =>
      .step (.relate relation node produced right.args) fun node => supplying kind more node

/-- The script of composite construction. -/
def composite (kind : Kind) (attrs : Attrs) (plans : List (RelationPlan W N)) : Script W N :=
  .step (.make kind attrs) fun node => supplying kind (RelationPlan.requests plans) node

/-- A script is carried out from one state to another: each step in the state that those before
left, on to the last step or up to the first one that is not done. Either way the outcome is that
of the step that was carried out last. -/
inductive Trace (b : Builder W N) : Script W N → W → List (Entry W N) → Outcome N → W → Prop
  | last (effect : Effect W N) (w : W) :
      Trace b (.last effect) w [.carried effect (effect.on b w).outcome]
        (effect.on b w).outcome (effect.on b w).state
  | next {effect : Effect W N} {script : N → Script W N} {w w' : W} {log : List (Entry W N)}
      {o : Outcome N} (node : N) (h : (effect.on b w).outcome = .done node)
      (rest : Trace b (script node) (effect.on b w).state log o w') :
      Trace b (.step effect script) w (.carried effect (.done node) :: log) o w'
  | cut (effect : Effect W N) (script : N → Script W N) {w : W}
      (h : (effect.on b w).outcome.isDone = false) :
      Trace b (.step effect script) w [.carried effect (effect.on b w).outcome]
        (effect.on b w).outcome (effect.on b w).state

variable {b : Builder W N} {effect : Effect W N} {script : N → Script W N} {w w' : W}
  {log : List (Entry W N)} {o : Outcome N}

/-- What a step that is done leaves to do. -/
theorem Trace.after (h : Trace b (.step effect script) w log o w') {node : N}
    (hdone : (effect.on b w).outcome = .done node) :
    ∃ rest, Trace b (script node) (effect.on b w).state rest o w' := by
  cases h with
  | next other hother rest =>
    rw [hdone] at hother
    obtain rfl : node = other := Outcome.done.inj hother
    exact ⟨_, rest⟩
  | cut _ _ hcut =>
    rw [hdone] at hcut
    cases hcut

/-- A step that is not done is the last. -/
theorem Trace.of_cut (h : Trace b (.step effect script) w log o w')
    (hcut : (effect.on b w).outcome.isDone = false) : o.isDone = false := by
  cases h with
  | next node hdone rest =>
    rw [hdone] at hcut
    cases hcut
  | cut _ _ _ => exact hcut

/-- The last entry of a trace has its outcome, and all before it are of steps that were done. -/
theorem Trace.split {s : Script W N} (h : Trace b s w log o w') :
    ∃ before effect, log = before ++ [.carried effect o] ∧
      ∀ entry ∈ before, ∃ effect node, entry = .carried effect (.done node) := by
  induction h with
  | last effect w => exact ⟨[], effect, rfl, by simp⟩
  | @next effect script w w' log o node h rest ih =>
    obtain ⟨before, last, hlog, hbefore⟩ := ih
    refine ⟨.carried effect (.done node) :: before, last, by rw [hlog]; rfl, ?_⟩
    exact List.forall_mem_cons.2 ⟨⟨effect, node, rfl⟩, hbefore⟩
  | cut effect script h => exact ⟨[], effect, rfl, by simp⟩

end Script

/-! ## Checking plans -/

namespace RelationPlan

theorem checkAll_eq_ok_iff {plans : List (RelationPlan W N)} :
    checkAll plans = .ok () ↔ ∀ p ∈ plans, p.check = .ok () := by
  induction plans with
  | nil => simp [checkAll]
  | cons p more ih =>
    rw [List.forall_mem_cons, ← ih, checkAll]
    cases p.check with
    | error e => simp
    | ok u => simp

/-- The first plan that is refused decides. -/
theorem checkAll_of_first {before : List (RelationPlan W N)} {p : RelationPlan W N}
    {e : BuildError} (hbefore : ∀ q ∈ before, q.check = .ok ()) (hp : p.check = .error e)
    (after : List (RelationPlan W N)) : checkAll (before ++ p :: after) = .error e := by
  induction before with
  | nil => rw [List.nil_append, checkAll, hp]
  | cons q more ih =>
    obtain ⟨hq, hmore⟩ := List.forall_mem_cons.1 hbefore
    rw [List.cons_append, checkAll, hq]
    exact ih hmore

/-- If some plan is refused, one is the first. -/
theorem first_refused {plans : List (RelationPlan W N)} (h : ∃ p ∈ plans, p.check ≠ .ok ()) :
    ∃ before p after e, plans = before ++ p :: after ∧ (∀ q ∈ before, q.check = .ok ()) ∧
      p.check = .error e := by
  induction plans with
  | nil => exact absurd h (by simp)
  | cons q more ih =>
    cases hq : q.check with
    | error e => exact ⟨[], q, more, e, rfl, by simp, hq⟩
    | ok u =>
      obtain ⟨p, hp, hrefused⟩ := h
      have hmore : p ∈ more := by
        rcases List.mem_cons.1 hp with rfl | hmore
        · exact absurd hq hrefused
        · exact hmore
      obtain ⟨before, first, after, e, rfl, hbefore, hfirst⟩ := ih ⟨p, hmore, hrefused⟩
      exact ⟨q :: before, first, after, e, rfl, List.forall_mem_cons.2 ⟨hq, hbefore⟩, hfirst⟩

end RelationPlan

/-! ## Construction that is watched -/

/-- Carries out a step and writes it down. -/
def Effect.watched (b : Builder W N) (effect : Effect W N) : Action (W × List (Entry W N)) N :=
  ((effect.on b).zoom Lens.fst).noted Lens.snd (.carried effect)

/-- The builder that writes down what it is used for. -/
def Builder.watched (b : Builder W N) : Builder (W × List (Entry W N)) N where
  make kind attrs := (Effect.make kind attrs).watched b
  relate relation left right args := (Effect.relate relation left right args).watched b
  finish kind node := (Effect.finish kind node).watched b
  prepare := Action.modify (Lens.snd.modify (· ++ [.session]))
  around body := do
    Action.modify (Lens.snd.modify (· ++ [.session]))
    body
  close _ := Action.modify (Lens.snd.modify (· ++ [.session]))

/-- The right node whose production is written down. -/
def RightSupply.watched (b : Builder W N) (right : RightSupply W N) :
    RightSupply (W × List (Entry W N)) N :=
  ⟨(Effect.produce right).watched b, right.args⟩

/-- The plan with all its right nodes watched. -/
def RelationPlan.watched (b : Builder W N) (p : RelationPlan W N) :
    RelationPlan (W × List (Entry W N)) N :=
  ⟨p.relation, p.rights.map (·.watched b)⟩

theorem RelationPlan.check_watched (b : Builder W N) (p : RelationPlan W N) :
    (p.watched b).check = p.check := by
  have size : (p.watched b).size = p.size := List.length_map _
  have args : (p.watched b).rights.map (·.args) = p.rights.map (·.args) := by
    rw [watched, List.map_map]
    rfl
  rw [check, check, size, args]
  rfl

theorem RelationPlan.checkAll_watched (b : Builder W N) (plans : List (RelationPlan W N)) :
    checkAll (plans.map (·.watched b)) = checkAll plans := by
  induction plans with
  | nil => rfl
  | cons p more ih => rw [List.map_cons, checkAll, checkAll, check_watched, ih]

/-- Watched, the action goes by the script, and it has the same outcome and leaves the same state as
when it is not. -/
def Performs (b : Builder W N) (script : Script W N) (x : Action W N)
    (y : Action (W × List (Entry W N)) N) : Prop :=
  ∀ w log, ∃ entries, script.Trace b w entries (x w).outcome (x w).state ∧
    (y (w, log)).outcome = (x w).outcome ∧ (y (w, log)).state = ((x w).state, log ++ entries)

section Performs

variable {b : Builder W N}

/-- What a step leaves behind when it is watched. -/
theorem watched_eq (effect : Effect W N) (w : W) (log : List (Entry W N)) :
    effect.watched b (w, log) = ⟨(effect.on b w).outcome,
      ((effect.on b w).state, log ++ [.carried effect (effect.on b w).outcome]),
      (effect.on b w).events⟩ :=
  noted_eq _ _ _ _

theorem performs_last (effect : Effect W N) :
    Performs b (.last effect) (effect.on b) (effect.watched b) := by
  intro w log
  rw [watched_eq]
  exact ⟨_, .last effect w, rfl, rfl⟩

/-- **Step lemma.** A step comes before what is done with its result. -/
theorem performs_step (effect : Effect W N) {next : N → Script W N} {f : N → Action W N}
    {g : N → Action (W × List (Entry W N)) N}
    (h : ∀ node, Performs b (next node) (f node) (g node)) :
    Performs b (.step effect next) (effect.on b >>= f) (effect.watched b >>= g) := by
  intro w log
  have houtcome : (effect.watched b (w, log)).outcome = (effect.on b w).outcome := by
    rw [watched_eq]
  cases ho : (effect.on b w).outcome with
  | done node =>
    rw [ho] at houtcome
    obtain ⟨entries, trace, same, state⟩ := h node (effect.on b w).state
      (log ++ [.carried effect (.done node)])
    rw [bind_of_done ho, bind_of_done houtcome, watched_eq, ho]
    refine ⟨.carried effect (.done node) :: entries, .next node ho trace, same, ?_⟩
    rw [Ran.after_state, Ran.after_state, state, List.append_assoc]
    rfl
  | failed e =>
    have cut := Script.Trace.cut (b := b) (w := w) effect next (by rw [ho]; rfl)
    rw [ho] at houtcome cut
    rw [bind_of_failed ho, bind_of_failed houtcome, watched_eq, ho]
    exact ⟨_, cut, rfl, rfl⟩
  | crashed =>
    have cut := Script.Trace.cut (b := b) (w := w) effect next (by rw [ho]; rfl)
    rw [ho] at houtcome cut
    rw [bind_of_crashed ho, bind_of_crashed houtcome, watched_eq, ho]
    exact ⟨_, cut, rfl, rfl⟩

/-- What is reported on the way is not written down. -/
theorem Performs.emit {script : Script W N} {x : Action W N} {y : Action (W × List (Entry W N)) N}
    (h : Performs b script x y) (e e' : Event) :
    Performs b script (emit e >>= fun _ => x) (Action.emit e' >>= fun _ => y) :=
  h

/-- **The right nodes of one relation**, before what is done with the node that is left then.
Induction on the right nodes. -/
theorem performs_attachRights (kind : Kind) (relation : Relation) (rights : List (RightSupply W N))
    {more : List (Relation × RightSupply W N)} {f : N → Action W N}
    {g : N → Action (W × List (Entry W N)) N}
    (h : ∀ node, Performs b (.supplying kind more node) (f node) (g node)) (node : N) :
    Performs b (.supplying kind (rights.map (fun right => (relation, right)) ++ more) node)
      (b.attachRights relation rights node >>= f)
      (b.watched.attachRights relation (rights.map (·.watched b)) node >>= g) := by
  induction rights generalizing node with
  | nil => exact h node
  | cons right rest ih =>
    rw [List.map_cons, List.map_cons, Builder.attachRights, Builder.attachRights]
    simp only [bind_assoc]
    apply performs_step (.produce right)
    intro produced
    apply performs_step (.relate relation node produced right.args)
    intro node
    exact ih node

/-- **All plans**, and the end of the construction. Induction on the plans. -/
theorem performs_attachPlans (kind : Kind) (plans : List (RelationPlan W N)) (node : N) :
    Performs b (.supplying kind (RelationPlan.requests plans) node)
      (b.attachPlans kind plans node >>= fun node => b.finish kind node)
      (b.watched.attachPlans kind (plans.map (·.watched b)) node >>= fun node =>
        b.watched.finish kind node) := by
  induction plans generalizing node with
  | nil => exact performs_last (.finish kind node)
  | cons p more ih =>
    rw [List.map_cons, Builder.attachPlans, Builder.attachPlans]
    simp only [bind_assoc]
    exact (performs_attachRights kind p.relation p.rights ih node).emit _ _

end Performs

namespace Builder

/-- Composite construction that is watched. -/
def compositeWatched (b : Builder W N) (kind : Kind) (attrs : Attrs)
    (plans : List (RelationPlan W N)) : Action (W × List (Entry W N)) N :=
  b.watched.composite kind attrs (plans.map (·.watched b))

theorem composite_of_refused (b : Builder W N) (kind : Kind) (attrs : Attrs)
    {plans : List (RelationPlan W N)} {e : BuildError} (h : RelationPlan.checkAll plans = .error e)
    (w : W) : b.composite kind attrs plans w = ⟨.failed e, w, []⟩ := by
  rw [composite, h]
  rfl

theorem composite_of_checked (b : Builder W N) (kind : Kind) (attrs : Attrs)
    {plans : List (RelationPlan W N)} (h : RelationPlan.checkAll plans = .ok ()) :
    b.composite kind attrs plans =
      b.make kind attrs >>= fun node => b.attachPlans kind plans node >>= fun node =>
        b.finish kind node := by
  rw [composite, h]
  rfl

/-- If all plans are accepted, composite construction goes by their script. -/
theorem performs_composite (b : Builder W N) (kind : Kind) (attrs : Attrs)
    {plans : List (RelationPlan W N)} (h : RelationPlan.checkAll plans = .ok ()) :
    Performs b (.composite kind attrs plans) (b.composite kind attrs plans)
      (b.compositeWatched kind attrs plans) := by
  have hwatched : RelationPlan.checkAll (plans.map (·.watched b)) = .ok () := by
    rw [RelationPlan.checkAll_watched, h]
  rw [compositeWatched, composite_of_checked b kind attrs h,
    composite_of_checked b.watched kind attrs hwatched]
  apply performs_step (.make kind attrs)
  intro node
  exact performs_attachPlans kind plans node

/-- **Composite construction goes by the script.** If a plan is refused, the first such plan gives
the error, and nothing is done: nothing is written down and the state is as before. If all plans
are accepted, their script is carried out in order, up to the first step that is not done; the
outcome is that of the last step, and the state is the one that the steps lead to. This holds for
every builder and all producers, whatever they do and however they end. -/
theorem composite_in_order (b : Builder W N) (kind : Kind) (attrs : Attrs)
    (plans : List (RelationPlan W N)) (w : W) :
    ((∃ p ∈ plans, p.check ≠ .ok ()) →
      ∃ before p after e, plans = before ++ p :: after ∧ (∀ q ∈ before, q.check = .ok ()) ∧
        p.check = .error e ∧ b.composite kind attrs plans w = ⟨.failed e, w, []⟩ ∧
        b.compositeWatched kind attrs plans (w, []) = ⟨.failed e, (w, []), []⟩) ∧
      ((∀ p ∈ plans, p.check = .ok ()) →
        ∃ log, (Script.composite kind attrs plans).Trace b w log
            (b.composite kind attrs plans w).outcome (b.composite kind attrs plans w).state ∧
          (b.compositeWatched kind attrs plans (w, [])).outcome =
            (b.composite kind attrs plans w).outcome ∧
          (b.compositeWatched kind attrs plans (w, [])).state =
            ((b.composite kind attrs plans w).state, log) ∧
          ∃ before last, log = before ++
              [.carried last (b.composite kind attrs plans w).outcome] ∧
            ∀ entry ∈ before, ∃ effect node, entry = .carried effect (.done node)) := by
  constructor
  · intro refused
    obtain ⟨before, p, after, e, rfl, hbefore, hp⟩ := RelationPlan.first_refused refused
    have hfirst := RelationPlan.checkAll_of_first hbefore hp after
    refine ⟨before, p, after, e, rfl, hbefore, hp, composite_of_refused b kind attrs hfirst w, ?_⟩
    apply composite_of_refused
    rw [RelationPlan.checkAll_watched, hfirst]
  · intro accepted
    have hplans := RelationPlan.checkAll_eq_ok_iff.2 accepted
    obtain ⟨log, trace, outcome, state⟩ := performs_composite b kind attrs hplans w []
    exact ⟨log, trace, outcome, state, trace.split⟩

/-- Right nodes of which two have the same key. -/
def sameKeys : List (RelationPlan Unit Tree) :=
  [.many "items" [.existing (Tree.make "item" ∅)],
    .keyed "fields" "id"
      [(.text "x", .existing (Tree.make "field" ∅)), (.text "x", .existing (Tree.make "field" ∅))]]

/-- An optional relation that is planned twice, with a right node each time. -/
def optionalTwice : List (RelationPlan Unit Tree) :=
  [.optional "first" (some (.existing (Tree.make "item" ∅))),
    .optional "first" (some (.existing (Tree.make "item" ∅)))]

/-- With a key that is there twice nothing is done. An optional relation planned twice is found out
by the fifth step, after the first right node was produced and related, and the second produced. -/
theorem composite_in_order_twice :
    (Tree.builder.compositeWatched "record" ∅ sameKeys ((), [])).state.2 = [] ∧
      ∃ before effect e, before.length = 4 ∧
        (Tree.builder.compositeWatched "record" ∅ optionalTwice ((), [])).state.2 =
          before ++ [.carried effect (.failed e)] := by
  constructor
  · have refused : ∃ p ∈ sameKeys, p.check ≠ .ok () := by
      refine ⟨_, List.mem_cons_of_mem _ List.mem_cons_self, ?_⟩
      intro h
      exact nomatch h
    obtain ⟨_, _, _, _, _, _, _, _, hnothing⟩ :=
      (composite_in_order Tree.builder "record" ∅ sameKeys ()).1 refused
    rw [hnothing]
  · have accepted : ∀ p ∈ optionalTwice, p.check = .ok () := by
      intro p hp
      simp only [optionalTwice, List.mem_cons, List.not_mem_nil, or_false, or_self] at hp
      rw [hp]
      rfl
    obtain ⟨log, -, -, state, before, effect, split, -⟩ :=
      (composite_in_order Tree.builder "record" ∅ optionalTwice ()).2 accepted
    have five : (Tree.builder.compositeWatched "record" ∅ optionalTwice ((), [])).state.2.length
        = 5 := rfl
    obtain ⟨e, failed⟩ : ∃ e, (Tree.builder.composite "record" ∅ optionalTwice ()).outcome =
        .failed e := ⟨_, rfl⟩
    rw [state] at five
    rw [failed] at split
    rw [state]
    refine ⟨before, effect, e, ?_, split⟩
    rw [split, List.length_append] at five
    exact Nat.succ_injective five

end Builder

end TreeProtocol
