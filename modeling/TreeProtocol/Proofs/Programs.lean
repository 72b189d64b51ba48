import TreeProtocol.Proofs.Matching

/-!
# Programs against builders

A program is written against a builder and the inspector of what was built. It makes calls, asks
questions, builds composites, opens sessions and walks, nested as it likes, and learns how each of
these steps ended, by a crash as well. Beside the builder it has a state of its own.

* `Code` — what a program does, and what it has done by producers, by the bodies of its sessions and
  at the nodes of its walks;
* `Workshop` — what a program works with;
* `Code.run` — a program at work, by the functions of the library;
* `run_matches` — a program does the same in workshops that match.
-/

namespace TreeProtocol

open TreeProtocol.Action

variable {W W' N V L R Q κ α β : Type}

/-! ## Programs -/

/-- Whom to ask: the inspector in use, the inspector of the workshop, or one of the program's own
inspectors. -/
inductive Source (κ : Type) where
  | inUse
  | workshop
  | brought (inspector : κ)

/-- What a program decides about a node of a walk. -/
inductive Decision (N κ : Type) where
  | skip
  | proceed (other : Option (Source κ))
  | replace (node : N) (kind : Kind) (attrs : Attrs) (relations : List Relation)
      (other : Option (Source κ))

/-- Code with a result in `α`. Where the code is run by a walk, it descends by giving a `D`, and is
brought back an `F`. -/
inductive Code (N V : Type) : (D F α : Type) → Type 1 where
  | ends {D F α : Type} (outcome : Outcome α) : Code N V D F α
  /-- Changes the program's own state. -/
  | acts {D F α : Type} (work : V → V) (next : V → Code N V D F α) : Code N V D F α
  | calls {D F α : Type} (call : Call N) (next : Outcome (Option N) → Code N V D F α) :
      Code N V D F α
  | asks {D F α : Type} (source : Source Empty) (question : Question N)
      (next : Outcome question.Answer → Code N V D F α) : Code N V D F α
  /-- Sets counters back to zero. -/
  | resets {D F α : Type} (layer : Nat) (next : Code N V D F α) : Code N V D F α
  /-- Builds a composite; each right node has a name by which it is produced. -/
  | composes {D F α ι : Type} (kind : Kind) (attrs : Attrs)
      (plans : List (Relation × List (ι × Attrs))) (produce : ι → Code N V D F N)
      (next : Outcome N → Code N V D F α) : Code N V D F α
  | session {D F α β : Type} (body : Code N V D F β) (next : Outcome β → Code N V D F α) :
      Code N V D F α
  | descends {D F α : Type} (into : D) (next : Outcome F → Code N V D F α) : Code N V D F α
  /-- Walks. The visitors of some labels have a gate; inspectors that the program brings are code as
  well. -/
  | walks {D F α L R κ : Type} (gated : L → Bool)
      (gate : L → Option Edge → N → Code N V Empty Unit (Decision N κ))
      (visit : L → Option Edge → N → Kind → List Relation → Attrs →
        Code N V (Option (List String) × Option L) (List (Findings R)) R)
      (inspector : κ → (question : Question N) → Code N V Empty Unit question.Answer)
      (source : Source κ) (limit : Nat) (label : L) (root : N)
      (next : Outcome (Option R) → Code N V D F α) : Code N V D F α

/-- Code that is run on its own. -/
abbrev Program (N V α : Type) := Code N V Empty Unit α

/-! ## Programs at work -/

/-- What a program works with. -/
structure Workshop (W N V : Type) where
  builder : Builder W N
  inspector : Inspector W N
  /-- Sets counters back to zero. -/
  reset : Nat → Action W Unit := fun _ => Action.pure ()
  /-- The program's own state. -/
  own : Lens W V

/-- The inspector that a source stands for. -/
def Source.inspector (s : Workshop W N V) (inUse : Inspector W N) (brought : κ → Inspector W N) :
    Source κ → Inspector W N
  | .inUse => inUse
  | .workshop => s.inspector
  | .brought inspector => brought inspector

/-- A decision as a verdict. -/
def Decision.verdict (inspector : Source κ → Inspector W N) : Decision N κ → Verdict W N
  | .skip => .skip
  | .proceed other => .proceed (other.map inspector)
  | .replace node kind attrs relations other =>
    .replace node kind attrs relations (other.map inspector)

namespace Code

/-- Runs code in a workshop, with an inspector in use and a way to descend. Every step is caught, so
that the code goes on with its outcome. -/
def run (s : Workshop W N V) {D F α : Type} :
    Code N V D F α → Inspector W N → (D → Action W F) → Action W α
  | .ends outcome, _, _ => release outcome
  | .acts work next, i, descent => do
    Action.modify (s.own.modify work)
    let v ← reads s.own.get
    (next v).run s i descent
  | .calls call next, i, descent => do
    let ended ← (call.on s.builder).caught
    (next ended).run s i descent
  | .asks source question next, i, descent => do
    let ended ← ((source.inspector s i nofun).answer question).caught
    (next ended).run s i descent
  | .resets layer next, i, descent => do
    s.reset layer
    next.run s i descent
  | .composes kind attrs plans produce next, i, descent => do
    let ended ← (s.builder.composite kind attrs (plans.map fun plan =>
      ⟨plan.1, plan.2.map fun right => ⟨(produce right.1).run s i descent, right.2⟩⟩)).caught
    (next ended).run s i descent
  | .session body next, i, descent => do
    let ended ← (s.builder.session (body.run s i descent)).caught
    (next ended).run s i descent
  | .descends into next, i, descent => do
    let ended ← (descent into).caught
    (next ended).run s i descent
  | .walks gated gate visit inspector source limit label root next, i, descent => do
    let among (i : Inspector W N) (source : Source _) : Inspector W N :=
      source.inspector s i fun k => .answering fun question =>
        (inspector k question).run s i nofun
    let visitors (label : _) : Visitor _ W N _ :=
      { gate :=
          if gated label then
            some fun i edge node => do
              let decision ← (gate label edge node).run s i nofun
              Action.pure (decision.verdict (among i))
          else none
        visit := fun site descent =>
          (visit label site.edge site.node site.kind site.relations site.attrs).run s
            site.inspector fun into => descent into.1 into.2 }
    let ended ← (walk visitors limit (among i source) label root).caught
    (next ended).run s i descent

/-- A program at work; the inspector in use is that of the workshop. -/
def on (s : Workshop W N V) (program : Program N V α) : Action W α :=
  program.run s s.inspector nofun

end Code

/-! ## Workshops that match -/

variable {P : W → W' → Prop} {s : Workshop W N V} {s' : Workshop W' N V}

/-- Builders, inspectors and counters match, and the program's own state is the same. -/
structure Workshop.Matches (P : W → W' → Prop) (s : Workshop W N V) (s' : Workshop W' N V) :
    Prop where
  builder : s.builder.Matches P s'.builder
  inspector : s.inspector.Matches P s'.inspector
  reset : ∀ layer, Action.Matches P Eq (s.reset layer) (s'.reset layer)
  own_get : ∀ w w', P w w' → s.own.get w = s'.own.get w'
  own_set : ∀ v w w', P w w' → P (s.own.set v w) (s'.own.set v w')

namespace Workshop.Matches

variable {i : Inspector W N} {j : Inspector W' N} {brought : κ → Inspector W N}
  {brought' : κ → Inspector W' N}

theorem source (h : s.Matches P s') (hi : i.Matches P j)
    (hb : ∀ k, (brought k).Matches P (brought' k)) (source : Source κ) :
    (source.inspector s i brought).Matches P (source.inspector s' j brought') := by
  cases source with
  | inUse => exact hi
  | workshop => exact h.inspector
  | brought k => exact hb k

theorem acts (h : s.Matches P s') (work : V → V) :
    Action.Matches P Eq (Action.modify (s.own.modify work))
      (Action.modify (s'.own.modify work)) := by
  intro w w' hw
  refine ⟨.done rfl, ?_⟩
  show P (s.own.set (work (s.own.get w)) w) (s'.own.set (work (s'.own.get w')) w')
  rw [h.own_get w w' hw]
  exact h.own_set _ w w' hw

theorem reads (h : s.Matches P s') :
    Action.Matches P Eq (Action.reads s.own.get) (Action.reads s'.own.get) :=
  fun w w' hw => ⟨.done (h.own_get w w' hw), hw⟩

end Workshop.Matches

theorem Decision.verdict_matches {bring : Source κ → Inspector W N}
    {bring' : Source κ → Inspector W' N} (h : ∀ source, (bring source).Matches P (bring' source))
    (decision : Decision N κ) : Verdict.Matches (Inspector.Matches P)
      (decision.verdict bring) (decision.verdict bring') := by
  have brought : ∀ other : Option (Source κ),
      (other.map bring).Rel (Inspector.Matches P) (other.map bring') := by
    intro other
    cases other with
    | none => exact .none
    | some source => exact .some (h source)
  cases decision with
  | skip => exact .skip
  | proceed other => exact .proceed (brought other)
  | replace node kind attrs relations other => exact .replace _ _ _ _ (brought other)

/-- **Code does the same in workshops that match.** Induction on the code: its steps are functions
of the library, which match if the code that they run does. -/
theorem Code.run_matches (h : s.Matches P s') {D F α : Type} (code : Code N V D F α)
    {i : Inspector W N} {j : Inspector W' N} (hi : i.Matches P j) {descent : D → Action W F}
    {descent' : D → Action W' F} (hd : ∀ into, Action.Matches P Eq (descent into) (descent' into)) :
    Action.Matches P Eq (code.run s i descent) (code.run s' j descent') := by
  induction code generalizing i j with
  | ends outcome => exact matches_release (Outcome.matches_eq_iff.2 rfl)
  | acts work next ih =>
    exact (h.acts work).bind_eq fun _ => h.reads.bind_eq fun v => ih v hi hd
  | calls call next ih => exact (h.builder.on call).caught.bind_eq fun ended => ih ended hi hd
  | asks source question next ih =>
    have asked : Action.Matches P Eq ((source.inspector s i nofun).answer question)
        ((source.inspector s' j nofun).answer question) :=
      (h.source hi nofun source).answer question
    exact asked.caught.bind_eq fun ended => ih ended hi hd
  | resets layer next ih => exact (h.reset layer).bind_eq fun _ => ih hi hd
  | composes kind attrs plans produce next ihProduce ihNext =>
    refine Matches.bind_eq (Matches.caught ?_) fun ended => ihNext ended hi hd
    refine h.builder.composite kind attrs ?_
    refine List.forall₂_map_left_iff.2 (List.forall₂_map_right_iff.2 (List.forall₂_same.2 ?_))
    refine fun plan _ => ⟨rfl, ?_⟩
    refine List.forall₂_map_left_iff.2 (List.forall₂_map_right_iff.2 (List.forall₂_same.2 ?_))
    exact fun right _ => ⟨ihProduce right.1 hi hd, rfl⟩
  | session body next ihBody ihNext =>
    exact (h.builder.session (ihBody hi hd)).caught.bind_eq fun ended => ihNext ended hi hd
  | descends into next ih => exact (hd into).caught.bind_eq fun ended => ih ended hi hd
  | walks gated gate visit inspector source limit label root next ihGate ihVisit ihInspector ih =>
    have among : ∀ {i : Inspector W N} {j : Inspector W' N}, i.Matches P j → ∀ source,
        (Source.inspector s i (fun k => .answering fun question =>
          (inspector k question).run s i nofun) source).Matches P
        (Source.inspector s' j (fun k => .answering fun question =>
          (inspector k question).run s' j nofun) source) := fun hi source =>
      h.source hi (fun k => Inspector.matches_answering fun question =>
        ihInspector k question hi nofun) source
    refine Matches.bind_eq (Matches.caught ?_) fun ended => ih ended hi hd
    refine Walk.node_matches (fun _ _ h => h) (fun label => ⟨?_, ?_⟩) limit _ _ (among hi source)
      label none root
    · dsimp only
      cases gated label with
      | false => exact .none
      | true =>
        refine .some fun i j hi edge here => ?_
        refine (ihGate label edge here hi nofun).bind_eq fun decision => ?_
        exact matches_pure (decision.verdict_matches (among hi))
    · intro edge node kind relations attrs i j hi descent descent' hd
      exact ihVisit label edge node kind relations attrs hi fun into => hd into.1 into.2

/-- **A program does the same in workshops that match.** -/
theorem Code.on_matches (h : s.Matches P s') (program : Program N V α) :
    Action.Matches P Eq (program.on s) (program.on s') :=
  program.run_matches h h.inspector nofun

end TreeProtocol
