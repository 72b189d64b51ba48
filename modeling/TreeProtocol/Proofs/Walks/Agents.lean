import TreeProtocol.Proofs.Walks.Agreement

/-!
# Agents

An agent is a visitor whose dealings with the walk can be followed from outside. What it does at a
site is a `Course`: it acts on a state of its own, descends as often as it likes and learns how each
descent ended, and ends. It may look at everything, at the arena as well, but it does not change the
arena. Its gate lets nodes through or leaves them out.

* `Course.run`, `Agent.visitor` — agents as visitors;
* `Walk.level_eq` — one level of a walk of agents, question by question;
* `Course.run_alike` — an agent whose descents do the same does the same.
-/

namespace TreeProtocol

open TreeProtocol.Action

/-- What an agent does at a site. -/
inductive Course (L A V R : Type) where
  | ends (outcome : Outcome R)
  /-- The agent changes its own state and reports events. -/
  | acts (work : A → V → V × List Event) (next : A → V → Course L A V R)
  /-- The agent descends, and goes on with whatever becomes of it. -/
  | descends (names : Option (List String)) (other : Option L)
      (next : Outcome (List (Findings R)) → Course L A V R)

/-- A visitor that deals with a walk by courses, on a state of its own beside an `A`. -/
structure Agent (L A V N R : Type) where
  /-- Asked about every node first; says whether the node is let through. -/
  gate : Option (A → Option Edge → N → Action V Bool) := none
  visit : Option Edge → N → Kind → List Relation → Attrs → Course L A V R

section Agents

variable {L A V N R α β : Type}

/-- An action on the second of two states that may look at the first. -/
def Action.seeing (x : A → Action V α) : Action (A × V) α := fun s => (x s.1).zoom Lens.snd s

/-- Does what an agent does, with the given descents. -/
def Course.run (descent : Descent L (A × V) R) : Course L A V R → Action (A × V) R
  | .ends outcome => release outcome
  | .acts work next => fun s =>
    Ran.after (work s.1 s.2).2 ((next s.1 s.2).run descent (s.1, (work s.1 s.2).1))
  | .descends names other next => do
    let ended ← (descent names other).caught
    (next ended).run descent

namespace Agent

/-- Whether the agent lets a node through; without a gate it always does. -/
def letsIn (agent : Agent L A V N R) (edge : Option Edge) (here : N) : Action (A × V) Bool :=
  match agent.gate with
  | some gate => seeing fun a => gate a edge here
  | none => Action.pure true

/-- The agent as a visitor. -/
def visitor (agent : Agent L A V N R) : Visitor L (A × V) N R where
  gate := agent.gate.map fun gate _ edge here => do
    let pass ← seeing fun a => gate a edge here
    Action.pure (if pass then .proceed none else .skip)
  visit site descent :=
    (agent.visit site.edge site.node site.kind site.relations site.attrs).run descent

/-- The visitors that agents are, label for label. -/
abbrev visitors (agents : L → Agent L A V N R) : L → Visitor L (A × V) N R :=
  fun label => (agents label).visitor

end Agent

namespace Walk

theorem enter_eq {W : Type} (visitors : L → Visitor L W N R) (below : Step L W N R)
    (inspector : Inspector W N) (label : L) (edge : Option Edge) (here : N) :
    enter visitors below inspector label edge here = (do
      let kind ← inspector.kind here
      let relations ← inspector.relations here
      let attrs ← inspector.attrs here
      visitSite visitors below label ⟨edge, here, kind, relations, attrs, inspector⟩) := by
  rw [enter, survey]
  simp only [bind_assoc]
  rfl

/-- **One level of a walk of agents**: the gate first, then the node, unless it is left out. -/
theorem level_eq (agents : L → Agent L A V N R) (below : Step L (A × V) N R)
    (inspector : Inspector (A × V) N) (label : L) (edge : Option Edge) (here : N) :
    level (Agent.visitors agents) below inspector label edge here =
      (agents label).letsIn edge here >>= fun pass =>
        if pass then enter (Agent.visitors agents) below inspector label edge here
        else emit (.nodeSkipped (edge.map (·.relation.name))) >>= fun _ => Action.pure none := by
  apply level_of_judged
  unfold judge Agent.letsIn
  rw [show (Agent.visitors agents label).gate = (agents label).gate.map _ from rfl]
  cases (agents label).gate <;> rfl

end Walk

/-! ## Agents that cannot tell the difference -/

variable {a : A}

theorem alike_seeing (x : A → Action V α) : Alike a (seeing x) (seeing x) := fun _ => ⟨rfl, rfl⟩

theorem Action.Alike.caught {x y : Action (A × V) α} (h : Alike a x y) :
    Alike a x.caught y.caught := by
  intro v
  obtain ⟨heq, hstill⟩ := h v
  rw [Action.caught, Action.caught, heq]
  exact ⟨rfl, heq ▸ hstill⟩

theorem Course.run_alike {descent descent' : Descent L (A × V) R} (course : Course L A V R)
    (h : ∀ names other, Alike a (descent names other) (descent' names other)) :
    Alike a (course.run descent) (course.run descent') := by
  induction course with
  | ends outcome => exact alike_of_still fun _ => rfl
  | acts work next ih =>
    intro v
    obtain ⟨heq, hstill⟩ := ih a v (work a v).1
    rw [run, run]
    dsimp only
    rw [heq]
    exact ⟨rfl, heq ▸ hstill⟩
  | descends names other next ih => exact (h names other).caught.bind ih

theorem Agent.letsIn_alike (agent : Agent L A V N R) (edge : Option Edge) (here : N) :
    Alike a (agent.letsIn edge here) (agent.letsIn edge here) := by
  rw [letsIn]
  cases agent.gate with
  | none => exact alike_pure true
  | some gate => exact alike_seeing _

end Agents

end TreeProtocol
