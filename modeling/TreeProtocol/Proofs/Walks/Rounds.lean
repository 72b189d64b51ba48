import TreeProtocol.Proofs.Layers
import TreeProtocol.Proofs.Walks.Turns

/-!
# Rounds and what they meet with

A visitor makes a round if it descends once from every site, into all relations, and leaves the
inspector alone, and if its gate does so too. (`Stages` may ask and supply inspectors, but they
never name another visitor to descend with.) What a walk of rounds meets with can be written down
without a word about inspectors: what the gate ruled on nodes, and the visits.

* `Rounds` — visitors that make rounds, each on a state of its own;
* `Encounter`, `Rounds.noting` — what a walk meets with, and the rounds that write it down;
* `Rounds.walk_noting` — writing it down changes nothing;
* `Toured` — what is met with on a part of a walk that is done.
-/

namespace TreeProtocol

open TreeProtocol.Action

variable {L V N A R S α : Type}

/-- A visit, as far as it can be told without an inspector. -/
structure Stay (N : Type) where
  edge : Option Edge
  node : N
  kind : Kind
  relations : List Relation
  attrs : Attrs

/-- What can be told of a site. -/
def Site.stay (site : Site V N) : Stay N :=
  ⟨site.edge, site.node, site.kind, site.relations, site.attrs⟩

/-- The verdict without an inspector. -/
def Ruling.verdict : Ruling N → Verdict V N
  | .skip => .skip
  | .proceed => .proceed none
  | .replace node kind attrs relations => .replace node kind attrs relations none

/-- A visitor that descends once from every site, into all relations, between two parts of its
visit. It acts on a state of its own, and neither it nor its gate asks or supplies an inspector. -/
structure Rounds (L V N A R : Type) where
  gate : Option (Option Edge → N → Action V (Ruling N)) := none
  /-- Comes to something for the last part, and may name a visitor to descend with. -/
  before : Stay N → Action V (A × Option L)
  /-- Gets what the first part came to, and what was brought back from below. -/
  after : Stay N → A → List (Findings R) → Action V R

/-- The rounds as a visitor, on the first of two states. -/
def Rounds.visitor (rounds : Rounds L V N A R) : Visitor L (V × S) N R where
  gate := rounds.gate.map fun gate _ edge here => do
    let ruling ← (gate edge here).zoom Lens.fst
    Action.pure ruling.verdict
  visit site descent := do
    let first ← (rounds.before site.stay).zoom Lens.fst
    let findings ← descent none first.2
    (rounds.after site.stay first.1 findings).zoom Lens.fst

/-! ## Encounters -/

/-- What a walk meets with. -/
inductive Encounter (N : Type) where
  | ruled (edge : Option Edge) (node : N) (ruling : Ruling N)
  /-- A visit, of a visitor that has a gate or one that has none. -/
  | visited (gated : Bool) (stay : Stay N)

/-- Writes an encounter down. -/
def Action.note (encounter : Encounter N) : Action (V × List (Encounter N)) Unit :=
  modify (Lens.snd.modify (· ++ [encounter]))

/-- Runs an action and, if it is done, writes an encounter down. -/
def Action.noting (x : Action V α) (encounter : α → Encounter N) :
    Action (V × List (Encounter N)) α := do
  let a ← x.zoom Lens.fst
  note (encounter a)
  Action.pure a

/-- The rounds that write down what they meet with. -/
def Rounds.noting (rounds : Rounds L V N A R) : Rounds L (V × List (Encounter N)) N A R where
  gate := rounds.gate.map fun gate edge here => (gate edge here).noting (.ruled edge here)
  before stay := do
    note (.visited rounds.gate.isSome stay)
    (rounds.before stay).zoom Lens.fst
  after stay first findings := (rounds.after stay first findings).zoom Lens.fst

theorem noting_of_done {x : Action V α} {v : V} {a : α} (h : (x v).outcome = .done a)
    (encounter : α → Encounter N) (log : List (Encounter N)) :
    (x.noting encounter (v, log)).outcome = .done a ∧
      (x.noting encounter (v, log)).state = ((x v).state, log ++ [encounter a]) := by
  rw [Action.noting, bind_of_done (a := a) (x := x.zoom Lens.fst) (s := (v, log)) h]
  exact ⟨rfl, rfl⟩

/-! ## Writing down changes nothing -/

/-- The same states, but for what was written down. -/
def Unnoted (w : V × S) (w' : (V × List (Encounter N)) × S) : Prop := w = (w'.1.1, w'.2)

theorem matches_unnoted (x : Action V α) :
    Action.Matches (Unnoted (N := N) (S := S)) Eq (x.zoom Lens.fst)
      ((x.zoom Lens.fst).zoom Lens.fst) := by
  rintro _ w' rfl
  exact ⟨Outcome.matches_eq_iff.2 rfl, rfl⟩

theorem matches_note (encounter : Encounter N) (x : Action V α) :
    Action.Matches (Unnoted (S := S)) Eq (x.zoom Lens.fst)
      ((note encounter >>= fun _ => x.zoom Lens.fst).zoom Lens.fst) :=
  matches_unnoted x

theorem matches_noting (x : Action V α) (encounter : α → Encounter N) :
    Action.Matches (Unnoted (S := S)) Eq (x.zoom Lens.fst)
      ((x.noting encounter).zoom Lens.fst) := by
  rintro _ ⟨⟨v, log⟩, s⟩ rfl
  show Outcome.Matches Eq (x v).outcome (x.noting encounter (v, log)).outcome ∧
    ((x v).state, s) = ((x.noting encounter (v, log)).state.1, s)
  cases h : (x v).outcome with
  | done a =>
    obtain ⟨outcome, state⟩ := noting_of_done h encounter log
    rw [outcome, state]
    exact ⟨.done rfl, rfl⟩
  | failed e =>
    rw [Action.noting, bind_of_failed (e := e) (x := x.zoom Lens.fst) (s := (v, log)) h]
    exact ⟨.failed e, rfl⟩
  | crashed =>
    rw [Action.noting, bind_of_crashed (x := x.zoom Lens.fst) (s := (v, log)) h]
    exact ⟨.crashed, rfl⟩

theorem Ruling.verdict_matches (ruling : Ruling N)
    {I : Inspector (V × S) N → Inspector ((V × List (Encounter N)) × S) N → Prop} :
    Verdict.Matches I ruling.verdict ruling.verdict := by
  cases ruling with
  | skip => exact .skip
  | proceed => exact .proceed .none
  | replace node kind attrs relations => exact .replace _ _ _ _ .none

theorem Rounds.matches_noting (rounds : Rounds L V N A R)
    (I : Inspector (V × S) N → Inspector ((V × List (Encounter N)) × S) N → Prop) :
    rounds.visitor.Matches Unnoted I rounds.noting.visitor where
  gate := by
    show (rounds.gate.map _).Rel _ ((rounds.gate.map _).map _)
    cases rounds.gate with
    | none => exact .none
    | some gate =>
      refine .some fun i j _ edge here => ?_
      exact (TreeProtocol.matches_noting (gate edge here) _).bind_eq fun ruling =>
        matches_pure ruling.verdict_matches
  visit := by
    intro edge here kind relations attrs i j _ descent descent' descents
    refine (matches_note _ _).bind_eq fun first => ?_
    exact (descents none first.2).bind_eq fun findings => matches_unnoted _

/-- An inspector behind a counter, which is the second of two states. -/
def Inspector.metered (inner : Inspector V N) : Inspector (V × Calls) N :=
  .counted Lens.snd (inner.zoomed Lens.fst)

theorem Inspector.matches_metered (inner : Inspector V N) :
    (metered inner).Matches (Unnoted (N := N)) (metered (inner.zoomed Lens.fst)) := by
  have counts : ∀ f : Calls → Calls, Action.Matches (Unnoted (V := V) (N := N)) Eq
      (Action.count Lens.snd f) (Action.count Lens.snd f) := by
    rintro f _ w' rfl
    exact ⟨.done rfl, rfl⟩
  exact {
    kind := fun node => (counts _).bind_eq fun _ => matches_unnoted (inner.kind node)
    attrs := fun node => (counts _).bind_eq fun _ => matches_unnoted (inner.attrs node)
    relations := fun node => (counts _).bind_eq fun _ => matches_unnoted (inner.relations node)
    related := fun relation node => (counts _).bind_eq fun _ =>
      (matches_emit _ _).bind_eq fun _ => matches_unnoted (inner.related relation node) }

/-- The walk of rounds from a root, through an inspector behind a counter. -/
def Rounds.walk (rounds : L → Rounds L V N A R) (limit : Nat) (inner : Inspector V N) (label : L)
    (root : N) : Action (V × Calls) (Option R) :=
  TreeProtocol.walk (fun label => (rounds label).visitor) limit inner.metered label root

/-- **Writing down changes nothing**: neither the outcome of the walk, nor its state, nor what is
counted. -/
theorem Rounds.walk_noting (rounds : L → Rounds L V N A R) (limit : Nat) (inner : Inspector V N)
    (label : L) (root : N) (v : V) (calls : Calls) :
    (walk rounds limit inner label root (v, calls)).outcome =
        (walk (fun label => (rounds label).noting) limit (inner.zoomed Lens.fst) label root
          ((v, []), calls)).outcome ∧
      (walk rounds limit inner label root (v, calls)).state =
        ((walk (fun label => (rounds label).noting) limit (inner.zoomed Lens.fst) label root
            ((v, []), calls)).state.1.1,
          (walk (fun label => (rounds label).noting) limit (inner.zoomed Lens.fst) label root
            ((v, []), calls)).state.2) := by
  have start : Unnoted (v, calls) ((v, ([] : List (Encounter N))), calls) := rfl
  obtain ⟨outcome, state⟩ := Walk.node_matches (I := Inspector.Matches Unnoted) (fun _ _ h => h)
    (fun label => (rounds label).matches_noting _) limit _ _ inner.matches_metered label none root
    _ _ start
  exact ⟨Outcome.matches_eq_iff.1 outcome, state⟩

/-! ## The order of encounters -/

/-- What is met with on a part of a walk that is done, by visitors of which some have a gate (if
`gates true`) and some have none (if `gates false`). A node that is left out is not visited, and
nothing is met with below it; where another node was put in its place, that one is visited. -/
inductive Toured (gates : Bool → Prop) : Part N → List (Encounter N) → Prop
  | skipped {edge : Option Edge} {here : N} (gate : gates true) :
      Toured gates (.node edge here) [.ruled edge here .skip]
  | passed {edge : Option Edge} {here : N} {kind : Kind} {relations : List Relation}
      {attrs : Attrs} {below : List (Encounter N)} (gate : gates true)
      (descent : Toured gates (.relations here relations) below) :
      Toured gates (.node edge here)
        (.ruled edge here .proceed :: .visited true ⟨edge, here, kind, relations, attrs⟩ :: below)
  | ungated {edge : Option Edge} {here : N} {kind : Kind} {relations : List Relation}
      {attrs : Attrs} {below : List (Encounter N)} (gate : gates false)
      (descent : Toured gates (.relations here relations) below) :
      Toured gates (.node edge here)
        (.visited false ⟨edge, here, kind, relations, attrs⟩ :: below)
  | replaced {edge : Option Edge} {here other : N} {kind : Kind} {attrs : Attrs}
      {relations : List Relation} {below : List (Encounter N)} (gate : gates true)
      (descent : Toured gates (.relations other relations) below) :
      Toured gates (.node edge here)
        (.ruled edge here (.replace other kind attrs relations) ::
          .visited true ⟨edge, other, kind, relations, attrs⟩ :: below)
  | noRelation {here : N} : Toured gates (.relations here []) []
  | relation {here : N} {relation : Relation} {pairs : List (N × Attrs)}
      {relations : List Relation} {below more : List (Encounter N)}
      (rights : Toured gates (.rights relation pairs) below)
      (rest : Toured gates (.relations here relations) more) :
      Toured gates (.relations here (relation :: relations)) (below ++ more)
  | noRight {relation : Relation} : Toured gates (.rights relation []) []
  | right {relation : Relation} {here : N} {args : Attrs} {pairs : List (N × Attrs)}
      {below more : List (Encounter N)}
      (node : Toured gates (.node (some ⟨relation, args⟩) here) below)
      (rest : Toured gates (.rights relation pairs) more) :
      Toured gates (.rights relation ((here, args) :: pairs)) (below ++ more)

end TreeProtocol
