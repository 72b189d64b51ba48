import TreeProtocol.Proofs.Matching

/-!
# The turns of a walk

A walk takes turns with those that it calls: the gate, the inspector, and the visitor. Here a
visitor does its visits in stages: a first part, the descent into all relations, and a last part,
where an error of the descent is an error of the visit.

* `Stages` — such visitors;
* `Turn`, `Taken` — a turn, and a turn that was taken, with what became of it;
* `Stages.turned`, `Inspector.turned` — the visitor and the inspector whose turns are written down;
* `turned_walk` — writing down changes nothing;
* `DepthFirst` — the order of the turns of a walk that is done.
-/

namespace TreeProtocol

open TreeProtocol.Action

variable {L V W N A R α β : Type}

/-- A visitor that descends into all relations of every node, between two parts of its visit. -/
structure Stages (V N A R : Type) where
  gate : Option (Inspector V N → Option Edge → N → Action V (Verdict V N)) := none
  before : Site V N → Action V A
  /-- Gets what the first part came to, and what was brought back from below. -/
  after : Site V N → A → List (Findings R) → Action V R

/-- The stages as a visitor. -/
def Stages.visitor (s : Stages V N A R) : Visitor L V N R where
  gate := s.gate
  visit site descent := do
    let first ← s.before site
    let findings ← descent none none
    s.after site first findings

/-! ## Turns -/

/-- A verdict without the inspector that may come with it. -/
inductive Ruling (N : Type) where
  | skip
  | proceed
  | replace (node : N) (kind : Kind) (attrs : Attrs) (relations : List Relation)

/-- The ruling of a verdict. -/
def Verdict.ruling : Verdict W N → Ruling N
  | .skip => .skip
  | .proceed _ => .proceed
  | .replace node kind attrs relations _ => .replace node kind attrs relations

/-- A turn of the gate, of the inspector, or of one of the two parts of a visit. -/
inductive Turn (N : Type) where
  | gate (edge : Option Edge) (node : N)
  | asked (question : Question N)
  | before (edge : Option Edge) (node : N)
  | after (edge : Option Edge) (node : N)

namespace Turn

/-- What a turn comes to, as far as it is written down. -/
abbrev Result : Turn N → Type
  | gate _ _ => Ruling N
  | asked question => question.Answer
  | before _ _ | after _ _ => Unit

/-- Whether it is a turn of the visitor, and not one of the inspector. -/
def OfVisitor : Turn N → Prop
  | asked _ => False
  | _ => True

end Turn

/-- A turn that was taken. -/
structure Taken (N : Type) where
  turn : Turn N
  outcome : Outcome turn.Result

/-- Takes a turn and writes it down. -/
def Action.taking (turn : Turn N) (result : α → turn.Result) (x : Action V α) :
    Action (V × List (Taken N)) α :=
  (x.zoom Lens.fst).noted Lens.snd fun ended => ⟨turn, ended.map result⟩

theorem taking_eq (turn : Turn N) (result : α → turn.Result) (x : Action V α) (v : V)
    (log : List (Taken N)) : x.taking turn result (v, log) =
      ⟨(x v).outcome, ((x v).state, log ++ [⟨turn, (x v).outcome.map result⟩]), (x v).events⟩ :=
  noted_eq _ _ _ _

/-- The inspector whose turns are written down. -/
def Inspector.turned (i : Inspector V N) : Inspector (V × List (Taken N)) N :=
  .answering fun question => (i.answer question).taking (.asked question) id

/-- The inspector without what it writes down. -/
def Inspector.unturned (i : Inspector (V × List (Taken N)) N) : Inspector V N :=
  .answering fun question v =>
    ⟨(i.answer question (v, [])).outcome, (i.answer question (v, [])).state.1,
      (i.answer question (v, [])).events⟩

theorem Inspector.unturned_turned (i : Inspector V N) : i.turned.unturned = i := by
  have same : ∀ question,
      i.turned.answer question = (i.answer question).taking (.asked question) id :=
    fun question => by cases question <;> rfl
  rw [unturned]
  simp only [same, taking_eq]
  rfl

/-- The verdict with an inspector whose turns are written down. -/
def Verdict.turned : Verdict V N → Verdict (V × List (Taken N)) N
  | .skip => .skip
  | .proceed other => .proceed (other.map (·.turned))
  | .replace node kind attrs relations other =>
    .replace node kind attrs relations (other.map (·.turned))

/-- The site with an inspector whose turns are written down. -/
def Site.turned (site : Site V N) : Site (V × List (Taken N)) N :=
  ⟨site.edge, site.node, site.kind, site.relations, site.attrs, site.inspector.turned⟩

/-- The site without what its inspector writes down. -/
def Site.unturned (site : Site (V × List (Taken N)) N) : Site V N :=
  ⟨site.edge, site.node, site.kind, site.relations, site.attrs, site.inspector.unturned⟩

/-- The stages whose turns are written down. -/
def Stages.turned (s : Stages V N A R) : Stages (V × List (Taken N)) N A R where
  gate := s.gate.map fun gate i edge here => do
    let verdict ← (gate i.unturned edge here).taking (.gate edge here) Verdict.ruling
    Action.pure verdict.turned
  before site := (s.before site.unturned).taking (.before site.edge site.node) fun _ => ()
  after site first findings :=
    (s.after site.unturned first findings).taking (.after site.edge site.node) fun _ => ()

theorem Site.unturned_turned (site : Site V N) : site.turned.unturned = site := by
  rw [turned, unturned, Inspector.unturned_turned]

namespace Stages

variable (s : Stages V N A R)

theorem turned_before (site : Site V N) : s.turned.before site.turned =
    (s.before site).taking (.before site.edge site.node) fun _ => () := by
  show (s.before site.turned.unturned).taking _ _ = _
  rw [Site.unturned_turned]
  rfl

theorem turned_after (site : Site V N) (first : A) (findings : List (Findings R)) :
    s.turned.after site.turned first findings =
      (s.after site first findings).taking (.after site.edge site.node) fun _ => () := by
  show (s.after site.turned.unturned first findings).taking _ _ = _
  rw [Site.unturned_turned]
  rfl

theorem turned_visit (site : Site V N) (descent : Descent L (V × List (Taken N)) R) :
    s.turned.visitor.visit site.turned descent = (do
      let first ← (s.before site).taking (.before site.edge site.node) fun _ => ()
      let findings ← descent none none
      (s.after site first findings).taking (.after site.edge site.node) fun _ => ()) := by
  rw [visitor]
  dsimp only
  simp only [turned_before, turned_after]

theorem judge_turned (i : Inspector V N) (edge : Option Edge) (here : N) :
    Walk.judge (L := L) s.turned.visitor i.turned edge here =
      match s.gate with
      | some gate => (gate i edge here).taking (.gate edge here) Verdict.ruling >>= fun verdict =>
          Action.pure verdict.turned
      | none => Action.pure (.proceed none) := by
  have gate : (s.turned.visitor : Visitor L _ N R).gate = s.gate.map fun gate i edge here =>
      (gate i.unturned edge here).taking (.gate edge here) Verdict.ruling >>= fun verdict =>
        Action.pure verdict.turned := rfl
  unfold Walk.judge
  rw [gate]
  cases s.gate with
  | none => rfl
  | some gate =>
    rw [Option.map_some]
    dsimp only
    rw [Inspector.unturned_turned]

end Stages

theorem Inspector.turned_getD (i : Inspector V N) (other : Option (Inspector V N)) :
    (other.map (·.turned)).getD i.turned = (other.getD i).turned := by
  cases other <;> rfl

/-! ## Writing down changes nothing -/

/-- The second inspector is the first one with its turns written down. -/
def Turned (i : Inspector V N) (j : Inspector (V × List (Taken N)) N) : Prop := j = i.turned

theorem Turned.matches (i : Inspector V N) (j : Inspector (V × List (Taken N)) N)
    (h : Turned i j) : i.Matches Beside j := by
  subst h
  exact ⟨fun _ => matches_noted _ _, fun _ => matches_noted _ _, fun _ => matches_noted _ _,
    fun _ _ => matches_noted _ _⟩

theorem Verdict.matches_turned (verdict : Verdict V N) :
    Verdict.Matches Turned verdict verdict.turned := by
  have brought : ∀ other : Option (Inspector V N), other.Rel Turned (other.map (·.turned)) := by
    intro other
    cases other with
    | none => exact .none
    | some i => exact .some rfl
  cases verdict with
  | skip => exact .skip
  | proceed other => exact .proceed (brought other)
  | replace node kind attrs relations other => exact .replace _ _ _ _ (brought other)

theorem Stages.matches_turned (s : Stages V N A R) :
    (s.visitor : Visitor L V N R).Matches Beside Turned s.turned.visitor where
  gate := by
    show s.gate.Rel _ (s.gate.map _)
    cases s.gate with
    | none => exact .none
    | some gate =>
      refine .some fun i j hij edge here => ?_
      subst hij
      dsimp only
      rw [Inspector.unturned_turned]
      have ruled : Matches Beside (Verdict.Matches Turned) (gate i edge here >>= Action.pure)
          ((gate i edge here).taking (.gate edge here) Verdict.ruling >>= fun verdict =>
            Action.pure verdict.turned) :=
        (matches_noted _ _).bind_eq fun verdict => matches_pure verdict.matches_turned
      rwa [show gate i edge here >>= Action.pure = gate i edge here from bind_pure _] at ruled
  visit := by
    intro edge here kind relations attrs i j hij descent descent' hd
    subst hij
    have visit := s.turned_visit ⟨edge, here, kind, relations, attrs, i⟩ descent'
    rw [Site.turned] at visit
    rw [visit]
    exact (matches_noted _ _).bind_eq fun first => (hd none none).bind_eq fun findings =>
      matches_noted _ _

/-- The walk from a root with its turns written down. -/
def Stages.taken (s : Stages V N A R) (limit : Nat) (i : Inspector V N) (label : L) (root : N)
    (v : V) : Ran (V × List (Taken N)) (Option R) :=
  walk (fun _ => s.turned.visitor) limit i.turned label root (v, [])

/-- **Writing the turns down changes nothing**: neither the result of the walk nor its state. -/
theorem turned_walk (s : Stages V N A R) (limit : Nat) (i : Inspector V N) (label : L)
    (root : N) (v : V) :
    (s.taken limit i label root v).outcome =
        (walk (fun _ => s.visitor) limit i label root v).outcome ∧
      (s.taken limit i label root v).state.1 =
        (walk (fun _ => s.visitor) limit i label root v).state := by
  have start : Beside v (v, ([] : List (Taken N))) := rfl
  obtain ⟨outcome, state⟩ := Walk.node_matches Turned.matches (fun _ => s.matches_turned) limit
    i i.turned rfl label none root v (v, []) start
  exact ⟨(Outcome.matches_eq_iff.1 outcome).symm, state.symm⟩

/-! ## The order of turns -/

/-- The turns of a list are taken one after the other, each with a result and a log of its own. -/
inductive Chained (P : α → β → List (Taken N) → Prop) : List α → List β → List (Taken N) → Prop
  | nil : Chained P [] [] []
  | cons {x : α} {y : β} {log : List (Taken N)} {xs : List α} {ys : List β}
      {more : List (Taken N)} (head : P x y log) (tail : Chained P xs ys more) :
      Chained P (x :: xs) (y :: ys) (log ++ more)

/-- A part of a walk: a node with everything below it, all relations of a node, or all right nodes
of a relation. -/
inductive Part (N : Type) where
  | node (edge : Option Edge) (here : N)
  | relations (here : N) (relations : List Relation)
  | rights (relation : Relation) (pairs : List (N × Attrs))

/-- What the gate is asked about a node, if there is one. -/
def gateTurns (gated : Bool) (edge : Option Edge) (here : N) (ruling : Ruling N) :
    List (Taken N) :=
  if gated then [⟨.gate edge here, .done ruling⟩] else []

/-- The questions about a node that was let through. -/
def surveyTurns (here : N) (kind : Kind) (relations : List Relation) (attrs : Attrs) :
    List (Taken N) :=
  [⟨.asked (.kind here), .done kind⟩, ⟨.asked (.relations here), .done relations⟩,
    ⟨.asked (.attrs here), .done attrs⟩]

/-- A visit with what is done between its parts. -/
def visitTurns (edge : Option Edge) (here : N) (below : List (Taken N)) : List (Taken N) :=
  ⟨.before edge here, .done ()⟩ :: (below ++ [⟨.after edge here, .done ()⟩])

/-- **The depth-first order of turns.** The gate comes first; nothing else happens to a node that is
left out, and one that is put in the place of another is not asked about. The right nodes of a
relation are asked for when it is reached, and every right node is gone into before the next one. -/
inductive DepthFirst (gated : Bool) : Part N → List (Taken N) → Prop
  | skipped {edge : Option Edge} {here : N} (gate : gated = true) :
      DepthFirst gated (.node edge here) (gateTurns gated edge here .skip)
  | entered {edge : Option Edge} {here : N} {kind : Kind} {relations : List Relation}
      {attrs : Attrs} {below : List (Taken N)}
      (descent : DepthFirst gated (.relations here relations) below) :
      DepthFirst gated (.node edge here) (gateTurns gated edge here .proceed ++
        (surveyTurns here kind relations attrs ++ visitTurns edge here below))
  | replaced {edge : Option Edge} {here other : N} {kind : Kind} {relations : List Relation}
      {attrs : Attrs} {below : List (Taken N)} (gate : gated = true)
      (descent : DepthFirst gated (.relations other relations) below) :
      DepthFirst gated (.node edge here)
        (gateTurns gated edge here (.replace other kind attrs relations) ++
          visitTurns edge other below)
  | noRelation {here : N} : DepthFirst gated (.relations here []) []
  | relation {here : N} {relation : Relation} {pairs : List (N × Attrs)}
      {relations : List Relation} {below more : List (Taken N)}
      (rights : DepthFirst gated (.rights relation pairs) below)
      (rest : DepthFirst gated (.relations here relations) more) :
      DepthFirst gated (.relations here (relation :: relations))
        (⟨.asked (.related relation here), .done ⟨pairs⟩⟩ :: below ++ more)
  | noRight {relation : Relation} : DepthFirst gated (.rights relation []) []
  | right {relation : Relation} {here : N} {args : Attrs} {pairs : List (N × Attrs)}
      {below more : List (Taken N)}
      (node : DepthFirst gated (.node (some ⟨relation, args⟩) here) below)
      (rest : DepthFirst gated (.rights relation pairs) more) :
      DepthFirst gated (.rights relation ((here, args) :: pairs)) (below ++ more)

end TreeProtocol
