import Mathlib.Data.List.Forall2
import TreeProtocol.Construction.Composite
import TreeProtocol.Proofs.Calls
import TreeProtocol.Proofs.Session
import TreeProtocol.Proofs.Walks.Errors

/-!
# Two implementations side by side

Two builders, or two inspectors, match under a relation between their states if every operation has
the same outcome on both and keeps the relation. What the library does with a builder or an
inspector then matches as well, for it is put together from their operations:

* `Action.Matches` — two actions that match, with one lemma for each way to put actions together;
* `matches_noted` — an action matches itself written down;
* `Builder.Matches.composite`, `Builder.Matches.session` — composite construction and sessions;
* `Question` — what inspectors are asked, all of it in one type;
* `Walk.node_matches` — walks of visitors that match.
-/

namespace TreeProtocol

variable {W W' N L Q α β γ δ : Type}

/-! ## Actions -/

/-- Two outcomes of one kind: with the same error, or with results that `P` relates. -/
inductive Outcome.Matches (P : α → β → Prop) : Outcome α → Outcome β → Prop
  | done {a : α} {b : β} (h : P a b) : Matches P (.done a) (.done b)
  | failed (e : BuildError) : Matches P (.failed e) (.failed e)
  | crashed : Matches P .crashed .crashed

theorem Outcome.matches_eq_iff {o o' : Outcome α} : Outcome.Matches Eq o o' ↔ o = o' := by
  constructor
  · intro h
    cases h with
    | done h => rw [h]
    | failed e => rfl
    | crashed => rfl
  · rintro rfl
    cases o with
    | done a => exact .done rfl
    | failed e => exact .failed e
    | crashed => exact .crashed

/-- On states that `R` relates the actions end alike, with results that `P` relates, and leave
states behind that `R` relates again. -/
def Action.Matches (R : W → W' → Prop) (P : α → β → Prop) (x : Action W α) (y : Action W' β) :
    Prop :=
  ∀ w w', R w w' → Outcome.Matches P (x w).outcome (y w').outcome ∧ R (x w).state (y w').state

namespace Action

variable {R : W → W' → Prop} {P : α → β → Prop}

theorem matches_pure {a : α} {b : β} (h : P a b) :
    Matches R P (pure a : Action W α) (pure b : Action W' β) :=
  fun _ _ hw => ⟨.done h, hw⟩

theorem matches_fail (e : BuildError) :
    Matches R P (fail e : Action W α) (fail e : Action W' β) :=
  fun _ _ hw => ⟨.failed e, hw⟩

theorem matches_crash : Matches R P (crash : Action W α) (crash : Action W' β) :=
  fun _ _ hw => ⟨.crashed, hw⟩

theorem matches_emit (e e' : Event) :
    Matches R Eq (emit e : Action W Unit) (emit e' : Action W' Unit) :=
  fun _ _ hw => ⟨.done rfl, hw⟩

theorem matches_release {o : Outcome α} {o' : Outcome β} (h : Outcome.Matches P o o') :
    Matches R P (release o : Action W α) (release o' : Action W' β) :=
  fun _ _ hw => ⟨h, hw⟩

theorem matches_ofExcept (x : Except BuildError α) :
    Matches R Eq (ofExcept x : Action W α) (ofExcept x : Action W' α) :=
  fun _ _ hw => ⟨Outcome.matches_eq_iff.2 rfl, hw⟩

theorem Matches.bind {P' : γ → δ → Prop} {x : Action W α} {y : Action W' β} {f : α → Action W γ}
    {g : β → Action W' δ} (h : Matches R P x y)
    (next : ∀ a b, P a b → Matches R P' (f a) (g b)) : Matches R P' (x >>= f) (y >>= g) := by
  intro w w' hw
  obtain ⟨houtcome, hstate⟩ := h w w' hw
  generalize hx : (x w).outcome = o, hy : (y w').outcome = o' at houtcome
  cases houtcome with
  | done hab =>
    rw [bind_of_done hx, bind_of_done hy]
    exact next _ _ hab _ _ hstate
  | failed e =>
    rw [bind_of_failed hx, bind_of_failed hy]
    exact ⟨.failed e, hstate⟩
  | crashed =>
    rw [bind_of_crashed hx, bind_of_crashed hy]
    exact ⟨.crashed, hstate⟩

/-- One action after the other, where the first ones have the same result. -/
theorem Matches.bind_eq {P' : γ → δ → Prop} {x : Action W α} {y : Action W' α}
    {f : α → Action W γ} {g : α → Action W' δ} (h : Matches R Eq x y)
    (next : ∀ a, Matches R P' (f a) (g a)) : Matches R P' (x >>= f) (y >>= g) :=
  h.bind fun a _ hab => hab ▸ next a

theorem Matches.caught {x : Action W α} {y : Action W' α} (h : Matches R Eq x y) :
    Matches R Eq x.caught y.caught := by
  intro w w' hw
  obtain ⟨houtcome, hstate⟩ := h w w' hw
  exact ⟨.done (Outcome.matches_eq_iff.1 houtcome), hstate⟩

theorem Matches.forEach {f : γ → Action W α} {g : γ → Action W' α} {xs : List γ}
    (h : ∀ x ∈ xs, Matches R Eq (f x) (g x)) :
    Matches R Eq (Action.forEach f xs) (Action.forEach g xs) := by
  induction xs with
  | nil => exact matches_pure rfl
  | cons x more ih =>
    obtain ⟨hhead, hmore⟩ := List.forall_mem_cons.1 h
    exact hhead.bind_eq fun _ => (ih hmore).bind_eq fun _ => matches_pure rfl

end Action

open TreeProtocol.Action

/-- The same state, beside anything else. -/
def Beside {I : Type} (w : W) (w' : W × I) : Prop := w = w'.1

theorem matches_noted {I : Type} (x : Action W α) (incident : Outcome α → I) :
    Action.Matches Beside Eq x ((x.zoom Lens.fst).noted Lens.snd incident) := by
  rintro w ⟨_, log⟩ rfl
  rw [noted_eq]
  exact ⟨Outcome.matches_eq_iff.2 rfl, rfl⟩

/-! ## Builders -/

variable {R : W → W' → Prop} {b : Builder W N} {c : Builder W' N}

/-- The operations of the builders match. Around the bodies of sessions they may do different
things, if these keep a match. -/
structure Builder.Matches (R : W → W' → Prop) (b : Builder W N) (c : Builder W' N) : Prop where
  make : ∀ kind attrs, Action.Matches R Eq (b.make kind attrs) (c.make kind attrs)
  relate : ∀ relation left right args,
    Action.Matches R Eq (b.relate relation left right args) (c.relate relation left right args)
  finish : ∀ kind node, Action.Matches R Eq (b.finish kind node) (c.finish kind node)
  prepare : Action.Matches R Eq b.prepare c.prepare
  around : ∀ {α : Type} {x : Action W α} {y : Action W' α}, Action.Matches R Eq x y →
    Action.Matches R Eq (b.around x) (c.around y)
  close : ∀ ending, Action.Matches R Eq (b.close ending) (c.close ending)

/-- The right nodes are supplied alike. -/
structure RightSupply.Matches (R : W → W' → Prop) (r : RightSupply W N) (s : RightSupply W' N) :
    Prop where
  produce : Action.Matches R Eq r.produce s.produce
  args : r.args = s.args

/-- The plans are for one relation and supply its right nodes alike. -/
structure RelationPlan.Matches (R : W → W' → Prop) (p : RelationPlan W N) (q : RelationPlan W' N) :
    Prop where
  relation : p.relation = q.relation
  rights : List.Forall₂ (RightSupply.Matches R) p.rights q.rights

theorem RelationPlan.Matches.check_eq {p : RelationPlan W N} {q : RelationPlan W' N}
    (h : p.Matches R q) : p.check = q.check := by
  have size : p.size = q.size := h.rights.length_eq
  have args : p.rights.map (·.args) = q.rights.map (·.args) := by
    refine List.forall₂_eq_eq_eq ▸ List.forall₂_map_left_iff.2 (List.forall₂_map_right_iff.2 ?_)
    exact h.rights.imp fun _ _ hr => hr.args
  rw [check, check, h.relation, size, args]

theorem RelationPlan.checkAll_eq {ps : List (RelationPlan W N)} {qs : List (RelationPlan W' N)}
    (h : List.Forall₂ (RelationPlan.Matches R) ps qs) : checkAll ps = checkAll qs := by
  induction h with
  | nil => rfl
  | cons hhead hmore ih => rw [checkAll, checkAll, hhead.check_eq, ih]

namespace Builder.Matches

theorem on (h : b.Matches R c) (call : Call N) :
    Action.Matches R Eq (call.on b) (call.on c) := by
  cases call with
  | make kind attrs => exact (h.make kind attrs).bind_eq fun _ => matches_pure rfl
  | relate relation left right args =>
    exact (h.relate relation left right args).bind_eq fun _ => matches_pure rfl
  | finish kind node => exact (h.finish kind node).bind_eq fun _ => matches_pure rfl
  | prepare => exact h.prepare.bind_eq fun _ => matches_pure rfl
  | close ending => exact (h.close ending).bind_eq fun _ => matches_pure rfl

theorem attachRights (h : b.Matches R c) (relation : Relation) {rights : List (RightSupply W N)}
    {rights' : List (RightSupply W' N)}
    (hr : List.Forall₂ (RightSupply.Matches R) rights rights') (node : N) :
    Action.Matches R Eq (b.attachRights relation rights node)
      (c.attachRights relation rights' node) := by
  induction hr generalizing node with
  | nil => exact matches_pure rfl
  | cons hhead hmore ih =>
    rw [Builder.attachRights, Builder.attachRights, hhead.args]
    exact hhead.produce.bind_eq fun produced =>
      (h.relate relation node produced _).bind_eq fun next => ih next

theorem attachPlans (h : b.Matches R c) (kind : Kind) {plans : List (RelationPlan W N)}
    {plans' : List (RelationPlan W' N)}
    (hp : List.Forall₂ (RelationPlan.Matches R) plans plans') (node : N) :
    Action.Matches R Eq (b.attachPlans kind plans node) (c.attachPlans kind plans' node) := by
  induction hp generalizing node with
  | nil => exact matches_pure rfl
  | cons hhead hmore ih =>
    rw [Builder.attachPlans, Builder.attachPlans, hhead.relation]
    exact (matches_emit _ _).bind_eq fun _ =>
      (h.attachRights _ hhead.rights node).bind_eq fun next => ih next

/-- **Composite construction matches**, if its right nodes are supplied alike. -/
theorem composite (h : b.Matches R c) (kind : Kind) (attrs : Attrs)
    {plans : List (RelationPlan W N)} {plans' : List (RelationPlan W' N)}
    (hp : List.Forall₂ (RelationPlan.Matches R) plans plans') :
    Action.Matches R Eq (b.composite kind attrs plans) (c.composite kind attrs plans') := by
  rw [Builder.composite, Builder.composite, RelationPlan.checkAll_eq hp]
  exact (matches_ofExcept _).bind_eq fun _ => (h.make kind attrs).bind_eq fun node =>
    (h.attachPlans kind hp node).bind_eq fun next => h.finish kind next

theorem closeAfter (h : b.Matches R c) (o : Outcome α) :
    Action.Matches R Eq (b.closeAfter o) (c.closeAfter o) := by
  cases o with
  | done a =>
    exact (matches_emit _ _).bind_eq fun _ =>
      (h.close .completed).bind_eq fun _ => matches_pure rfl
  | failed e =>
    refine (matches_emit _ _).bind_eq fun _ => (h.close .aborted).caught.bind_eq fun closed => ?_
    cases closed with
    | done u => exact matches_fail e
    | failed closeError => exact (matches_emit _ _).bind_eq fun _ => matches_fail e
    | crashed => exact matches_crash
  | crashed =>
    refine (matches_emit _ _).bind_eq fun _ => (h.close .aborted).caught.bind_eq fun closed => ?_
    cases closed with
    | done u => exact matches_crash
    | failed closeError => exact (matches_emit _ _).bind_eq fun _ => matches_crash
    | crashed => exact matches_crash

/-- **Sessions match**, if their bodies do. -/
theorem session (h : b.Matches R c) {x : Action W α} {y : Action W' α}
    (body : Action.Matches R Eq x y) : Action.Matches R Eq (b.session x) (c.session y) :=
  h.prepare.bind_eq fun _ => (matches_emit _ _).bind_eq fun _ =>
    (h.around body).caught.bind_eq fun ended => h.closeAfter ended

end Builder.Matches

/-! ## Inspectors -/

/-- A question about a node. -/
inductive Question (N : Type) where
  | kind (node : N)
  | attrs (node : N)
  | relations (node : N)
  | related (relation : Relation) (node : N)

/-- What a question is answered with. -/
abbrev Question.Answer : Question N → Type
  | .kind _ => Kind
  | .attrs _ => Attrs
  | .relations _ => List Relation
  | .related _ _ => Related N

/-- The questions of the inspectors match. -/
structure Inspector.Matches (R : W → W' → Prop) (i : Inspector W N) (j : Inspector W' N) :
    Prop where
  kind : ∀ node, Action.Matches R Eq (i.kind node) (j.kind node)
  attrs : ∀ node, Action.Matches R Eq (i.attrs node) (j.attrs node)
  relations : ∀ node, Action.Matches R Eq (i.relations node) (j.relations node)
  related : ∀ relation node, Action.Matches R Eq (i.related relation node) (j.related relation node)

namespace Inspector

/-- Asks a question. -/
def answer (i : Inspector W N) : (q : Question N) → Action W q.Answer
  | .kind node => i.kind node
  | .attrs node => i.attrs node
  | .relations node => i.relations node
  | .related relation node => i.related relation node

/-- The inspector that gives these answers. -/
def answering (answers : (q : Question N) → Action W q.Answer) : Inspector W N where
  kind node := answers (.kind node)
  attrs node := answers (.attrs node)
  relations node := answers (.relations node)
  related relation node := answers (.related relation node)

theorem Matches.answer {i : Inspector W N} {j : Inspector W' N} (h : i.Matches R j)
    (question : Question N) : Action.Matches R Eq (i.answer question) (j.answer question) := by
  cases question with
  | kind node => exact h.kind node
  | attrs node => exact h.attrs node
  | relations node => exact h.relations node
  | related relation node => exact h.related relation node

theorem matches_answering {answers : (q : Question N) → Action W q.Answer}
    {answers' : (q : Question N) → Action W' q.Answer}
    (h : ∀ q, Action.Matches R Eq (answers q) (answers' q)) :
    (answering answers).Matches R (answering answers') where
  kind node := h (.kind node)
  attrs node := h (.attrs node)
  relations node := h (.relations node)
  related relation node := h (.related relation node)

end Inspector

/-! ## Walks -/

section Walks

variable {I : Inspector W N → Inspector W' N → Prop}

/-- The verdicts are the same, with inspectors that `I` relates. -/
inductive Verdict.Matches (I : Inspector W N → Inspector W' N → Prop) :
    Verdict W N → Verdict W' N → Prop
  | skip : Matches I .skip .skip
  | proceed {o : Option (Inspector W N)} {o' : Option (Inspector W' N)} (h : o.Rel I o') :
      Matches I (.proceed o) (.proceed o')
  | replace (node : N) (kind : Kind) (attrs : Attrs) (relations : List Relation)
      {o : Option (Inspector W N)} {o' : Option (Inspector W' N)} (h : o.Rel I o') :
      Matches I (.replace node kind attrs relations o) (.replace node kind attrs relations o')

/-- The visitors do the same: with inspectors that `I` relates, and with matching descents. -/
structure Visitor.Matches (R : W → W' → Prop) (I : Inspector W N → Inspector W' N → Prop)
    (v : Visitor L W N Q) (v' : Visitor L W' N Q) : Prop where
  gate : v.gate.Rel (fun gate gate' => ∀ i j, I i j → ∀ edge here,
    Action.Matches R (Verdict.Matches I) (gate i edge here) (gate' j edge here)) v'.gate
  visit : ∀ edge node kind relations attrs i j, I i j →
    ∀ (descent : Descent L W Q) (descent' : Descent L W' Q),
      (∀ names other, Action.Matches R Eq (descent names other) (descent' names other)) →
      Action.Matches R Eq (v.visit ⟨edge, node, kind, relations, attrs, i⟩ descent)
        (v'.visit ⟨edge, node, kind, relations, attrs, j⟩ descent')

theorem rel_getD {i : Inspector W N} {j : Inspector W' N} (h : I i j)
    {o : Option (Inspector W N)} {o' : Option (Inspector W' N)} (ho : o.Rel I o') :
    I (o.getD i) (o'.getD j) := by
  cases ho with
  | some h' => exact h'
  | none => exact h

namespace Walk

/-- The steps below a level match with inspectors that `I` relates. -/
def StepMatches (R : W → W' → Prop) (I : Inspector W N → Inspector W' N → Prop)
    (step : Step L W N Q) (step' : Step L W' N Q) : Prop :=
  ∀ i j, I i j → ∀ label edge here,
    Action.Matches R Eq (step i label edge here) (step' j label edge here)

variable {step : Step L W N Q} {step' : Step L W' N Q} {i : Inspector W N} {j : Inspector W' N}
  {edge : Option Edge} {node : N} {kind : Kind} {relations : List Relation} {attrs : Attrs}

theorem intoRelation_matches (reads : ∀ i j, I i j → i.Matches R j)
    (hstep : StepMatches R I step step') (hi : I i j) (label : L)
    (relation : Relation) :
    Action.Matches R Eq
      (intoRelation step ⟨edge, node, kind, relations, attrs, i⟩ label relation)
      (intoRelation step' ⟨edge, node, kind, relations, attrs, j⟩ label relation) := by
  refine ((reads i j hi).related relation node).bind_eq fun related => ?_
  dsimp only
  split
  · exact (Matches.forEach fun r _ => hstep i j hi label _ r.1).bind_eq fun _ => matches_pure rfl
  · split
    · exact matches_pure rfl
    · exact (hstep i j hi label _ _).bind_eq fun _ => matches_pure rfl
    · exact matches_fail _

theorem descend_matches (reads : ∀ i j, I i j → i.Matches R j)
    (hstep : StepMatches R I step step') (hi : I i j) (label : L) (names : Option (List String))
    (other : Option L) :
    Action.Matches R Eq
      (descend step ⟨edge, node, kind, relations, attrs, i⟩ label names other)
      (descend step' ⟨edge, node, kind, relations, attrs, j⟩ label names other) := by
  cases names with
  | none => exact Matches.forEach fun relation _ => intoRelation_matches reads hstep hi _ relation
  | some names =>
    refine Matches.forEach fun name _ => ?_
    rw [intoNamed, intoNamed]
    dsimp only
    split
    · exact intoRelation_matches reads hstep hi _ _
    · exact matches_pure rfl

variable {visitors : L → Visitor L W N Q} {visitors' : L → Visitor L W' N Q}

theorem judge_matches {v : Visitor L W N Q} {v' : Visitor L W' N Q} (hv : v.Matches R I v')
    (hi : I i j) (edge : Option Edge) (here : N) :
    Action.Matches R (Verdict.Matches I) (judge v i edge here) (judge v' j edge here) := by
  have gates := hv.gate
  unfold judge
  revert gates
  generalize v.gate = gate, v'.gate = gate'
  intro gates
  cases gates with
  | some h => exact h i j hi edge here
  | none => exact matches_pure (.proceed .none)

theorem survey_matches (hi : i.Matches R j) (edge : Option Edge) (here : N) :
    Action.Matches R
      (fun site site' => ∃ kind relations attrs, site = ⟨edge, here, kind, relations, attrs, i⟩ ∧
        site' = ⟨edge, here, kind, relations, attrs, j⟩)
      (survey i edge here) (survey j edge here) :=
  (hi.kind here).bind_eq fun kind => (hi.relations here).bind_eq fun relations =>
    (hi.attrs here).bind_eq fun attrs => matches_pure ⟨kind, relations, attrs, rfl, rfl⟩

theorem visitSite_matches (reads : ∀ i j, I i j → i.Matches R j)
    (hv : ∀ label, (visitors label).Matches R I (visitors' label))
    (hstep : StepMatches R I step step') (hi : I i j) (label : L) :
    Action.Matches R Eq
      (visitSite visitors step label ⟨edge, node, kind, relations, attrs, i⟩)
      (visitSite visitors' step' label ⟨edge, node, kind, relations, attrs, j⟩) := by
  refine (matches_emit _ _).bind_eq fun _ => Matches.bind_eq ?_ fun _ => matches_pure rfl
  exact (hv label).visit edge node kind relations attrs i j hi _ _ fun names other =>
    descend_matches reads hstep hi label names other

/-- **Walks match**, if their visitors and their inspectors do. Induction on the limit; `I` may
relate fewer inspectors than match, if gates look at them more closely than by asking. -/
theorem node_matches (reads : ∀ i j, I i j → i.Matches R j)
    (hv : ∀ label, (visitors label).Matches R I (visitors' label)) (limit : Nat) :
    StepMatches R I (Walk.node visitors limit) (Walk.node visitors' limit) := by
  induction limit with
  | zero => exact fun _ _ _ _ _ _ => matches_crash
  | succ limit ih =>
    intro i j hi label edge here
    rw [Walk.node, Walk.node, level, level, arrive, arrive]
    refine (judge_matches (hv label) hi edge here).bind fun verdict verdict' hverdict => ?_
    cases hverdict with
    | skip => exact (matches_emit _ _).bind_eq fun _ => matches_pure rfl
    | proceed h =>
      have hi' := rel_getD hi h
      refine Matches.bind (survey_matches (reads _ _ hi') edge here) ?_
      rintro _ _ ⟨kind, relations, attrs, rfl, rfl⟩
      exact visitSite_matches reads hv ih hi' label
    | replace node kind attrs relations h =>
      exact visitSite_matches reads hv ih (rel_getD hi h) label

end Walk

end Walks

end TreeProtocol
