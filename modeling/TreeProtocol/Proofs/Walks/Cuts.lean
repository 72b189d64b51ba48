import TreeProtocol.Proofs.Walks.Turns

/-!
# Walks that are cut short

One visitor does what another one does, but fails at some of its turns. Its walk is the walk of the
other one up to the first turn at which it fails; nothing comes after that turn, and the walk ends
as the turn did.

* `Stages.Completes` — a visitor that never fails, and does what the other one does where that one
  does not fail either;
* `CutShort` — two runs, of which one may be cut short;
* `Cut` — two actions whose runs are such, with one lemma for each way to put actions together;
* `node_cut` — walks of two such visitors, with the turns of the one that never fails in depth-first
  order.
-/

namespace TreeProtocol

open TreeProtocol.Action

variable {L V N A R α β γ : Type}

/-- A way of not being done. -/
inductive Stop where
  | failed (error : BuildError)
  | crashed

/-- An outcome that is a stop. -/
def Stop.outcome : Stop → Outcome α
  | failed e => .failed e
  | crashed => .crashed

theorem Stop.map_outcome (stop : Stop) (f : α → β) :
    (stop.outcome : Outcome α).map f = stop.outcome := by
  cases stop <;> rfl

theorem Outcome.done_or_stop (o : Outcome α) :
    (∃ a, o = .done a) ∨ ∃ stop : Stop, o = stop.outcome := by
  cases o with
  | done a => exact .inl ⟨a, rfl⟩
  | failed e => exact .inr ⟨.failed e, rfl⟩
  | crashed => exact .inr ⟨.crashed, rfl⟩

theorem Action.bind_of_stop {W : Type} {x : Action W α} {w : W} {stop : Stop}
    (h : (x w).outcome = stop.outcome) (f : α → Action W β) :
    (x >>= f) w = ⟨stop.outcome, (x w).state, (x w).events⟩ := by
  cases stop with
  | failed e => exact bind_of_failed h f
  | crashed => exact bind_of_crashed h f

/-! ## Visitors of which one never fails -/

/-- The action is always done, and does what the other one does where that one is done. -/
def Action.Completes (full x : Action V α) : Prop :=
  ∀ v, (∃ a, (full v).outcome = .done a) ∧
    ∀ a, (x v).outcome = .done a → (full v).outcome = .done a ∧ (full v).state = (x v).state

/-- The visitor never fails, and does what the other one does where that one does not fail. -/
structure Stages.Completes (full s : Stages V N A R) : Prop where
  gate : full.gate.Rel (fun gate gate' => ∀ i edge here,
    (gate i edge here).Completes (gate' i edge here)) s.gate
  before : ∀ site, (full.before site).Completes (s.before site)
  after : ∀ site first findings,
    (full.after site first findings).Completes (s.after site first findings)

/-! ## Two runs -/

/-- Behind `log` the full run takes the turns `turns`. The other run is the same, or it stops at a
turn of the visitor, with what the turn came to. -/
inductive CutShort (log turns : List (Taken N)) (full r : Ran (V × List (Taken N)) α) : Prop
  | same (outcome : r.outcome = full.outcome) (state : r.state = full.state)
  | cut (before : List (Taken N)) (turn : Turn N) (result : turn.Result) (after : List (Taken N))
      (stop : Stop) (split : turns = before ++ ⟨turn, .done result⟩ :: after)
      (ofVisitor : turn.OfVisitor) (outcome : r.outcome = stop.outcome)
      (state : r.state.2 = log ++ (before ++ [⟨turn, stop.outcome⟩]))

/-- No turn of the visitor has failed. -/
def Unfailing (turns : List (Taken N)) : Prop :=
  ∀ t ∈ turns, t.turn.OfVisitor → ∃ result, t.outcome = .done result

/-- The first action takes turns at which the visitor never fails, as `P` says if it is done; the
other one does the same, or is cut short. -/
def Cut (P : α → List (Taken N) → Prop) (full x : Action (V × List (Taken N)) α) : Prop :=
  ∀ v log, ∃ turns, (full (v, log)).state.2 = log ++ turns ∧ Unfailing turns ∧
    (∀ a, (full (v, log)).outcome = .done a → P a turns) ∧
    CutShort log turns (full (v, log)) (x (v, log))

section Cuts

variable {P : α → List (Taken N) → Prop} {Q : β → List (Taken N) → Prop}
  {full x : Action (V × List (Taken N)) α}

theorem unfailing_nil : Unfailing ([] : List (Taken N)) := fun _ h => nomatch h

theorem Unfailing.append {turns more : List (Taken N)} (h : Unfailing turns)
    (hmore : Unfailing more) : Unfailing (turns ++ more) :=
  List.forall_mem_append.2 ⟨h, hmore⟩

/-- An action that takes no turn. -/
theorem cut_still (h : ∀ w, (x w).state = w) (result : ∀ w a, (x w).outcome = .done a → P a []) :
    Cut P x x := by
  intro v log
  refine ⟨[], ?_, unfailing_nil, result (v, log), .same rfl rfl⟩
  rw [h, List.append_nil]

theorem cut_pure {a : α} (h : P a []) :
    Cut P (Action.pure a : Action (V × List (Taken N)) α) (Action.pure a) :=
  cut_still (fun _ => rfl) fun _ _ ha => Outcome.done.inj ha ▸ h

theorem cut_fail (e : BuildError) :
    Cut P (fail e : Action (V × List (Taken N)) α) (fail e) :=
  cut_still (fun _ => rfl) fun _ _ ha => nomatch ha

theorem cut_crash : Cut P (crash : Action (V × List (Taken N)) α) crash :=
  cut_still (fun _ => rfl) fun _ _ ha => nomatch ha

theorem cut_emit (e : Event) :
    Cut (fun _ turns => turns = []) (emit e : Action (V × List (Taken N)) Unit) (emit e) :=
  cut_still (fun _ => rfl) fun _ _ _ => rfl

/-- A question is the same in both runs. -/
theorem cut_asked (question : Question N) (x : Action V question.Answer) :
    Cut (fun answer turns => turns = [⟨.asked question, .done answer⟩])
      (x.taking (.asked question) id) (x.taking (.asked question) id) := by
  intro v log
  rw [taking_eq]
  refine ⟨[⟨.asked question, (x v).outcome.map id⟩], rfl, ?_, ?_, .same rfl rfl⟩
  · exact List.forall_mem_singleton.2 fun h => h.elim
  · intro a ha
    rw [show (x v).outcome = .done a from ha]
    rfl

/-- A turn of the visitor. -/
theorem cut_taking {turn : Turn N} (ofVisitor : turn.OfVisitor) {result : α → turn.Result}
    {full x : Action V α} (h : full.Completes x) :
    Cut (fun a turns => turns = [⟨turn, .done (result a)⟩]) (full.taking turn result)
      (x.taking turn result) := by
  intro v log
  obtain ⟨⟨a, ha⟩, agrees⟩ := h v
  rw [taking_eq, taking_eq, ha]
  refine ⟨[⟨turn, .done (result a)⟩], rfl, ?_, ?_, ?_⟩
  · exact List.forall_mem_singleton.2 fun _ => ⟨result a, rfl⟩
  · intro b hb
    rw [Outcome.done.inj hb]
  · rcases (x v).outcome.done_or_stop with ⟨b, hb⟩ | ⟨stop, hstop⟩
    · obtain ⟨outcome, state⟩ := agrees b hb
      rw [hb, ← outcome, ha, state]
      exact .same rfl rfl
    · rw [hstop, stop.map_outcome]
      exact .cut [] turn (result a) [] stop rfl ofVisitor rfl rfl

/-- **One action after the other.** A cut in the first action cuts both. -/
theorem Cut.bind {f f' : α → Action (V × List (Taken N)) β} (h : Cut P full x)
    (next : ∀ a turns, P a turns → Cut (fun b more => Q b (turns ++ more)) (f a) (f' a)) :
    Cut Q (full >>= f) (x >>= f') := by
  intro v log
  obtain ⟨turns, state, unfailing, result, short⟩ := h v log
  rcases (full (v, log)).outcome.done_or_stop with ⟨a, ha⟩ | ⟨stop, hstop⟩
  · obtain ⟨more, state', unfailing', result', short'⟩ :=
      next a turns (result a ha) (full (v, log)).state.1 (log ++ turns)
    have reached : (full (v, log)).state = ((full (v, log)).state.1, log ++ turns) :=
      Prod.ext rfl state
    rw [← reached] at state' result' short'
    rw [bind_of_done ha]
    refine ⟨turns ++ more, ?_, unfailing.append unfailing', result', ?_⟩
    · rw [← List.append_assoc]
      exact state'
    · cases short with
      | same outcome same =>
        rw [bind_of_done (outcome.trans ha), same]
        cases short' with
        | same outcome' same' => exact .same outcome' same'
        | cut before turn answer after stop split ofVisitor outcome' stopped =>
          refine .cut (turns ++ before) turn answer after stop ?_ ofVisitor outcome' ?_
          · rw [split, List.append_assoc]
          · rw [Ran.after_state, stopped, List.append_assoc, List.append_assoc]
      | cut before turn answer after stop split ofVisitor outcome stopped =>
        rw [bind_of_stop outcome]
        refine .cut before turn answer (after ++ more) stop ?_ ofVisitor rfl stopped
        rw [split, List.append_assoc]
        rfl
  · rw [bind_of_stop hstop]
    refine ⟨turns, state, unfailing, ?_, ?_⟩
    · intro b hb
      cases stop <;> cases hb
    · cases short with
      | same outcome same =>
        rw [bind_of_stop (outcome.trans hstop)]
        exact .same rfl same
      | cut before turn answer after stop split ofVisitor outcome stopped =>
        rw [bind_of_stop outcome]
        exact .cut before turn answer after stop split ofVisitor rfl stopped

theorem Cut.imp {P' : α → List (Taken N) → Prop} (h : Cut P full x)
    (imp : ∀ a turns, P a turns → P' a turns) : Cut P' full x := by
  intro v log
  obtain ⟨turns, state, unfailing, result, short⟩ := h v log
  exact ⟨turns, state, unfailing, fun a ha => imp a turns (result a ha), short⟩

theorem Cut.bind_pure (h : Cut P full x) (g : α → β) (imp : ∀ a turns, P a turns → Q (g a) turns) :
    Cut Q (full >>= fun a => Action.pure (g a)) (x >>= fun a => Action.pure (g a)) := by
  refine h.bind fun a turns ha => cut_pure ?_
  rw [List.append_nil]
  exact imp a turns ha

theorem Cut.forEach {P : γ → α → List (Taken N) → Prop}
    {f f' : γ → Action (V × List (Taken N)) α} {zs : List γ}
    (h : ∀ z ∈ zs, Cut (P z) (f z) (f' z)) :
    Cut (Chained P zs) (Action.forEach f zs) (Action.forEach f' zs) := by
  induction zs with
  | nil => exact cut_pure .nil
  | cons z more ih =>
    obtain ⟨hhead, hmore⟩ := List.forall_mem_cons.1 h
    exact hhead.bind fun a turns ha => (ih hmore).bind_pure _ fun as more has => .cons ha has

end Cuts

/-! ## Walks -/

theorem DepthFirst.rights_of_chained {gated : Bool} {relation : Relation}
    {pairs : List (N × Attrs)} {results : List α} {turns : List (Taken N)}
    (h : Chained (fun r _ turns => DepthFirst gated (.node (some ⟨relation, r.2⟩) r.1) turns)
      pairs results turns) : DepthFirst gated (.rights relation pairs) turns := by
  induction h with
  | nil => exact .noRight
  | cons head tail ih => exact .right head ih

/-- The turns of going into one relation of a node. -/
def RelationTurns (gated : Bool) (here : N) (relation : Relation) (turns : List (Taken N)) : Prop :=
  ∃ pairs below, DepthFirst gated (.rights relation pairs) below ∧
    turns = ⟨.asked (.related relation here), .done ⟨pairs⟩⟩ :: below

theorem DepthFirst.relations_of_chained {gated : Bool} {here : N} {relations : List Relation}
    {results : List α} {turns : List (Taken N)}
    (h : Chained (fun relation _ turns => RelationTurns gated here relation turns) relations results
      turns) : DepthFirst gated (.relations here relations) turns := by
  induction h with
  | nil => exact .noRelation
  | cons head tail ih =>
    obtain ⟨pairs, below, rights, rfl⟩ := head
    exact .relation rights ih

namespace Walk

variable {gated : Bool} {step step' : Step L (V × List (Taken N)) N R} {label : L}

/-- The steps below a level are cut short at most, and are depth-first if they are done. -/
def StepCut (gated : Bool) (step step' : Step L (V × List (Taken N)) N R) : Prop :=
  ∀ (i : Inspector V N) label edge here,
    Cut (fun _ turns => DepthFirst gated (.node edge here) turns) (step i.turned label edge here)
      (step' i.turned label edge here)

theorem intoRelation_cut (hstep : StepCut gated step step') (site : Site V N)
    (relation : Relation) :
    Cut (fun _ turns => RelationTurns gated site.node relation turns)
      (intoRelation step site.turned label relation)
      (intoRelation step' site.turned label relation) := by
  refine (cut_asked (.related relation site.node) _).bind fun related turns hrelated => ?_
  subst hrelated
  dsimp only
  split
  · refine (Cut.forEach fun r _ => hstep site.inspector label _ r.1).bind_pure _ ?_
    exact fun results below chained => ⟨related.pairs, below, .rights_of_chained chained, rfl⟩
  · split
    · next hpairs => exact cut_pure ⟨[], [], .noRight, by rw [← hpairs]; rfl⟩
    · next node args hpairs =>
      refine (hstep site.inspector label _ node).bind_pure _ fun result below hbelow => ?_
      refine ⟨[(node, args)], below ++ [], .right hbelow .noRight, ?_⟩
      rw [← hpairs, List.append_nil]
      rfl
    · exact cut_fail _

theorem descend_cut (hstep : StepCut gated step step') (site : Site V N) :
    Cut (fun _ turns => DepthFirst gated (.relations site.node site.relations) turns)
      (descend step site.turned label none none) (descend step' site.turned label none none) := by
  show Cut _ (forEach (intoRelation step site.turned label) site.relations)
    (forEach (intoRelation step' site.turned label) site.relations)
  exact (Cut.forEach fun relation _ => intoRelation_cut hstep site relation).imp
    fun _ _ chained => .relations_of_chained chained

variable {full s : Stages V N A R}

theorem judge_cut (h : full.Completes s) (i : Inspector V N) (edge : Option Edge) (here : N) :
    Cut (fun verdict turns => ∃ ruled : Verdict V N, verdict = ruled.turned ∧
        turns = gateTurns s.gate.isSome edge here ruled.ruling ∧
        (s.gate.isSome = false → ruled = .proceed none))
      (judge (L := L) full.turned.visitor i.turned edge here)
      (judge (L := L) s.turned.visitor i.turned edge here) := by
  have gates := h.gate
  rw [Stages.judge_turned, Stages.judge_turned]
  revert gates
  generalize full.gate = gate, s.gate = gate'
  intro gates
  cases gates with
  | none => exact cut_pure ⟨.proceed none, rfl, rfl, fun _ => rfl⟩
  | some completes =>
    refine (cut_taking (by trivial) (completes i edge here)).bind_pure _ fun ruled _ hturns => ?_
    exact ⟨ruled, rfl, hturns, fun h => nomatch h⟩

theorem survey_cut (i : Inspector V N) (edge : Option Edge) (here : N) :
    Cut (fun site turns => ∃ kind relations attrs,
        site = Site.turned ⟨edge, here, kind, relations, attrs, i⟩ ∧
        turns = surveyTurns here kind relations attrs)
      (survey i.turned edge here) (survey i.turned edge here) := by
  refine (cut_asked (.kind here) _).bind fun kind _ hkind => ?_
  refine (cut_asked (.relations here) _).bind fun relations _ hrelations => ?_
  refine (cut_asked (.attrs here) _).bind_pure _ fun attrs _ hattrs => ?_
  subst hkind hrelations hattrs
  exact ⟨kind, relations, attrs, rfl, rfl⟩

theorem visitSite_cut (h : full.Completes s) (hstep : StepCut gated step step') (label : L)
    (site : Site V N) :
    Cut (fun _ turns => ∃ below, DepthFirst gated (.relations site.node site.relations) below ∧
        turns = visitTurns site.edge site.node below)
      (visitSite (fun _ => full.turned.visitor) step label site.turned)
      (visitSite (fun _ => s.turned.visitor) step' label site.turned) := by
  rw [visitSite, visitSite, visitWith, visitWith, Stages.turned_visit, Stages.turned_visit]
  refine (cut_emit _).bind fun _ _ hquiet => ?_
  subst hquiet
  refine Cut.bind_pure (P := fun _ turns => ∃ below,
    DepthFirst gated (.relations site.node site.relations) below ∧
      turns = visitTurns site.edge site.node below) ?_ _ fun _ _ visited => visited
  refine (cut_taking (by trivial) (h.before site)).bind fun first _ hfirst => ?_
  refine (descend_cut hstep site).bind fun findings below descent => ?_
  refine (cut_taking (by trivial) (h.after site first findings)).imp fun _ _ hlast => ?_
  subst hfirst hlast
  exact ⟨below, descent, rfl⟩

/-- **Walks of which one never fails.** Induction on the limit. -/
theorem node_cut (h : full.Completes s) (limit : Nat) :
    StepCut s.gate.isSome (Walk.node (fun _ : L => full.turned.visitor) limit)
      (Walk.node (fun _ => s.turned.visitor) limit) := by
  induction limit with
  | zero => exact fun _ _ _ _ => cut_crash
  | succ limit ih =>
    intro i label edge here
    rw [node, node, level, level, arrive, arrive]
    refine (judge_cut h i edge here).bind fun verdict turns ruled => ?_
    obtain ⟨ruled, rfl, rfl, ungated⟩ := ruled
    have gated : (∀ other, ruled ≠ .proceed other) → s.gate.isSome = true := fun barred => by
      by_contra absent
      exact barred none (ungated (Bool.eq_false_of_not_eq_true absent))
    cases ruled with
    | skip =>
      refine (cut_emit _).bind_pure _ fun _ _ hquiet => ?_
      rw [hquiet, List.append_nil]
      refine .skipped (gated fun other h => ?_)
      cases h
    | proceed other =>
      show Cut _ (survey ((other.map (·.turned)).getD i.turned) edge here >>= _)
        (survey ((other.map (·.turned)).getD i.turned) edge here >>= _)
      rw [Inspector.turned_getD]
      refine (survey_cut _ edge here).bind fun site turns surveyed => ?_
      obtain ⟨kind, relations, attrs, rfl, rfl⟩ := surveyed
      refine (visitSite_cut h ih label _).imp fun _ _ visited => ?_
      obtain ⟨below, descent, rfl⟩ := visited
      exact .entered descent
    | replace node' kind attrs relations other =>
      show Cut _
        (visitSite _ _ label ⟨edge, node', kind, relations, attrs, (other.map _).getD i.turned⟩)
        (visitSite _ _ label ⟨edge, node', kind, relations, attrs, (other.map _).getD i.turned⟩)
      rw [Inspector.turned_getD]
      refine (visitSite_cut h ih label ⟨edge, node', kind, relations, attrs, other.getD i⟩).imp
        fun _ _ visited => ?_
      obtain ⟨below, descent, rfl⟩ := visited
      refine .replaced (gated fun other h => ?_) descent
      cases h

end Walk

end TreeProtocol
