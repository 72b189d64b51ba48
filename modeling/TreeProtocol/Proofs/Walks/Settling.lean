import TreeProtocol.Proofs.Walks.Turns

/-!
# Walks that settle

A walk settles if from some limit on it does not matter what the limit is: every run is done, and
all of them take the same turns. To know that a walk settles is to know it of the walks into the
right nodes, whatever the gate and the inspector may answer.

* `Action.May`, `Action.Total` — the results that an action may have; actions that always have one;
* `Settles` — actions that settle with results and turns as `P` says;
* `Walk.intoRelation_settles`, `Walk.visitSite_settles`, `Walk.node_settles` — one level of a walk.
-/

namespace TreeProtocol

open TreeProtocol.Action

variable {L V N A R α β γ : Type}

namespace Action

/-- In some state the action is done with the result. -/
def May (x : Action V α) (a : α) : Prop := ∃ v, (x v).outcome = .done a

/-- In every state the action is done. -/
def Total (x : Action V α) : Prop := ∀ v, ∃ a, (x v).outcome = .done a

/-- What is read in every state alike has one answer. -/
theorem May.eq_of_ok {answer : Except BuildError α} {a b : α} (h : answer = .ok a)
    (may : May (fun v : V => ⟨.ofExcept answer, v, []⟩) b) : b = a := by
  obtain ⟨v, hv⟩ := may
  rw [h] at hv
  exact (Outcome.done.inj hv).symm

theorem total_of_ok {answer : Except BuildError α} {a : α} (h : answer = .ok a) :
    Total fun v : V => ⟨.ofExcept answer, v, []⟩ :=
  fun _ => ⟨a, congrArg Outcome.ofExcept h⟩

theorem May.eq_of_pure {a b : α} (may : (Action.pure a : Action V α).May b) : b = a := by
  obtain ⟨v, hv⟩ := may
  exact (Outcome.done.inj hv).symm

theorem total_pure (a : α) : (Action.pure a : Action V α).Total := fun _ => ⟨a, rfl⟩

end Action

/-- From some limit on every run is done with the same result, in the same state and with the same
turns; result and turns are as `P` says. -/
def Settles (P : α → List (Taken N) → Prop) (x : Nat → Action (V × List (Taken N)) α) : Prop :=
  ∀ v log, ∃ a v' turns depth, P a turns ∧ ∀ limit, depth ≤ limit →
    (x limit (v, log)).outcome = .done a ∧ (x limit (v, log)).state = (v', log ++ turns)

section Settling

variable {P : α → List (Taken N) → Prop} {Q : β → List (Taken N) → Prop}
  {x : Nat → Action (V × List (Taken N)) α}

theorem settles_pure {a : α} (h : P a []) :
    Settles (V := V) P fun _ => (Action.pure a : Action (V × List (Taken N)) α) := by
  intro v log
  refine ⟨a, v, [], 0, h, fun _ _ => ⟨rfl, ?_⟩⟩
  rw [List.append_nil]
  rfl

theorem settles_emit (e : Event) :
    Settles (V := V) (fun _ turns => turns = []) fun _ =>
      (emit e : Action (V × List (Taken N)) Unit) :=
  settles_pure rfl

theorem settles_taking (turn : Turn N) (result : α → turn.Result) {x : Action V α}
    (total : x.Total) :
    Settles (fun a turns => x.May a ∧ turns = [⟨turn, .done (result a)⟩])
      fun _ => x.taking turn result := by
  intro v log
  obtain ⟨a, ha⟩ := total v
  refine ⟨a, (x v).state, [⟨turn, .done (result a)⟩], 0, ⟨⟨v, ha⟩, rfl⟩, fun _ _ => ?_⟩
  dsimp only
  rw [taking_eq, ha]
  exact ⟨rfl, rfl⟩

theorem Settles.imp {P' : α → List (Taken N) → Prop} (h : Settles P x)
    (imp : ∀ a turns, P a turns → P' a turns) : Settles P' x := by
  intro v log
  obtain ⟨a, v', turns, depth, ha, settled⟩ := h v log
  exact ⟨a, v', turns, depth, imp a turns ha, settled⟩

/-- **One action after the other**, from the higher of two limits on. -/
theorem Settles.bind {f : Nat → α → Action (V × List (Taken N)) β} (h : Settles P x)
    (next : ∀ a turns, P a turns → Settles (fun b more => Q b (turns ++ more)) fun limit =>
      f limit a) : Settles Q fun limit => x limit >>= f limit := by
  intro v log
  obtain ⟨a, v', turns, depth, ha, settled⟩ := h v log
  obtain ⟨b, v'', more, depth', hb, settled'⟩ := next a turns ha v' (log ++ turns)
  refine ⟨b, v'', turns ++ more, max depth depth', hb, fun limit hlimit => ?_⟩
  obtain ⟨outcome, state⟩ := settled limit (Nat.le_trans (Nat.le_max_left _ _) hlimit)
  obtain ⟨outcome', state'⟩ := settled' limit (Nat.le_trans (Nat.le_max_right _ _) hlimit)
  dsimp only at outcome' state' ⊢
  rw [bind_of_done outcome, state, Ran.after_outcome, Ran.after_state, ← List.append_assoc]
  exact ⟨outcome', state'⟩

theorem Settles.bind_pure (h : Settles P x) (g : α → β)
    (imp : ∀ a turns, P a turns → Q (g a) turns) :
    Settles Q fun limit => x limit >>= fun a => Action.pure (g a) := by
  refine h.bind fun a turns ha => settles_pure ?_
  rw [List.append_nil]
  exact imp a turns ha

theorem Settles.forEach {P : γ → α → List (Taken N) → Prop}
    {f : Nat → γ → Action (V × List (Taken N)) α} {zs : List γ}
    (h : ∀ z ∈ zs, Settles (P z) fun limit => f limit z) :
    Settles (Chained P zs) fun limit => Action.forEach (f limit) zs := by
  induction zs with
  | nil => exact settles_pure .nil
  | cons z more ih =>
    obtain ⟨hhead, hmore⟩ := List.forall_mem_cons.1 h
    exact hhead.bind fun a turns ha => (ih hmore).bind_pure _ fun as more has => .cons ha has

/-- The first limit does not matter. -/
theorem settles_of_succ (h : Settles P fun limit => x (limit + 1)) : Settles P x := by
  intro v log
  obtain ⟨a, v', turns, depth, ha, settled⟩ := h v log
  refine ⟨a, v', turns, depth + 1, ha, fun limit hlimit => ?_⟩
  cases limit with
  | zero => exact absurd hlimit (Nat.not_succ_le_zero depth)
  | succ limit => exact settled limit (Nat.le_of_succ_le_succ hlimit)

end Settling

/-! ## One level of a walk -/

/-- The gate may give the verdict; without a gate every node is let through. -/
def Stages.Rules (s : Stages V N A R) (i : Inspector V N) (edge : Option Edge) (here : N)
    (verdict : Verdict V N) : Prop :=
  match s.gate with
  | some gate => (gate i edge here).May verdict
  | none => verdict = .proceed none

namespace Walk

variable {step : Nat → Step L (V × List (Taken N)) N R} {label : L}

theorem intoRelation_settles {P : N × Attrs → Option R → List (Taken N) → Prop} {site : Site V N}
    {relation : Relation} (answers : (site.inspector.related relation site.node).Total)
    (few : ∀ related, (site.inspector.related relation site.node).May related →
      relation.Allows related.size)
    (rights : ∀ related, (site.inspector.related relation site.node).May related →
      ∀ r ∈ related.pairs, Settles (P r) fun limit =>
        step limit site.inspector.turned label (some ⟨relation, r.2⟩) r.1) :
    Settles
      (fun findings turns => ∃ related results below,
        (site.inspector.related relation site.node).May related ∧
        Chained P related.pairs results below ∧ findings = .ofResults relation results ∧
        turns = ⟨.asked (.related relation site.node), .done related⟩ :: below)
      fun limit => intoRelation (step limit) site.turned label relation := by
  refine (settles_taking (.asked (.related relation site.node)) id answers).bind
    fun related turns hrelated => ?_
  obtain ⟨may, rfl⟩ := hrelated
  have into := rights related may
  have allowed := few related may
  dsimp only
  cases hs : relation.cardinality.isSequence with
  | true =>
    refine (Settles.forEach into).bind_pure _ fun results below chained => ?_
    exact ⟨related, results, below, may, chained, by rw [Findings.ofResults, hs]; rfl, rfl⟩
  | false =>
    obtain ⟨pairs⟩ := related
    have single := allowed hs
    rw [Related.size] at single
    cases pairs with
    | nil =>
      refine settles_pure ⟨⟨[]⟩, [], [], may, .nil, ?_, rfl⟩
      rw [Findings.ofResults, hs]
      rfl
    | cons r more =>
      cases more with
      | nil =>
        refine (into r List.mem_cons_self).bind_pure _ fun result below hbelow => ?_
        refine ⟨⟨[r]⟩, [result], below, may, ?_, ?_, rfl⟩
        · rw [← List.append_nil below]
          exact .cons hbelow .nil
        · rw [Findings.ofResults, hs]
          rfl
      | cons s more => simp at single

theorem descend_settles {P : Relation → Findings R → List (Taken N) → Prop} {site : Site V N}
    (into : ∀ relation ∈ site.relations, Settles (P relation) fun limit =>
      intoRelation (step limit) site.turned label relation) :
    Settles (Chained P site.relations) fun limit =>
      descend (step limit) site.turned label none none :=
  Settles.forEach into

variable {s : Stages V N A R}

theorem visitSite_settles {P : List (Findings R) → List (Taken N) → Prop} {site : Site V N}
    (before : (s.before site).Total)
    (descent : Settles P fun limit => descend (step limit) site.turned label none none)
    (after : ∀ first findings, (s.after site first findings).Total) :
    Settles
      (fun result turns => ∃ first findings below r, (s.before site).May first ∧
        P findings below ∧ (s.after site first findings).May r ∧ result = some r ∧
        turns = visitTurns site.edge site.node below)
      fun limit => visitSite (fun _ => s.turned.visitor) (step limit) label site.turned := by
  have visited : Settles
      (fun r turns => ∃ first findings below, (s.before site).May first ∧ P findings below ∧
        (s.after site first findings).May r ∧ turns = visitTurns site.edge site.node below)
      fun limit => s.turned.visitor.visit site.turned (descend (step limit) site.turned label) := by
    simp only [Stages.turned_visit]
    refine (settles_taking _ _ before).bind fun first _ hfirst => ?_
    refine descent.bind fun findings below hbelow => ?_
    refine (settles_taking _ _ (after first findings)).imp fun r _ hlast => ?_
    obtain ⟨mayFirst, rfl⟩ := hfirst
    obtain ⟨mayLast, rfl⟩ := hlast
    exact ⟨first, findings, below, mayFirst, hbelow, mayLast, rfl⟩
  refine (settles_emit _).bind fun _ _ hquiet => ?_
  subst hquiet
  refine visited.bind_pure _ fun r turns => ?_
  rintro ⟨first, findings, below, mayFirst, hbelow, mayLast, rfl⟩
  exact ⟨first, findings, below, r, mayFirst, hbelow, mayLast, rfl, rfl⟩

/-- The inspector answers the questions about a node that was let through. -/
structure Surveyed (i : Inspector V N) (here : N) : Prop where
  kind : (i.kind here).Total
  relations : (i.relations here).Total
  attrs : (i.attrs here).Total

theorem survey_settles {i : Inspector V N} {edge : Option Edge} {here : N}
    (surveyed : Surveyed i here) :
    Settles
      (fun site turns => ∃ kind relations attrs, (i.kind here).May kind ∧
        (i.relations here).May relations ∧ (i.attrs here).May attrs ∧
        site = Site.turned ⟨edge, here, kind, relations, attrs, i⟩ ∧
        turns = surveyTurns here kind relations attrs)
      fun _ => survey i.turned edge here := by
  refine (settles_taking (.asked (.kind here)) id surveyed.kind).bind fun kind _ hkind => ?_
  refine (settles_taking (.asked (.relations here)) id surveyed.relations).bind
    fun relations _ hrelations => ?_
  refine (settles_taking (.asked (.attrs here)) id surveyed.attrs).bind_pure _
    fun attrs _ hattrs => ?_
  obtain ⟨mayKind, rfl⟩ := hkind
  obtain ⟨mayRelations, rfl⟩ := hrelations
  obtain ⟨mayAttrs, rfl⟩ := hattrs
  exact ⟨kind, relations, attrs, mayKind, mayRelations, mayAttrs, rfl, rfl⟩

theorem judge_settles {i : Inspector V N} {edge : Option Edge} {here : N}
    (total : ∀ gate ∈ s.gate, (gate i edge here).Total) :
    Settles
      (fun verdict turns => ∃ ruled, s.Rules i edge here ruled ∧ verdict = ruled.turned ∧
        turns = gateTurns s.gate.isSome edge here ruled.ruling)
      fun _ => judge (L := L) s.turned.visitor i.turned edge here := by
  rw [Stages.judge_turned]
  unfold Stages.Rules
  cases hgate : s.gate with
  | none => exact settles_pure ⟨.proceed none, rfl, rfl, rfl⟩
  | some gate =>
    refine (settles_taking (.gate edge here) Verdict.ruling (total gate hgate)).bind_pure _ ?_
    exact fun ruled _ hruled => ⟨ruled, hruled.1, rfl, hruled.2⟩

/-- What a walk does after the verdict on a node. -/
theorem node_settles {P : Option R → List (Taken N) → Prop} {i : Inspector V N}
    {edge : Option Edge} {here : N} (total : ∀ gate ∈ s.gate, (gate i edge here).Total)
    (skip : s.Rules i edge here .skip → P none (gateTurns s.gate.isSome edge here .skip))
    (proceed : ∀ other, s.Rules i edge here (.proceed other) → Surveyed (other.getD i) here ∧
      ∀ kind relations attrs, ((other.getD i).kind here).May kind →
        ((other.getD i).relations here).May relations → ((other.getD i).attrs here).May attrs →
        Settles
          (fun r more => P r (gateTurns s.gate.isSome edge here .proceed ++
            (surveyTurns here kind relations attrs ++ more)))
          fun limit => visitSite (fun _ : L => s.turned.visitor)
            (Walk.node (fun _ => s.turned.visitor) limit) label
            (Site.turned ⟨edge, here, kind, relations, attrs, other.getD i⟩))
    (replace : ∀ node kind attrs relations other,
      s.Rules i edge here (.replace node kind attrs relations other) →
        Settles
          (fun r more => P r
            (gateTurns s.gate.isSome edge here (.replace node kind attrs relations) ++ more))
          fun limit => visitSite (fun _ : L => s.turned.visitor)
            (Walk.node (fun _ => s.turned.visitor) limit) label
            (Site.turned ⟨edge, node, kind, relations, attrs, other.getD i⟩)) :
    Settles P fun limit =>
      Walk.node (fun _ : L => s.turned.visitor) limit i.turned label edge here := by
  refine settles_of_succ ?_
  simp only [node, level, arrive]
  refine (judge_settles total).bind fun verdict turns ruled => ?_
  obtain ⟨ruled, rules, rfl, rfl⟩ := ruled
  cases ruled with
  | skip =>
    refine (settles_emit _).bind_pure _ fun _ _ hquiet => ?_
    rw [hquiet, List.append_nil]
    exact skip rules
  | proceed other =>
    obtain ⟨surveyed, visits⟩ := proceed other rules
    show Settles _ fun limit => survey ((other.map (·.turned)).getD i.turned) edge here >>= _
    rw [Inspector.turned_getD]
    refine (survey_settles surveyed).bind fun site turns found => ?_
    obtain ⟨kind, relations, attrs, mayKind, mayRelations, mayAttrs, rfl, rfl⟩ := found
    exact visits kind relations attrs mayKind mayRelations mayAttrs
  | replace node kind attrs relations other =>
    have visits := replace node kind attrs relations other rules
    rw [Site.turned, ← Inspector.turned_getD] at visits
    exact visits

end Walk

end TreeProtocol
