import TreeProtocol.Proofs.Walks.Copying
import TreeProtocol.Proofs.Walks.Rounds

/-!
# What rounds ask

A walk of rounds asks an inspector for nothing but what it has to know: the kind, the relations and
the attributes of a node that was let through, and the right nodes of every relation of a node that
is visited. So what was counted at the inspector can be read off what the walk met with.

* `Encounter.through`, `Encounter.reported` — how many nodes were let through, and how many
  relations the nodes have that were visited;
* `Account`, `Meets` — what a run that is done adds to the encounters and to the calls, with one
  lemma for each way to put actions together;
* `Account.Of` — the account of a part of a walk, with one lemma for each case of `Toured`;
* `Walk.node_meets` — every level of a walk has the account of its node;
* `Rounds.walk_counts` — so the calls of a walk that is done are exactly these;
* `Visitor.asks_otherwise` — of other visitors, such as the one that copies, this is not so.
-/

namespace TreeProtocol

open TreeProtocol.Action

variable {L V N A R α : Type}

/-! ## Counting encounters -/

namespace Encounter

/-- A node was let through: by a gate, or for want of one. -/
def passes : Encounter N → Bool
  | ruled _ _ .proceed => true
  | visited false _ => true
  | _ => false

/-- It is a ruling that a node is let through. -/
def isProceed : Encounter N → Bool
  | ruled _ _ .proceed => true
  | _ => false

/-- It is a visit. -/
def isVisit : Encounter N → Bool
  | visited _ _ => true
  | _ => false

/-- Whether the visitor has a gate. -/
def gated : Encounter N → Bool
  | ruled _ _ _ => true
  | visited gated _ => gated

/-- The number of relations of a node that is visited. -/
def reports : Encounter N → Nat
  | ruled _ _ _ => 0
  | visited _ stay => stay.relations.length

/-- How many nodes were let through. -/
def through (log : List (Encounter N)) : Nat := log.countP passes

/-- How many relations the nodes have that were visited, all of them together. -/
def reported : List (Encounter N) → Nat
  | [] => 0
  | encounter :: log => encounter.reports + reported log

@[simp] theorem through_append (log more : List (Encounter N)) :
    through (log ++ more) = through log + through more := List.countP_append

@[simp] theorem reported_append (log more : List (Encounter N)) :
    reported (log ++ more) = reported log + reported more := by
  induction log with
  | nil => exact (Nat.zero_add _).symm
  | cons encounter log ih => rw [List.cons_append, reported, reported, ih, Nat.add_assoc]

end Encounter

/-! ## Accounts -/

/-- What part of a run adds to what was written down and to what was counted. -/
structure Account (N : Type) where
  encounters : List (Encounter N)
  /-- How often a node was asked for its kind, its relations and its attributes. -/
  surveys : Nat
  /-- How often a relation was asked for its right nodes. -/
  related : Nat

namespace Account

/-- Nothing is added. -/
def quiet : Account N := ⟨[], 0, 0⟩

instance : Append (Account N) where
  append a b := ⟨a.encounters ++ b.encounters, a.surveys + b.surveys, a.related + b.related⟩

/-- An encounter. -/
def meeting (encounter : Encounter N) : Account N := ⟨[encounter], 0, 0⟩

/-- A survey of a node. -/
def surveying : Account N := ⟨[], 1, 0⟩

/-- A question for right nodes. -/
def asking : Account N := ⟨[], 0, 1⟩

@[simp] theorem encounters_append (a b : Account N) :
    (a ++ b).encounters = a.encounters ++ b.encounters := rfl

@[simp] theorem surveys_append (a b : Account N) : (a ++ b).surveys = a.surveys + b.surveys := rfl

@[simp] theorem related_append (a b : Account N) : (a ++ b).related = a.related + b.related := rfl

theorem quiet_append (a : Account N) : quiet ++ a = a := by
  show (⟨_, _, _⟩ : Account N) = a
  simp [quiet]

theorem append_quiet (a : Account N) : a ++ quiet = a := by
  show (⟨_, _, _⟩ : Account N) = a
  simp [quiet]

end Account

/-- The calls with those of an account. -/
def Calls.charged (calls : Calls) (account : Account N) : Calls :=
  { calls with
    kind := calls.kind + account.surveys
    attrs := calls.attrs + account.surveys
    relations := calls.relations + account.surveys
    related := calls.related + account.related }

theorem Calls.charged_append (calls : Calls) (a b : Account N) :
    calls.charged (a ++ b) = (calls.charged a).charged b := by
  simp [charged, Nat.add_assoc]

/-- If the action is done, it adds an account as `P` says to the log and to the calls. -/
def Meets (P : α → Account N → Prop) (x : Action ((V × List (Encounter N)) × Calls) α) : Prop :=
  ∀ v log calls a, (x ((v, log), calls)).outcome = .done a →
    ∃ account, P a account ∧ (x ((v, log), calls)).state.1.2 = log ++ account.encounters ∧
      (x ((v, log), calls)).state.2 = calls.charged account

section Meets

variable {β γ : Type} {P : α → Account N → Prop} {Q : β → Account N → Prop}
  {x : Action ((V × List (Encounter N)) × Calls) α}

theorem meets_pure {a : α} (h : P a .quiet) :
    Meets P (Action.pure a : Action ((V × List (Encounter N)) × Calls) α) := by
  intro v log calls b hb
  refine ⟨.quiet, Outcome.done.inj hb ▸ h, ?_, rfl⟩
  exact (List.append_nil log).symm

theorem meets_fail (e : BuildError) :
    Meets P (fail e : Action ((V × List (Encounter N)) × Calls) α) :=
  fun _ _ _ _ h => nomatch h

theorem meets_crash : Meets P (crash : Action ((V × List (Encounter N)) × Calls) α) :=
  fun _ _ _ _ h => nomatch h

/-- **One action after the other.** -/
theorem Meets.bind {f : α → Action ((V × List (Encounter N)) × Calls) β} (h : Meets P x)
    (next : ∀ a account, P a account → Meets (fun b more => Q b (account ++ more)) (f a)) :
    Meets Q (x >>= f) := by
  intro v log calls b hb
  obtain ⟨a, ha, hrest, hstate⟩ := done_of_bind hb
  obtain ⟨account, hP, hlog, hcalls⟩ := h v log calls a ha
  have reached : (x ((v, log), calls)).state =
      (((x ((v, log), calls)).state.1.1, log ++ account.encounters), calls.charged account) :=
    Prod.ext (Prod.ext rfl hlog) hcalls
  rw [reached] at hrest
  obtain ⟨more, hQ, hlog', hcalls'⟩ := next a account hP _ _ _ b hrest
  rw [hstate, reached]
  refine ⟨account ++ more, hQ, ?_, ?_⟩
  · rw [hlog', List.append_assoc]
    rfl
  · rw [hcalls', Calls.charged_append]

theorem Meets.imp {P' : α → Account N → Prop} (h : Meets P x)
    (imp : ∀ a account, P a account → P' a account) : Meets P' x := by
  intro v log calls a ha
  obtain ⟨account, hP, added⟩ := h v log calls a ha
  exact ⟨account, imp a account hP, added⟩

theorem Meets.bind_pure (h : Meets P x) (g : α → β)
    (imp : ∀ a account, P a account → Q (g a) account) :
    Meets Q (x >>= fun a => Action.pure (g a)) := by
  refine h.bind fun a account ha => meets_pure ?_
  rw [Account.append_quiet]
  exact imp a account ha

theorem Meets.emit_bind {f : Unit → Action ((V × List (Encounter N)) × Calls) α} (e : Event)
    (h : Meets P (f ())) : Meets P (emit e >>= f) := h

theorem Meets.forEach {P : γ → Account N → Prop} {Q : List γ → Account N → Prop}
    (nil : Q [] .quiet) (cons : ∀ z zs a b, P z a → Q zs b → Q (z :: zs) (a ++ b))
    {f : γ → Action ((V × List (Encounter N)) × Calls) α} {zs : List γ}
    (h : ∀ z, Meets (fun _ => P z) (f z)) : Meets (fun _ => Q zs) (Action.forEach f zs) := by
  induction zs with
  | nil => exact meets_pure nil
  | cons z zs ih =>
    exact (h z).bind fun _ a ha => ih.bind_pure _ fun _ b hb => cons z zs a b ha hb

/-- What the visitor or its gate does by itself. -/
theorem meets_zoom (x : Action V α) :
    Meets (fun _ account => account = .quiet)
      ((x.zoom Lens.fst : Action (V × List (Encounter N)) α).zoom Lens.fst) := by
  intro v log calls a _
  exact ⟨.quiet, rfl, (List.append_nil log).symm, rfl⟩

theorem meets_note (encounter : Encounter N) (x : Action V α) :
    Meets (fun _ account => account = .meeting encounter)
      ((note encounter >>= fun _ => x.zoom Lens.fst).zoom Lens.fst) := by
  intro v log calls a _
  exact ⟨.meeting encounter, rfl, rfl, rfl⟩

theorem meets_noting (x : Action V α) (encounter : α → Encounter N) :
    Meets (fun a account => account = .meeting (encounter a))
      ((x.noting encounter).zoom Lens.fst) := by
  intro v log calls a ha
  obtain ⟨b, hb, -⟩ := done_of_bind (x := x.zoom Lens.fst) (s := (v, log)) ha
  have there : (x v).outcome = .done b := hb
  obtain ⟨outcome, state⟩ := noting_of_done there encounter log
  have same : b = a := Outcome.done.inj (outcome.symm.trans ha)
  subst same
  refine ⟨.meeting (encounter b), rfl, ?_, rfl⟩
  show (x.noting encounter (v, log)).state.2 = _
  rw [state]
  rfl

end Meets

/-! ## Accounts of the parts of a walk -/

/-- How many relations of the part are asked for their right nodes at the part itself. -/
def Part.due : Part N → Nat
  | .relations _ asked => asked.length
  | _ => 0

/-- The account of a part of a walk: what was met with, a survey for every node that was let
through, and a question for every relation of a node that was visited. -/
structure Account.Of (gates : Bool → Prop) (part : Part N) (account : Account N) : Prop where
  toured : Toured gates part account.encounters
  surveys : account.surveys = Encounter.through account.encounters
  related : account.related = part.due + Encounter.reported account.encounters

namespace Account

variable {gates : Bool → Prop} {edge : Option Edge} {here : N} {a b : Account N}
  {relations : List Relation}

theorem Of.skipped (gate : gates true) :
    Of gates (.node edge here) (meeting (.ruled edge here .skip)) :=
  ⟨.skipped gate, rfl, rfl⟩

theorem Of.passed {kind : Kind} {attrs : Attrs} (gate : gates true)
    (h : Of gates (.relations here relations) b) :
    Of gates (.node edge here) (meeting (.ruled edge here .proceed) ++ (surveying ++
      (meeting (.visited true ⟨edge, here, kind, relations, attrs⟩) ++ b))) where
  toured := .passed gate h.toured
  surveys := by
    simp [meeting, surveying, Encounter.through, Encounter.passes, List.countP_cons, h.surveys,
      Nat.add_comm]
  related := by
    simp [meeting, surveying, Encounter.reported, Encounter.reports, Part.due, h.related]

theorem Of.ungated {kind : Kind} {attrs : Attrs} (gate : gates false)
    (h : Of gates (.relations here relations) b) :
    Of gates (.node edge here) (surveying ++
      (meeting (.visited false ⟨edge, here, kind, relations, attrs⟩) ++ b)) where
  toured := .ungated gate h.toured
  surveys := by
    simp [meeting, surveying, Encounter.through, Encounter.passes, List.countP_cons, h.surveys,
      Nat.add_comm]
  related := by
    simp [meeting, surveying, Encounter.reported, Encounter.reports, Part.due, h.related]

theorem Of.replaced {other : N} {kind : Kind} {attrs : Attrs} (gate : gates true)
    (h : Of gates (.relations other relations) b) :
    Of gates (.node edge here) (meeting (.ruled edge here (.replace other kind attrs relations)) ++
      (meeting (.visited true ⟨edge, other, kind, relations, attrs⟩) ++ b)) where
  toured := .replaced gate h.toured
  surveys := by
    simp [meeting, Encounter.through, Encounter.passes, h.surveys]
  related := by
    simp [meeting, Encounter.reported, Encounter.reports, Part.due, h.related]

theorem Of.noRelation : Of gates (.relations here []) quiet := ⟨.noRelation, rfl, rfl⟩

theorem Of.relation {relation : Relation} {pairs : List (N × Attrs)}
    (ha : Of gates (.rights relation pairs) a)
    (hb : Of gates (.relations here relations) b) :
    Of gates (.relations here (relation :: relations)) (asking ++ a ++ b) where
  toured := .relation ha.toured hb.toured
  surveys := by
    simp [asking, ha.surveys, hb.surveys]
  related := by
    simp [asking, Part.due, ha.related, hb.related]
    omega

theorem Of.noRight {relation : Relation} : Of gates (.rights relation []) (quiet : Account N) :=
  ⟨.noRight, rfl, rfl⟩

theorem Of.right {relation : Relation} {args : Attrs} {pairs : List (N × Attrs)}
    (ha : Of gates (.node (some ⟨relation, args⟩) here) a)
    (hb : Of gates (.rights relation pairs) b) :
    Of gates (.rights relation ((here, args) :: pairs)) (a ++ b) where
  toured := .right ha.toured hb.toured
  surveys := by simp [ha.surveys, hb.surveys]
  related := by
    simp [Part.due, ha.related, hb.related]

end Account

/-! ## Walks -/

namespace Walk

variable {gates : Bool → Prop} {inner : Inspector V N}
  {step : Step L ((V × List (Encounter N)) × Calls) N R} {label : L}

/-- The inspector of a walk that is written down. -/
abbrev watched (inner : Inspector V N) : Inspector ((V × List (Encounter N)) × Calls) N :=
  (inner.zoomed Lens.fst).metered

/-- The steps below a level have the accounts of their nodes. -/
def StepMeets (gates : Bool → Prop) (inner : Inspector V N)
    (step : Step L ((V × List (Encounter N)) × Calls) N R) : Prop :=
  ∀ label edge here, Meets (fun _ account => account.Of gates (.node edge here))
    (step (watched inner) label edge here)

theorem related_meets (inner : Inspector V N) (relation : Relation) (here : N) :
    Meets (fun _ account => account = .asking) ((watched inner).related relation here) := by
  intro v log calls a _
  exact ⟨.asking, rfl, (List.append_nil log).symm, rfl⟩

theorem survey_meets (inner : Inspector V N) (edge : Option Edge) (here : N) :
    Meets (fun site account => (∃ kind relations attrs,
        site = ⟨edge, here, kind, relations, attrs, watched inner⟩) ∧ account = .surveying)
      (survey (watched inner) edge here) := by
  intro v log calls site hsite
  obtain ⟨kind, _, hrest, hstate⟩ := done_of_bind hsite
  obtain ⟨relations, _, hrest', hstate'⟩ := done_of_bind hrest
  obtain ⟨attrs, _, hlast, hstate''⟩ := done_of_bind hrest'
  rw [survey, hstate, hstate', hstate'']
  exact ⟨.surveying, ⟨⟨kind, relations, attrs, (Outcome.done.inj hlast).symm⟩, rfl⟩,
    (List.append_nil log).symm, rfl⟩

/-- The account of going into one relation of a node. -/
def RelationAccount (gates : Bool → Prop) (relation : Relation) (account : Account N) : Prop :=
  ∃ pairs below, below.Of gates (.rights relation pairs) ∧ account = .asking ++ below

theorem intoRelation_meets (hstep : StepMeets gates inner step)
    {site : Site ((V × List (Encounter N)) × Calls) N} (inspected : site.inspector = watched inner)
    (relation : Relation) :
    Meets (fun _ account => RelationAccount gates relation account)
      (intoRelation step site label relation) := by
  rw [intoRelation, inspected]
  refine (related_meets inner relation site.node).bind fun related account asked => ?_
  subst asked
  dsimp only
  split
  · refine (Meets.forEach (Q := fun pairs account => account.Of gates (.rights relation pairs))
      .noRight (fun r pairs a b ha hb => ha.right hb) fun r => hstep label _ r.1).bind_pure _ ?_
    exact fun _ below hbelow => ⟨related.pairs, below, hbelow, rfl⟩
  · split
    · exact meets_pure ⟨[], .quiet, .noRight, rfl⟩
    · next node args hpairs =>
      refine (hstep label _ node).bind_pure _ fun _ below hbelow => ?_
      refine ⟨[(node, args)], below ++ .quiet, hbelow.right .noRight, ?_⟩
      rw [Account.append_quiet]
    · exact meets_fail _

theorem descend_meets (hstep : StepMeets gates inner step)
    {site : Site ((V × List (Encounter N)) × Calls) N} (inspected : site.inspector = watched inner)
    (other : Option L) :
    Meets (fun _ account => account.Of gates (.relations site.node site.relations))
      (descend step site label none other) := by
  show Meets _ (forEach (intoRelation step site (other.getD label)) site.relations)
  refine Meets.forEach (P := RelationAccount gates)
    (Q := fun relations account => account.Of gates (.relations site.node relations))
    .noRelation ?_ fun relation => intoRelation_meets hstep inspected relation
  rintro relation relations _ b ⟨pairs, below, hbelow, rfl⟩ hb
  exact hbelow.relation hb

variable {rounds : L → Rounds L V N A R}

theorem judge_meets (rounds : Rounds L V N A R)
    (i : Inspector ((V × List (Encounter N)) × Calls) N) (edge : Option Edge) (here : N) :
    Meets (fun verdict account => ∃ ruling : Ruling N, verdict = ruling.verdict ∧
        (rounds.gate.isSome = true ∧ account = .meeting (.ruled edge here ruling) ∨
          rounds.gate.isSome = false ∧ ruling = .proceed ∧ account = .quiet))
      (judge rounds.noting.visitor i edge here) := by
  unfold judge
  rw [show rounds.noting.visitor.gate = (rounds.gate.map _).map _ from rfl]
  cases rounds.gate with
  | none => exact meets_pure ⟨.proceed, rfl, .inr ⟨rfl, rfl, rfl⟩⟩
  | some gate =>
    refine (meets_noting (gate edge here) _).bind_pure _ fun ruling account noted => ?_
    exact ⟨ruling, rfl, .inl ⟨rfl, noted⟩⟩

theorem visitSite_meets (hstep : StepMeets gates inner step) (label : L)
    {site : Site ((V × List (Encounter N)) × Calls) N}
    (inspected : site.inspector = watched inner) :
    Meets (fun _ account => ∃ below : Account N,
        below.Of gates (.relations site.node site.relations) ∧
        account = .meeting (.visited (rounds label).gate.isSome site.stay) ++ below)
      (visitSite (fun label => (rounds label).noting.visitor) step label site) := by
  refine Meets.emit_bind _ (Meets.bind_pure ?_ some fun _ _ visited => visited)
  refine (meets_note _ ((rounds label).before site.stay)).bind fun first _ noted => ?_
  refine (descend_meets hstep inspected first.2).bind fun findings below hbelow => ?_
  refine (meets_zoom ((rounds label).after site.stay first.1 findings)).imp fun _ _ quiet => ?_
  rw [noted, quiet, Account.append_quiet]
  exact ⟨below, hbelow, rfl⟩

/-- **The account of a node** and of everything below it. Induction on the limit of the walk. -/
theorem node_meets (rounds : L → Rounds L V N A R) (inner : Inspector V N) (limit : Nat) :
    StepMeets (fun gated => ∃ label, (rounds label).gate.isSome = gated) inner
      (Walk.node (fun label => (rounds label).noting.visitor) limit) := by
  induction limit with
  | zero => exact fun _ _ _ => meets_crash
  | succ limit ih =>
    intro label edge here
    rw [node, level, arrive]
    refine (judge_meets (rounds label) _ edge here).bind fun verdict account judged => ?_
    obtain ⟨ruling, rfl, ⟨gated, rfl⟩ | ⟨ungated, rfl, rfl⟩⟩ := judged
    · cases ruling with
      | skip =>
        refine Meets.emit_bind _ (meets_pure ?_)
        rw [Account.append_quiet]
        exact .skipped ⟨label, gated⟩
      | proceed =>
        refine (survey_meets inner edge here).bind fun site _ surveyed => ?_
        obtain ⟨⟨kind, relations, attrs, rfl⟩, rfl⟩ := surveyed
        refine (visitSite_meets ih label rfl).imp fun _ _ visited => ?_
        obtain ⟨below, hbelow, rfl⟩ := visited
        rw [gated]
        exact hbelow.passed ⟨label, gated⟩
      | replace other kind attrs relations =>
        refine (visitSite_meets ih label rfl).imp fun _ _ visited => ?_
        obtain ⟨below, hbelow, rfl⟩ := visited
        rw [gated]
        exact hbelow.replaced ⟨label, gated⟩
    · refine (survey_meets inner edge here).bind fun site _ surveyed => ?_
      obtain ⟨⟨kind, relations, attrs, rfl⟩, rfl⟩ := surveyed
      refine (visitSite_meets ih label rfl).imp fun _ _ visited => ?_
      obtain ⟨below, hbelow, rfl⟩ := visited
      rw [Account.quiet_append, ungated]
      exact hbelow.ungated ⟨label, ungated⟩

end Walk

/-! ## What was counted -/

theorem Toured.gated {gates : Bool → Prop} {part : Part N} {log : List (Encounter N)}
    (h : Toured gates part log) : ∀ encounter ∈ log, gates encounter.gated := by
  induction h with
  | skipped gate => exact List.forall_mem_singleton.2 gate
  | passed gate _ ih => exact List.forall_mem_cons.2 ⟨gate, List.forall_mem_cons.2 ⟨gate, ih⟩⟩
  | ungated gate _ ih => exact List.forall_mem_cons.2 ⟨gate, ih⟩
  | replaced gate _ ih => exact List.forall_mem_cons.2 ⟨gate, List.forall_mem_cons.2 ⟨gate, ih⟩⟩
  | noRelation => exact fun _ h => nomatch h
  | relation _ _ ih ih' => exact List.forall_mem_append.2 ⟨ih, ih'⟩
  | noRight => exact fun _ h => nomatch h
  | right _ _ ih ih' => exact List.forall_mem_append.2 ⟨ih, ih'⟩

namespace Encounter

/-- With gates everywhere, nodes are let through by rulings. -/
theorem through_of_gated {log : List (Encounter N)} (h : ∀ e ∈ log, e.gated = true) :
    through log = log.countP isProceed := by
  refine List.countP_congr fun e he => ?_
  have gated := h e he
  cases e with
  | ruled edge node ruling => cases ruling <;> rfl
  | visited peeks stay =>
    rw [show peeks = true from gated]
    rfl

/-- Without any gate all nodes are let through, and visited. -/
theorem through_of_ungated {log : List (Encounter N)} (h : ∀ e ∈ log, e.gated = false) :
    through log = log.countP isVisit := by
  refine List.countP_congr fun e he => ?_
  have ungated := h e he
  cases e with
  | ruled edge node ruling => exact nomatch ungated
  | visited peeks stay =>
    rw [show peeks = false from ungated]
    rfl

end Encounter

/-- **What a walk of rounds asks.** If it is done, it has asked for the kind, the relations and the
attributes of every node that was let through once, and for the right nodes of every relation of
every node that was visited once, and for nothing else. What it has met with, with everything that
was left out and replaced, is what the same walk writes down. -/
theorem Rounds.walk_counts (rounds : L → Rounds L V N A R) (limit : Nat) (inner : Inspector V N)
    (label : L) (root : N) (v : V) (calls : Calls) {result : Option R}
    (done : (walk rounds limit inner label root (v, calls)).outcome = .done result) :
    ∃ (v' : V) (calls' : Calls) (log : List (Encounter N)),
      (walk rounds limit inner label root (v, calls)).state = (v', calls') ∧
      calls' = { calls with
        kind := calls.kind + Encounter.through log
        relations := calls.relations + Encounter.through log
        attrs := calls.attrs + Encounter.through log
        related := calls.related + Encounter.reported log } ∧
      (walk (fun label => (rounds label).noting) limit (inner.zoomed Lens.fst) label root
        ((v, []), calls)).outcome = .done result ∧
      (walk (fun label => (rounds label).noting) limit (inner.zoomed Lens.fst) label root
        ((v, []), calls)).state = ((v', log), calls') ∧
      Toured (fun gated => ∃ label, (rounds label).gate.isSome = gated) (.node none root) log ∧
      ((∀ label, (rounds label).gate.isSome = true) →
        Encounter.through log = log.countP Encounter.isProceed) ∧
      ((∀ label, (rounds label).gate.isSome = false) →
        Encounter.through log = log.countP Encounter.isVisit) := by
  obtain ⟨outcome, state⟩ := walk_noting rounds limit inner label root v calls
  have noted := outcome.symm.trans done
  obtain ⟨account, ⟨toured, surveys, related⟩, log, counted⟩ :=
    Walk.node_meets rounds inner limit label none root v [] calls result noted
  have gates := toured.gated
  refine ⟨_, _, account.encounters, state, ?_, noted, Prod.ext (Prod.ext rfl log) rfl, toured,
    fun gated => ?_, fun ungated => ?_⟩
  · have reported : account.related = Encounter.reported account.encounters := by
      rw [related]
      exact Nat.zero_add _
    rw [← surveys, ← reported]
    exact counted
  · refine Encounter.through_of_gated fun e he => ?_
    obtain ⟨label, same⟩ := gates e he
    exact same.symm.trans (gated label)
  · refine Encounter.through_of_ungated fun e he => ?_
    obtain ⟨label, same⟩ := gates e he
    exact same.symm.trans (ungated label)

/-- What stands for a macro. -/
def macroPair : Tree := ⟨"pair", ∅, [⟨⟨"items", .many⟩, [(Tree.make "literal" ∅, ∅)]⟩]⟩

/-- A record of a hidden node with a literal below it, a macro, and a literal. -/
def macroList : Tree :=
  ⟨"record", ∅, [⟨⟨"items", .many⟩,
    [(⟨"hidden", ∅, [⟨⟨"items", .many⟩, [(Tree.make "literal" ∅, ∅)]⟩]⟩, ∅),
      (Tree.make "macro" ∅, ∅), (Tree.make "literal" ∅, ∅)]⟩]⟩

/-- Counts nodes, but leaves out what is hidden, and puts a pair in the place of macros. -/
def countNodes : Rounds Unit Unit Tree Unit Nat where
  gate := some fun _ here => Action.pure
    (if here.kind = "hidden" then .skip
    else if here.kind = "macro" then .replace macroPair "pair" ∅ [⟨"items", .many⟩]
    else .proceed)
  before _ := Action.pure ((), none)
  after _ _ findings := Action.pure ((findings.flatMap Findings.values).foldl (· + ·) 1)

/-- Neither the hidden node nor the literal below it is asked about, and nor is the macro; the pair
in its place is only asked for its right nodes. -/
theorem Rounds.walk_counts_macroList :
    (walk (fun _ => countNodes) 3 Tree.inspector () macroList ((), {})).outcome = .done (some 4) ∧
    ∃ log : List (Encounter Tree),
      (walk (fun _ => countNodes) 3 Tree.inspector () macroList ((), {})).state =
        ((), { kind := 3, relations := 3, attrs := 3, related := 2 }) ∧
      log.countP Encounter.isProceed = 3 ∧ log.countP Encounter.isVisit = 4 ∧
      Encounter.reported log = 2 := by
  have done : (walk (fun _ => countNodes) 3 Tree.inspector () macroList ((), {})).outcome =
    .done (some 4) := rfl
  obtain ⟨v', calls', log, state, -, -, noted, -, -, -⟩ :=
    walk_counts (fun _ => countNodes) 3 Tree.inspector () macroList () {} done
  have written : ((v', log), calls').1.2 = log := rfl
  rw [← noted] at written
  refine ⟨done, log, rfl, ?_, ?_, ?_⟩
  · rw [← written]
    rfl
  · rw [← written]
    rfl
  · rw [← written]
    rfl

/-! ## Visitors that make no rounds -/

/-- How many relations the nodes have that a walk visits, all of them together, as its events
tell. -/
def Event.visitedRelations : List Event → Nat
  | .nodeVisited _ _ relations :: events => relations + visitedRelations events
  | _ :: events => visitedRelations events
  | [] => 0

/-- A record of two literals, each under a relation of its own. -/
def literalRecord : Tree :=
  ⟨"record", ∅, [⟨⟨"items", .many⟩, [(Tree.make "literal" ∅, ∅)]⟩,
    ⟨⟨"notes", .many⟩, [(Tree.make "literal" ∅, ∅)]⟩]⟩

namespace Visitor

/-- Descends twice from every site. -/
def repeating {W : Type} : Visitor L W Tree Unit where
  visit _ descent := do
    let _ ← descent none none
    let _ ← descent none none
    Action.pure ()

/-- Fails at literals, and goes on at other sites if what is below them failed. -/
def forgiving {W : Type} : Visitor L W Tree Unit where
  visit site descent := do
    let _ ← (descent none none).caught
    if site.kind = "literal" then fail (Fault.raised "literal") else Action.pure ()

/-- What the walk of a visitor over the record leaves behind. -/
def overRecord (visitor : Visitor Unit (Unit × Calls) Tree R) : Ran (Unit × Calls) (Option R) :=
  walk (fun _ => visitor) 2 (Inspector.metered Tree.inspector) () literalRecord ((), {})

/-- **Visitors that make no rounds ask otherwise**, though they descend into all relations and the
walk is done. The copying visitor descends once from every site, but it asks for right nodes again,
to copy the attributes of relations. The next one descends twice, and the last one goes on after a
descent that failed half-way. Each time the nodes that are visited have two relations in all. -/
theorem asks_otherwise :
    ((overRecord (copying Tree.builder)).outcome = .done (some literalRecord) ∧
      (overRecord (copying Tree.builder)).state.2.related = 4 ∧
      Event.visitedRelations (overRecord (copying Tree.builder)).events = 2) ∧
    ((overRecord repeating).outcome = .done (some ()) ∧
      (overRecord repeating).state.2.related = 4 ∧
      Event.visitedRelations (overRecord repeating).events = 2) ∧
    (overRecord forgiving).outcome = .done (some ()) ∧
      (overRecord forgiving).state.2.related = 1 ∧
      Event.visitedRelations (overRecord forgiving).events = 2 :=
  ⟨⟨rfl, rfl, rfl⟩, ⟨rfl, rfl, rfl⟩, rfl, rfl, rfl⟩

end Visitor

end TreeProtocol
