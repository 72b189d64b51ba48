import TreeProtocol.Proofs.Walks.Agents

/-!
# Where the errors of a walk come from

A walk can be written down while it goes on: every question that it asks of the inspector with the
answer, every call of a gate, and every call of an agent's visit with what became of the descents.
Read afterwards, the incidents say who is to blame for an error.

* `Incident.Raises` — a gate or a visit failed with the error, and no descent of the visit did;
* `View.Answers` — the nodes about which a view answers every question of a walk;
* `Traced` — two runs, of which the second one writes down what the first one does;
* `node_traced` — a walk over answered nodes is in order, and its errors are raised by incidents;
* `errors_raised` — so it is for trees that can be obtained and for arenas that are reached.
-/

namespace TreeProtocol

open TreeProtocol.Action

variable {L A V N R α β : Type}

/-! ## Writing a walk down -/

/-- What is written down of a walk. -/
inductive Incident (L N R : Type) where
  /-- The kind, the attributes or the relations of a node were asked for. -/
  | asked (node : N) (answered : Bool)
  /-- The right nodes of a relation were asked for. -/
  | askedRelated (relation : Relation) (node : N) (answer : Outcome (Related N))
  | gate (label : L) (edge : Option Edge) (node : N) (outcome : Outcome Bool)
  /-- A visit, with what became of the descents that it made. -/
  | visit (label : L) (edge : Option Edge) (node : N)
      (descents : List (Outcome (List (Findings R)))) (outcome : Outcome R)

namespace Incident

/-- The walk has no reason to fail: its question was answered, and with no more right nodes than it
can do with. -/
def InOrder : Incident L N R → Prop
  | .asked _ answered => answered = true
  | .askedRelated relation _ answer =>
    ∃ related, answer = .done related ∧ relation.Allows related.size
  | _ => True

/-- A gate failed with the error, or a visit did on its own account: none of its descents did. -/
def Raises (e : BuildError) : Incident L N R → Prop
  | .gate _ _ _ outcome => outcome = .failed e
  | .visit _ _ _ descents outcome => outcome = .failed e ∧ .failed e ∉ descents
  | _ => False

/-- A descent of a visit failed with the error. -/
def Suffers (e : BuildError) : Incident L N R → Prop
  | .visit _ _ _ descents _ => .failed e ∈ descents
  | _ => False

end Incident

/-- Runs an action and writes down what became of it. -/
def Action.noted {W I : Type} (log : Lens W (List I)) (x : Action W α) (incident : Outcome α → I) :
    Action W α := do
  let ended ← x.caught
  modify (log.modify (· ++ [incident ended]))
  release ended

/-- The inspector whose questions are written down. -/
def Inspector.noting {W : Type} (log : Lens W (List (Incident L N R))) (inspector : Inspector W N) :
    Inspector W N where
  kind node := (inspector.kind node).noted log fun answer => .asked node answer.isDone
  attrs node := (inspector.attrs node).noted log fun answer => .asked node answer.isDone
  relations node := (inspector.relations node).noted log fun answer => .asked node answer.isDone
  related relation node := (inspector.related relation node).noted log (.askedRelated relation node)

/-- The course that is written down at its end, with the descents made so far. -/
def Course.noting {I : Type} (incident : List (Outcome (List (Findings R))) → Outcome R → I)
    (descents : List (Outcome (List (Findings R)))) :
    Course L A V R → Course L A (V × List I) R
  | .ends outcome =>
    .acts (fun _ v => ((v.1, v.2 ++ [incident descents outcome]), [])) fun _ _ => .ends outcome
  | .acts work next =>
    .acts (fun a v => (((work a v.1).1, v.2), (work a v.1).2)) fun a v =>
      (next a v.1).noting incident descents
  | .descends names other next =>
    .descends names other fun ended => (next ended).noting incident (descents ++ [ended])

/-- The agent of a label whose calls are written down. -/
def Agent.noting (label : L) (agent : Agent L A V N R) :
    Agent L A (V × List (Incident L N R)) N R where
  gate := agent.gate.map fun gate a edge here =>
    ((gate a edge here).zoom Lens.fst).noted Lens.snd (.gate label edge here)
  visit edge here kind relations attrs :=
    (agent.visit edge here kind relations attrs).noting (.visit label edge here) []

/-- The incidents behind the states of a walk. -/
abbrev incidents : Lens (A × V × List (Incident L N R)) (List (Incident L N R)) :=
  Lens.snd.comp Lens.snd

/-! ## What a log tells -/

/-- Some incident raises the error. -/
def Blamed (e : BuildError) (log : List (Incident L N R)) : Prop := ∃ i ∈ log, i.Raises e

/-- Everything is in order but for errors that some incident raises. -/
structure Accounted (log : List (Incident L N R)) : Prop where
  inOrder : ∀ i ∈ log, i.InOrder
  suffered : ∀ e, ∀ i ∈ log, i.Suffers e → Blamed e log

theorem Blamed.mono {e : BuildError} {log log' : List (Incident L N R)} (h : Blamed e log)
    (more : log <+: log') : Blamed e log' := by
  obtain ⟨i, hi, raises⟩ := h
  exact ⟨i, more.subset hi, raises⟩

theorem accounted_nil : Accounted ([] : List (Incident L N R)) where
  inOrder := fun _ hi => nomatch hi
  suffered := fun _ _ hi => nomatch hi

theorem Accounted.push {log : List (Incident L N R)} (h : Accounted log) {i : Incident L N R}
    (inOrder : i.InOrder) (suffered : ∀ e, i.Suffers e → Blamed e log) :
    Accounted (log ++ [i]) where
  inOrder := List.forall_mem_append.2 ⟨h.inOrder, List.forall_mem_singleton.2 inOrder⟩
  suffered := by
    intro e j hj hsuffers
    refine Blamed.mono ?_ (List.prefix_append log [i])
    rcases List.mem_append.1 hj with hold | hnew
    · exact h.suffered e j hold hsuffers
    · rw [List.mem_singleton.1 hnew] at hsuffers
      exact suffered e hsuffers

/-! ## Two runs -/

/-- The second run writes down, behind `log`, what the first one does beside `a`; if the first run
is done, its result is as `P` says. -/
structure Follows (a : A) (P : α → Prop) (log : List (Incident L N R)) (r : Ran (A × V) α)
    (q : Ran (A × V × List (Incident L N R)) α) : Prop where
  outcome : q.outcome = r.outcome
  events : q.events = r.events
  still : r.state.1 = a
  state : q.state = (a, r.state.2, q.state.2.2)
  more : log <+: q.state.2.2
  accounted : Accounted q.state.2.2
  blamed : ∀ e, r.outcome = .failed e → Blamed e q.state.2.2
  result : ∀ x, r.outcome = .done x → P x

/-- Beside `a` the second action writes down what the first one does. -/
def Traced (a : A) (P : α → Prop) (x : Action (A × V) α)
    (y : Action (A × V × List (Incident L N R)) α) : Prop :=
  ∀ v log, Accounted log → Follows a P log (x (a, v)) (y (a, v, log))

section Runs

variable {a : A} {v : V} {P : α → Prop} {Q : β → Prop} {log : List (Incident L N R)}
  {x : Action (A × V) α} {y : Action (A × V × List (Incident L N R)) α}

/-- Nothing is written down, and there is no error. -/
theorem Follows.quiet (hlog : Accounted log) {outcome : Outcome α} (events : List Event)
    (noError : ∀ e, outcome ≠ .failed e) (result : ∀ z, outcome = .done z → P z) :
    Follows a P log ⟨outcome, (a, v), events⟩ ⟨outcome, (a, v, log), events⟩ where
  outcome := rfl
  events := rfl
  still := rfl
  state := rfl
  more := List.prefix_refl log
  accounted := hlog
  blamed := fun e he => absurd he (noError e)
  result := result

theorem traced_pure {result : α} (h : P result) :
    Traced a P (Action.pure result : Action (A × V) α)
      (Action.pure result : Action (A × V × List (Incident L N R)) α) := fun _ _ hlog =>
  .quiet hlog [] (fun _ he => nomatch he) fun _ hz => Outcome.done.inj hz ▸ h

theorem traced_crash : Traced a P (crash : Action (A × V) α)
    (crash : Action (A × V × List (Incident L N R)) α) := fun _ _ hlog =>
  .quiet hlog [] (fun _ he => nomatch he) fun _ hz => nomatch hz

theorem traced_emit (event : Event) : Traced a (fun _ => True) (emit event : Action (A × V) Unit)
    (emit event : Action (A × V × List (Incident L N R)) Unit) := fun _ _ hlog =>
  .quiet hlog [event] (fun _ he => nomatch he) fun _ _ => trivial

/-- **One action after the other.** -/
theorem Follows.bind {f : α → Action (A × V) β}
    {g : α → Action (A × V × List (Incident L N R)) β}
    (h : Follows a P log (x (a, v)) (y (a, v, log)))
    (next : ∀ z, (x (a, v)).outcome = .done z →
      Follows a Q (y (a, v, log)).state.2.2 (f z (a, (x (a, v)).state.2))
        (g z (a, (x (a, v)).state.2, (y (a, v, log)).state.2.2))) :
    Follows a Q log ((x >>= f) (a, v)) ((y >>= g) (a, v, log)) := by
  have hstate : (x (a, v)).state = (a, (x (a, v)).state.2) := Prod.ext h.still rfl
  cases ho : (x (a, v)).outcome with
  | done z =>
    have h' := next z ho
    rw [← hstate, ← h.state] at h'
    rw [bind_of_done ho, bind_of_done (h.outcome.trans ho)]
    refine ⟨h'.outcome, ?_, h'.still, h'.state, h.more.trans h'.more, h'.accounted, h'.blamed,
      h'.result⟩
    show (y (a, v, log)).events ++ _ = (x (a, v)).events ++ _
    rw [h.events, h'.events]
  | failed e =>
    rw [bind_of_failed ho, bind_of_failed (h.outcome.trans ho)]
    refine ⟨rfl, h.events, h.still, h.state, h.more, h.accounted, ?_, fun _ hz => nomatch hz⟩
    intro e' he
    exact h.blamed e' (ho.trans (congrArg Outcome.failed (Outcome.failed.inj he)))
  | crashed =>
    rw [bind_of_crashed ho, bind_of_crashed (h.outcome.trans ho)]
    exact ⟨rfl, h.events, h.still, h.state, h.more, h.accounted, (fun _ he => nomatch he),
      fun _ hz => nomatch hz⟩

theorem Traced.bind {f : α → Action (A × V) β}
    {g : α → Action (A × V × List (Incident L N R)) β} (hxy : Traced a P x y)
    (hfg : ∀ z, P z → Traced a Q (f z) (g z)) : Traced a Q (x >>= f) (y >>= g) := by
  intro v log hlog
  have h := hxy v log hlog
  exact h.bind fun z hz => hfg z (h.result z hz) _ _ h.accounted

theorem Traced.forEach {f : α → Action (A × V) β}
    {g : α → Action (A × V × List (Incident L N R)) β} {xs : List α}
    (h : ∀ z ∈ xs, Traced a (fun _ => True) (f z) (g z)) :
    Traced a (fun _ => True) (Action.forEach f xs) (Action.forEach g xs) := by
  induction xs with
  | nil => exact traced_pure trivial
  | cons z more ih =>
    obtain ⟨hhead, hmore⟩ := List.forall_mem_cons.1 h
    exact hhead.bind fun _ _ => (ih hmore).bind fun _ _ => traced_pure trivial

theorem noted_eq {W I : Type} (log : Lens W (List I)) (x : Action W α) (incident : Outcome α → I)
    (w : W) : x.noted log incident w =
      ⟨(x w).outcome, log.modify (· ++ [incident (x w).outcome]) (x w).state, (x w).events⟩ := by
  rw [noted, caught_bind]
  show Ran.mk _ _ ((x w).events ++ []) = _
  rw [List.append_nil]
  rfl

/-- Reads something off the first of two states. -/
def Action.asking {W : Type} (read : A → Except BuildError α) : Action (A × W) α := fun s =>
  ⟨.ofExcept (read s.1), s, []⟩

/-- A question that is answered is written down as such. -/
theorem traced_asking (read : A → Except BuildError α) {z : α}
    {incident : Outcome α → Incident L N R} (h : read a = .ok z)
    (inOrder : (incident (.done z)).InOrder) (neutral : ∀ e, ¬ (incident (.done z)).Suffers e) :
    Traced a (· = z) (asking read : Action (A × V) α) (noted incidents (asking read) incident) := by
  intro v log hlog
  rw [noted_eq, asking, asking]
  dsimp only
  rw [h]
  exact ⟨rfl, rfl, rfl, rfl, List.prefix_append log _,
    hlog.push inOrder fun e he => absurd he (neutral e), (fun e he => nomatch he),
    fun z' hz => (Outcome.done.inj hz).symm⟩

/-! ## Agents -/

theorem letsIn_traced (agent : Agent L A V N R) (label : L) (edge : Option Edge) (here : N) :
    Traced a (fun _ => True) (agent.letsIn edge here) ((agent.noting label).letsIn edge here) := by
  rw [Agent.letsIn, Agent.letsIn, Agent.noting]
  cases agent.gate with
  | none => exact traced_pure trivial
  | some gate =>
    intro v log hlog
    rw [Option.map_some]
    dsimp only
    rw [seeing, seeing, zoom, zoom]
    dsimp only
    rw [noted_eq]
    refine ⟨rfl, rfl, rfl, rfl, List.prefix_append log _, hlog.push trivial fun e he => he.elim, ?_,
      fun _ _ => trivial⟩
    intro e he
    exact ⟨_, List.mem_append_right _ List.mem_cons_self, he⟩

/-- **A course that is written down.** If the errors of the descents before are accounted for, so
are the errors of all descents and of the visit. -/
theorem Course.run_follows {descent : Descent L (A × V) R}
    {descent' : Descent L (A × V × List (Incident L N R)) R}
    (h : ∀ names other, Traced a (fun _ => True) (descent names other) (descent' names other))
    (label : L) (edge : Option Edge) (here : N) (course : Course L A V R)
    (descents : List (Outcome (List (Findings R)))) (hlog : Accounted log)
    (before : ∀ e, .failed e ∈ descents → Blamed e log) :
    Follows a (fun _ => True) log (course.run descent (a, v))
      ((course.noting (.visit label edge here) descents).run descent' (a, v, log)) := by
  induction course generalizing v log descents with
  | ends outcome =>
    refine ⟨rfl, rfl, rfl, rfl, List.prefix_append log _, hlog.push trivial before, ?_,
      fun _ _ => trivial⟩
    intro e he
    by_cases passed : .failed e ∈ descents
    · exact (before e passed).mono (List.prefix_append log _)
    · exact ⟨_, List.mem_append_right _ List.mem_cons_self, he, passed⟩
  | acts work next ih =>
    have h' := ih a v (v := (work a v).1) descents hlog before
    refine ⟨h'.outcome, ?_, h'.still, h'.state, h'.more, h'.accounted, h'.blamed, h'.result⟩
    exact congrArg ((work a v).2 ++ ·) h'.events
  | descends names other next ih =>
    have h' := h names other v log hlog
    have caught : Follows a (fun _ => True) log ((descent names other).caught (a, v))
        ((descent' names other).caught (a, v, log)) :=
      ⟨congrArg _ h'.outcome, h'.events, h'.still, h'.state, h'.more, h'.accounted,
        (fun e he => nomatch he), fun _ _ => trivial⟩
    refine caught.bind fun ended hended => ?_
    refine ih ended (descents ++ [ended]) h'.accounted ?_
    intro e he
    rcases List.mem_append.1 he with hold | hnew
    · exact (before e hold).mono h'.more
    · refine h'.blamed e ?_
      rw [List.mem_singleton.1 hnew]
      exact Outcome.done.inj hended

end Runs

/-! ## Walks -/

/-- The view answers every question of a walk about the nodes of `G`, their right nodes are nodes of
`G` again, and there are no more of them than a walk lets a relation have. -/
structure View.Answers (view : View N) (G : N → Prop) : Prop where
  kind : ∀ n, G n → ∃ kind, view.kind n = .ok kind
  attrs : ∀ n, G n → ∃ attrs, view.attrs n = .ok attrs
  relations : ∀ n, G n → ∃ relations, view.relations n = .ok relations ∧
    ∀ relation ∈ relations, ∃ rights, view.related relation n = .ok ⟨rights⟩ ∧
      relation.Allows rights.length ∧ ∀ r ∈ rights, G r.1

namespace Walk

variable {a : A} {step : Step L (A × V) N R} {step' : Step L (A × V × List (Incident L N R)) N R}
  {site : Site (A × V) N} {site' : Site (A × V × List (Incident L N R)) N}

theorem intoRelation_traced {relation : Relation} {pairs : List (N × Attrs)}
    (related : Traced a (· = ⟨pairs⟩) (site.inspector.related relation site.node)
      (site'.inspector.related relation site'.node))
    (few : relation.Allows pairs.length) (label : L)
    (rights : ∀ r ∈ pairs, ∀ edge, Traced a (fun _ => True)
      (step site.inspector label edge r.1) (step' site'.inspector label edge r.1)) :
    Traced a (fun _ => True) (intoRelation step site label relation)
      (intoRelation step' site' label relation) := by
  refine related.bind ?_
  rintro _ rfl
  dsimp only
  cases hs : relation.cardinality.isSequence with
  | true =>
    exact (Traced.forEach fun r hr => rights r hr _).bind fun _ _ => traced_pure trivial
  | false =>
    have hle := few hs
    match pairs, rights with
    | [], _ => exact traced_pure trivial
    | [r], rights =>
      exact (rights r List.mem_cons_self _).bind fun _ _ => traced_pure trivial
    | r :: q :: more, _ =>
      simp at hle

theorem descend_traced (relations : site'.relations = site.relations) (label : L)
    (into : ∀ relation ∈ site.relations, ∀ label, Traced a (fun _ => True)
      (intoRelation step site label relation) (intoRelation step' site' label relation))
    (names : Option (List String)) (other : Option L) :
    Traced a (fun _ => True) (descend step site label names other)
      (descend step' site' label names other) := by
  cases names with
  | none =>
    show Traced a _ (Action.forEach _ site.relations) (Action.forEach _ site'.relations)
    rw [relations]
    exact Traced.forEach fun relation hrelation => into relation hrelation _
  | some names =>
    show Traced a _ (Action.forEach (intoNamed step site _) names)
      (Action.forEach (intoNamed step' site' _) names)
    refine Traced.forEach fun name _ => ?_
    rw [intoNamed, intoNamed, relations]
    cases hfound : site.relations.find? (·.name == name) with
    | none => exact traced_pure trivial
    | some relation => exact into relation (List.mem_of_find?_eq_some hfound) _

variable (agents : L → Agent L A V N R)

/-- A site is visited and the visit is written down. -/
theorem visitSite_traced (edge : Option Edge) (here : N) (kind : Kind) (relations : List Relation)
    (attrs : Attrs) (inspector : Inspector (A × V) N)
    (inspector' : Inspector (A × V × List (Incident L N R)) N) (label : L)
    (descents : ∀ names other, Traced a (fun _ => True)
      (descend step ⟨edge, here, kind, relations, attrs, inspector⟩ label names other)
      (descend step' ⟨edge, here, kind, relations, attrs, inspector'⟩ label names other)) :
    Traced a (fun _ => True)
      (visitSite (Agent.visitors agents) step label
        ⟨edge, here, kind, relations, attrs, inspector⟩)
      (visitSite (Agent.visitors fun l => (agents l).noting l) step' label
        ⟨edge, here, kind, relations, attrs, inspector'⟩) := by
  refine (traced_emit _).bind fun _ _ => Traced.bind (P := fun _ => True) ?_ fun _ _ =>
    traced_pure trivial
  intro v log hlog
  exact Course.run_follows descents label edge here
    ((agents label).visit edge here kind relations attrs) [] hlog fun _ he => nomatch he

/-- **A walk over answered nodes, written down.** Every question is in order, and its errors and
those of all descents are raised by incidents. Induction on the limit; nothing is asked of the nodes
but answers, so they may well go round in circles. -/
theorem node_traced (view : A → View N) {G : N → Prop} (answers : (view a).Answers G)
    (limit : Nat) (label : L) (edge : Option Edge) {here : N} (good : G here) :
    Traced a (fun _ => True)
      (node (Agent.visitors agents) limit (.reading fun s => view s.1) label edge here)
      (node (Agent.visitors fun l => (agents l).noting l) limit
        (.noting incidents (.reading fun s => view s.1)) label edge here) := by
  induction limit generalizing label edge here with
  | zero => exact traced_crash
  | succ limit ih =>
    rw [node, node, level_eq, level_eq]
    refine (letsIn_traced (agents label) label edge here).bind fun pass _ => ?_
    cases pass with
    | false => exact (traced_emit _).bind fun _ _ => traced_pure trivial
    | true =>
      obtain ⟨kind, kindOf⟩ := answers.kind here good
      obtain ⟨attrs, attrsOf⟩ := answers.attrs here good
      obtain ⟨relations, relationsOf, related⟩ := answers.relations here good
      rw [if_pos rfl, if_pos rfl, enter_eq, enter_eq]
      have neutral : ∀ (answered : Bool) (e : BuildError),
          ¬ (Incident.asked here answered : Incident L N R).Suffers e := fun _ _ he => he
      refine Traced.bind (traced_asking (fun a => (view a).kind here) kindOf rfl (neutral true)) ?_
      rintro _ rfl
      refine Traced.bind
        (traced_asking (fun a => (view a).relations here) relationsOf rfl (neutral true)) ?_
      rintro _ rfl
      refine Traced.bind
        (traced_asking (fun a => (view a).attrs here) attrsOf rfl (neutral true)) ?_
      rintro _ rfl
      refine visitSite_traced agents edge here _ _ _ _ _ label fun names other => ?_
      refine descend_traced rfl label (fun relation hrelation label => ?_) names other
      obtain ⟨pairs, relatedOf, few, goods⟩ := related relation hrelation
      refine intoRelation_traced ?_ few label fun r hr edge =>
        ih label edge (goods r hr)
      exact traced_asking (fun a => (view a).related relation here) relatedOf
        ⟨⟨pairs⟩, rfl, few⟩ fun _ he => he

end Walk

/-! ## Trees and arenas -/

/-- A walk over a sound tree is answered. -/
theorem Tree.answers_sound : view.Answers Sound where
  kind := fun t _ => ⟨t.kind, rfl⟩
  attrs := fun t _ => ⟨t.attrs, rfl⟩
  relations := by
    intro t sound
    refine ⟨Bundle.relations t.bundles, rfl, fun relation hrelation => ?_⟩
    obtain ⟨b, hb, rfl⟩ := List.mem_map.1 hrelation
    exact ⟨b.rights, related_eq sound.wellFormed.names hb, sound.wellFormed.allows hb,
      fun r hr => sound.right hb hr⟩

/-- A walk over an arena without dangling handles is answered, if bundles are well-formed. -/
theorem Arena.answers_closed {a : Arena} (closed : a.Closed)
    (wellFormed : ∀ slot ∈ a.slots, Bundle.WellFormed slot.bundles) :
    a.view.Answers fun h => h.index < a.size := by
  refine ⟨fun h hlt => ?_, fun h hlt => ?_, fun h hlt => ?_⟩
  · obtain ⟨slot, there⟩ := slot?_of_lt hlt
    exact ⟨slot.kind, kind_eq there⟩
  · obtain ⟨slot, there⟩ := slot?_of_lt hlt
    exact ⟨slot.attrs, attrs_eq there⟩
  · obtain ⟨slot, there⟩ := slot?_of_lt hlt
    have hmem : slot ∈ a.slots := List.mem_of_getElem? there
    refine ⟨Bundle.relations slot.bundles, relations_eq there, fun relation hrelation => ?_⟩
    obtain ⟨b, hb, rfl⟩ := List.mem_map.1 hrelation
    exact ⟨b.rights, related_eq there (wellFormed slot hmem).names hb,
      (wellFormed slot hmem).allows hb, fun r hr => closed slot hmem b hb r hr⟩

/-- The second run is the first one written down, and what is written down explains all errors: no
question of the walk was left open or answered with too many right nodes, and every error of the
walk, or of a descent in it, was returned by a gate, or by a visit none of whose descents did. -/
structure Explained (plain : Ran (A × V) α)
    (noted : Ran (A × V × List (Incident L N R)) α) : Prop where
  outcome : noted.outcome = plain.outcome
  events : noted.events = plain.events
  state : (noted.state.1, noted.state.2.1) = plain.state
  inOrder : ∀ i ∈ noted.state.2.2, i.InOrder
  raised : ∀ e, plain.outcome = .failed e → ∃ i ∈ noted.state.2.2, i.Raises e
  suffered : ∀ e, ∀ i ∈ noted.state.2.2, i.Suffers e → ∃ j ∈ noted.state.2.2, j.Raises e

theorem Traced.explained {a : A} {P : α → Prop} {x : Action (A × V) α}
    {y : Action (A × V × List (Incident L N R)) α} (h : Traced a P x y) (v : V) :
    Explained (x (a, v)) (y (a, v, [])) := by
  have h' := h v [] accounted_nil
  refine ⟨h'.outcome, h'.events, ?_, h'.accounted.inOrder, h'.blamed, h'.accounted.suffered⟩
  rw [h'.state]
  exact Prod.ext h'.still.symm rfl

/-- **All errors of a walk come from its visitors**, be it over a tree that can be obtained or from
a node of an arena in any state that is reached, cyclic or not: the walk itself raises none, nor
does the inspector. -/
theorem errors_raised :
    (∀ t : Tree, t.Obtained → ∀ (L A V R : Type) (agents : L → Agent L A V Tree R) (limit : Nat)
      (label : L) (a : A) (v : V),
      Explained (walk (Agent.visitors agents) limit Tree.inspector label t (a, v))
        (walk (Agent.visitors fun l => (agents l).noting l) limit (Tree.inspector.noting incidents)
          label t (a, v, []))) ∧
    ∀ (schema : Option Schema) (calls : List (Call Handle)) (root : Handle),
      root.index < (Arena.reached schema calls).size →
      ∀ (L V R : Type) (agents : L → Agent L Arena V Handle R) (limit : Nat) (label : L) (v : V),
        Explained
          (walk (Agent.visitors agents) limit (Arena.inspector Lens.fst) label root
            (Arena.reached schema calls, v))
          (walk (Agent.visitors fun l => (agents l).noting l) limit
            ((Arena.inspector Lens.fst).noting incidents) label root
            (Arena.reached schema calls, v, [])) := by
  constructor
  · intro t obtained L A V R agents limit label a v
    have traced := Walk.node_traced agents (fun _ => Tree.view) (a := a) Tree.answers_sound limit
      label none obtained.sound
    exact traced.explained v
  · intro schema calls root there L V R agents limit label v
    have answers := Arena.answers_closed (Arena.reached_closed schema calls)
      (Arena.reached_wellFormed schema calls)
    exact (Walk.node_traced agents Arena.view answers limit label none there).explained v

/-- A node that was related to itself, in a session that was completed after one that was not. -/
def ringCalls : List (Call Handle) :=
  [.make "ring" ∅, .prepare, .relate ⟨"other", .many⟩ ⟨0⟩ ⟨0⟩ ∅, .close .aborted, .prepare,
    .relate ⟨"next", .one⟩ ⟨0⟩ ⟨0⟩ ∅, .close .completed]

/-- Goes on and on, and gives up at the third visit. -/
def tiring : Agent Unit Arena Nat Handle Unit where
  visit _ _ _ _ _ := .acts (fun _ count => (count + 1, [])) fun _ count =>
    if count = 2 then .ends (.failed (Fault.raised "tired"))
    else .descends none none fun ended => .ends (ended.map fun _ => ())

/-- Lets nothing in and says so. -/
def refusing : Agent Unit Unit Unit Tree Unit where
  gate := some fun _ _ _ => Action.fail (Fault.raised "refused")
  visit _ _ _ _ _ := .ends (.done ())

theorem errors_raised_tiring :
    ((walk (Agent.visitors fun _ => refusing) 9 Tree.inspector () (Tree.make "leaf" ∅)
        ((), ())).outcome = .failed (Fault.raised "refused") ∧
      Explained
        (walk (Agent.visitors fun _ => refusing) 9 Tree.inspector () (Tree.make "leaf" ∅) ((), ()))
        (walk (Agent.visitors fun l => refusing.noting l) 9 (Tree.inspector.noting incidents) ()
          (Tree.make "leaf" ∅) ((), (), []))) ∧
    (Arena.reached none ringCalls).size = 1 ∧
      (walk (Agent.visitors fun _ => tiring) 9 (Arena.inspector Lens.fst) () ⟨0⟩
        (Arena.reached none ringCalls, 0)).outcome = .failed (Fault.raised "tired") ∧
      Explained
        (walk (Agent.visitors fun _ => tiring) 9 (Arena.inspector Lens.fst) () ⟨0⟩
          (Arena.reached none ringCalls, 0))
        (walk (Agent.visitors fun l => tiring.noting l) 9
          ((Arena.inspector Lens.fst).noting incidents) () ⟨0⟩
          (Arena.reached none ringCalls, 0, [])) := by
  obtain ⟨overTrees, overArenas⟩ := errors_raised
  refine ⟨⟨rfl, ?_⟩, rfl, rfl, ?_⟩
  · exact overTrees (Tree.make "leaf" ∅) (Tree.obtained_make "leaf" ∅) Unit Unit Unit Unit
      (fun _ => refusing) 9 () () ()
  · exact overArenas none ringCalls ⟨0⟩ (by decide) Unit Nat Unit (fun _ => tiring) 9 () 0

end TreeProtocol
