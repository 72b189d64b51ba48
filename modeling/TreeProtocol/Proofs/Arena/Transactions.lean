import TreeProtocol.Construction.Composite
import TreeProtocol.Proofs.Arena.History
import TreeProtocol.Proofs.Session

/-!
# Sessions of an arena are transactions

The body of a session is an arbitrary program that acts on the arena through its builder only: it
may make, relate and finish nodes, new ones and older ones, look at them, open sessions of its own,
and catch errors and crashes or let them through (`ThroughBuilder`).

However such a body runs, it leaves the marks of the enclosing sessions alone, and it keeps all
snapshots (`ThroughBuilder.continues`). So a session whose body fails or crashes, or is done while a
node that it made is unfinished, leaves the arena exactly as it was, undo data of the enclosing
sessions included (`session_atomic`).
-/

namespace TreeProtocol.Arena

/-! ## What a balanced stretch of calls keeps -/

/-- From `a` to `b` every session that was opened was closed again, and none that was open
before. -/
structure Continues (a b : Arena) : Prop where
  schema : b.schema = a.schema
  ordered : b.Ordered
  depth : b.marks.length = a.marks.length
  outer : b.marks.tail = a.marks.tail
  snapshots : b.snapshots = a.snapshots

theorem Continues.refl {a : Arena} (ho : a.Ordered) : Continues a a :=
  ⟨rfl, ho, rfl, rfl, rfl⟩

theorem Continues.trans {a b c : Arena} (h : Continues a b) (k : Continues b c) :
    Continues a c where
  schema := k.schema.trans h.schema
  ordered := k.ordered
  depth := k.depth.trans h.depth
  outer := k.outer.trans h.outer
  snapshots := k.snapshots.trans h.snapshots

theorem touch_depth (a : Arena) (h : Handle) : (a.touch h).marks.length = a.marks.length := by
  have := congrArg List.length (lengths_touch a h)
  rwa [List.length_map, List.length_map] at this

/-- Saving a state concerns the innermost mark only. -/
theorem touch_outer {a : Arena} {h : Handle} {slot : Slot} (there : a.slot? h = some slot) :
    (a.touch h).marks.tail = a.marks.tail := by
  rcases touch_cases there with ⟨-, heq⟩ | ⟨_, _, -, -, heq⟩ | ⟨mark, outer, hm, -, heq⟩
  · rw [heq]
  · rw [heq]
  · rw [heq, hm]
    rfl

theorem BuildStep.continues {a b : Arena} (step : BuildStep a b) (ho : a.Ordered) :
    Continues a b := by
  refine ⟨step.schema, ho.build step, ?_, ?_, step.snapshots ho⟩
  · cases step with
    | unchanged => rfl
    | saved there => exact touch_depth a _
    | made allowed => rfl
    | changed there change => exact touch_depth a _
  · cases step with
    | unchanged => rfl
    | saved there => exact touch_outer there
    | made allowed => rfl
    | changed there change => exact touch_outer there

/-! ## Closing the session that was opened last -/

section Closing

variable {a b : Arena} {mark : Mark} {outer : List Mark}

theorem Continues.outer_eq (h : Continues (prepare a).state b) (hm : b.marks = mark :: outer) :
    outer = a.marks := by
  have := h.outer
  rw [hm] at this
  exact this

theorem Continues.restored (h : Continues (prepare a).state b) (hm : b.marks = mark :: outer) :
    restoredSlots b.slots mark = a.slots := by
  have hsnap := h.snapshots
  rw [snapshots_of_marks hm] at hsnap
  exact (List.cons.inj (hsnap.trans (snapshots_open a))).1

theorem Continues.mark_length (h : Continues (prepare a).state b) (hm : b.marks = mark :: outer) :
    mark.length = a.size := by
  rw [← restoredSlots_length (h.ordered.head_le hm), h.restored hm, size]

/-- **Taking back undoes everything.** -/
theorem Continues.rollBack (h : Continues (prepare a).state b) (hm : b.marks = mark :: outer) :
    b.rollBack mark outer = a := by
  show Arena.mk (restoredSlots b.slots mark) outer b.schema = a
  rw [h.restored hm, h.outer_eq hm, h.schema]
  rfl

/-- **Keeping leaves the enclosing sessions as they were**, apart from what the innermost of them
takes over. -/
theorem Continues.commit (h : Continues (prepare a).state b) (hm : b.marks = mark :: outer) :
    Continues a (b.commit mark outer) := by
  have houter := h.outer_eq hm
  refine ⟨?_, h.ordered.commit hm, ?_, ?_, ?_⟩
  · rw [commit_schema, h.schema]
    rfl
  · have := congrArg List.length (commit_lengths b mark outer)
    rw [List.length_map, List.length_map] at this
    rw [this, houter]
  · rw [← houter]
    cases outer <;> rfl
  · have hsnap := h.snapshots
    rw [snapshots_commit h.ordered hm] at hsnap
    exact (List.cons.inj (hsnap.trans (snapshots_open a))).2

/-- All nodes from a position on are finished. -/
def FinishedFrom (n : Nat) (a : Arena) : Prop := ∀ slot ∈ a.slots.drop n, slot.finished = true

theorem unfinishedSince_eq_zero (a : Arena) (mark : Mark) :
    a.unfinishedSince mark = 0 ↔ a.FinishedFrom mark.length := by
  rw [unfinishedSince, List.countP_eq_zero]
  constructor
  · intro h slot hslot
    simpa using h slot hslot
  · intro h slot hslot
    simpa using h slot hslot

theorem close_completed (hm : b.marks = mark :: outer) (h : b.FinishedFrom mark.length) :
    (close .completed b).outcome = .done () ∧ (close .completed b).state = b.commit mark outer := by
  have hz := (unfinishedSince_eq_zero b mark).2 h
  rw [close, hm]
  dsimp only
  rw [if_pos ⟨rfl, hz⟩]
  exact ⟨rfl, rfl⟩

theorem close_unfinished (hm : b.marks = mark :: outer) (h : ¬ b.FinishedFrom mark.length) :
    (close .completed b).outcome = .failed (Fault.leftUnfinished (b.unfinishedSince mark)) ∧
      (close .completed b).state = b.rollBack mark outer := by
  rw [close, hm]
  dsimp only
  rw [if_neg fun hc => h ((unfinishedSince_eq_zero b mark).1 hc.2)]
  exact ⟨rfl, rfl⟩

theorem close_aborted (hm : b.marks = mark :: outer) :
    (close .aborted b).outcome = .done () ∧ (close .aborted b).state = b.rollBack mark outer := by
  rw [close, hm]
  dsimp only
  rw [if_neg fun hc => SessionEnd.noConfusion hc.1]
  exact ⟨rfl, rfl⟩

end Closing

/-! ## A session around a body -/

section Session

variable {W α β : Type} {place : Lens W Arena} {body : Action W α} {w : W}

/-- The body of a session at `w`, run where the session has just been opened. -/
def bodyRun (place : Lens W Arena) (body : Action W α) (w : W) : Ran W α :=
  body ((builder place).prepare w).state

theorem session_outcome_eq (place : Lens W Arena) (body : Action W α) (w : W) :
    ((builder place).session body w).outcome =
      (bodyRun place body w).outcome.closedBy
        (close (bodyRun place body w).outcome.ending
          (place.get (bodyRun place body w).state)).outcome :=
  (builder place).session_outcome rfl body

theorem session_arena_eq (place : Lens W Arena) (body : Action W α) (w : W) :
    place.get ((builder place).session body w).state =
      (close (bodyRun place body w).outcome.ending
        (place.get (bodyRun place body w).state)).state := by
  rw [(builder place).session_state rfl body]
  exact place.get_set _ _

/-- What the body keeps, as far as the session asks for it. -/
def BodyContinues (place : Lens W Arena) (body : Action W α) (w : W) : Prop :=
  Continues (prepare (place.get w)).state (place.get (bodyRun place body w).state)

/-- It is enough that the body keeps what it should wherever it is run. -/
theorem bodyContinues_of (ho : (place.get w).Ordered)
    (keeps : ∀ w, (place.get w).Ordered → Continues (place.get w) (place.get (body w).state)) :
    BodyContinues place body w := by
  have hopen : place.get ((builder place).prepare w).state = (prepare (place.get w)).state :=
    place.get_set _ _
  have horder : (place.get ((builder place).prepare w).state).Ordered := by
    rw [hopen]
    exact ho.step .opened
  have run := keeps ((builder place).prepare w).state horder
  rw [hopen] at run
  exact run

theorem BodyContinues.marks (h : BodyContinues place body w) :
    ∃ mark, (place.get (bodyRun place body w).state).marks = mark :: (place.get w).marks := by
  cases hm : (place.get (bodyRun place body w).state).marks with
  | nil =>
    have := h.depth
    rw [hm] at this
    exact nomatch this
  | cons mark outer => exact ⟨mark, by rw [h.outer_eq hm]⟩

/-- **A body that is done and left nothing unfinished** is kept. -/
theorem session_kept (h : BodyContinues place body w) {v : α}
    (hv : (bodyRun place body w).outcome = .done v)
    (hf : (place.get (bodyRun place body w).state).FinishedFrom (place.get w).size) :
    ((builder place).session body w).outcome = .done v ∧
      Continues (place.get w) (place.get ((builder place).session body w).state) := by
  obtain ⟨mark, hm⟩ := h.marks
  rw [← h.mark_length hm] at hf
  obtain ⟨houtcome, hstate⟩ := close_completed hm hf
  rw [session_outcome_eq, session_arena_eq, hv]
  show Outcome.closedBy (.done v) (close .completed _).outcome = _ ∧
    Continues _ (close .completed _).state
  rw [houtcome, hstate]
  exact ⟨rfl, h.commit hm⟩

/-- **A body that is done but left a node unfinished** is undone. -/
theorem session_refused (h : BodyContinues place body w) {v : α}
    (hv : (bodyRun place body w).outcome = .done v)
    (hf : ¬ (place.get (bodyRun place body w).state).FinishedFrom (place.get w).size) :
    (∃ n, ((builder place).session body w).outcome = .failed (Fault.leftUnfinished n)) ∧
      place.get ((builder place).session body w).state = place.get w := by
  obtain ⟨mark, hm⟩ := h.marks
  rw [← h.mark_length hm] at hf
  obtain ⟨houtcome, hstate⟩ := close_unfinished hm hf
  rw [session_outcome_eq, session_arena_eq, hv]
  show (∃ n, Outcome.closedBy (.done v) (close .completed _).outcome = _) ∧
    (close .completed _).state = _
  rw [houtcome, hstate]
  exact ⟨⟨_, rfl⟩, h.rollBack hm⟩

/-- **A body that failed or crashed** is undone, and the session ends as its body did. -/
theorem session_undone (h : BodyContinues place body w)
    (hv : ∀ v, (bodyRun place body w).outcome ≠ .done v) :
    ((builder place).session body w).outcome = (bodyRun place body w).outcome ∧
      place.get ((builder place).session body w).state = place.get w := by
  obtain ⟨mark, hm⟩ := h.marks
  obtain ⟨houtcome, hstate⟩ := close_aborted hm
  rw [session_outcome_eq, session_arena_eq, Outcome.ending_of_not_done hv, houtcome, hstate,
    Outcome.closedBy_done]
  exact ⟨rfl, h.rollBack hm⟩

/-- Whatever came of it, a session is a balanced stretch of calls. -/
theorem session_continues (ho : (place.get w).Ordered) (h : BodyContinues place body w) :
    Continues (place.get w) (place.get ((builder place).session body w).state) := by
  obtain ⟨v, hv⟩ | hnot := (bodyRun place body w).outcome.exists_done_or
  · by_cases hf : (place.get (bodyRun place body w).state).FinishedFrom (place.get w).size
    · exact (session_kept h hv hf).2
    · rw [(session_refused h hv hf).2]
      exact Continues.refl ho
  · rw [(session_undone h hnot).2]
    exact Continues.refl ho

end Session

/-! ## Bodies -/

/-- The action acts on the arena only through its builder: by making, relating and finishing nodes
and by sessions. What it does `elsewhere` leaves the arena as it is: reading off it, reporting
events, failing, crashing, and anything done to the rest of the state. -/
inductive ThroughBuilder {W : Type} (place : Lens W Arena) : {α : Type} → Action W α → Prop
  | elsewhere {α : Type} {x : Action W α} (h : ∀ w, place.get (x w).state = place.get w) :
      ThroughBuilder place x
  | make (kind : Kind) (attrs : Attrs) : ThroughBuilder place ((builder place).make kind attrs)
  | relate (relation : Relation) (left right : Handle) (args : Attrs) :
      ThroughBuilder place ((builder place).relate relation left right args)
  | finish (kind : Kind) (node : Handle) : ThroughBuilder place ((builder place).finish kind node)
  | bind {α β : Type} {x : Action W α} {f : α → Action W β} (hx : ThroughBuilder place x)
      (hf : ∀ a, ThroughBuilder place (f a)) : ThroughBuilder place (x >>= f)
  | caught {α : Type} {x : Action W α} (hx : ThroughBuilder place x) :
      ThroughBuilder place x.caught
  | session {α : Type} {body : Action W α} (hbody : ThroughBuilder place body) :
      ThroughBuilder place ((builder place).session body)

namespace ThroughBuilder

variable {W α : Type} {place : Lens W Arena}

theorem leaf (kind : Kind) (attrs : Attrs) :
    ThroughBuilder place ((builder place).leaf kind attrs) :=
  .bind (.make kind attrs) fun node => .finish kind node

theorem attachRights (relation : Relation) {rights : List (RightSupply W Handle)}
    (h : ∀ r ∈ rights, ThroughBuilder place r.produce) (node : Handle) :
    ThroughBuilder place ((builder place).attachRights relation rights node) := by
  induction rights generalizing node with
  | nil => exact .elsewhere fun _ => rfl
  | cons r more ih =>
    obtain ⟨hhead, hmore⟩ := List.forall_mem_cons.1 h
    exact .bind hhead fun produced =>
      .bind (.relate relation node produced r.args) fun next => ih hmore next

theorem attachPlans (kind : Kind) {plans : List (RelationPlan W Handle)}
    (h : ∀ p ∈ plans, ∀ r ∈ p.rights, ThroughBuilder place r.produce) (node : Handle) :
    ThroughBuilder place ((builder place).attachPlans kind plans node) := by
  induction plans generalizing node with
  | nil => exact .elsewhere fun _ => rfl
  | cons p more ih =>
    obtain ⟨hhead, hmore⟩ := List.forall_mem_cons.1 h
    exact .bind (.elsewhere fun _ => rfl) fun _ =>
      .bind (attachRights p.relation hhead node) fun next => ih hmore next

/-- Composite construction acts through the builder if the producers of its right nodes do. -/
theorem composite (kind : Kind) (attrs : Attrs) {plans : List (RelationPlan W Handle)}
    (h : ∀ p ∈ plans, ∀ r ∈ p.rights, ThroughBuilder place r.produce) :
    ThroughBuilder place ((builder place).composite kind attrs plans) :=
  .bind (.elsewhere fun _ => rfl) fun _ =>
    .bind (.make kind attrs) fun node =>
      .bind (attachPlans kind h node) fun next => .finish kind next

/-- So does every question to the inspector of the arena. -/
theorem inspect {place : Lens W Arena} (relation : Relation) (node : Handle) :
    ThroughBuilder place ((inspector place).kind node) ∧
      ThroughBuilder place ((inspector place).attrs node) ∧
      ThroughBuilder place ((inspector place).relations node) ∧
      ThroughBuilder place ((inspector place).related relation node) :=
  ⟨.elsewhere fun _ => rfl, .elsewhere fun _ => rfl, .elsewhere fun _ => rfl,
    .elsewhere fun _ => rfl⟩

/-- A builder call on a part of the state is a step of that part. -/
theorem continues_zoom {x : Action Arena α} (hx : ∀ a, BuildStep a (x a).state) {w : W}
    (ho : (place.get w).Ordered) :
    Continues (place.get w) (place.get ((x.zoom place) w).state) := by
  rw [Action.get_zoom]
  exact (hx (place.get w)).continues ho

/-- **Run lemma for bodies.** Induction on how the action is put together; for a session inside it,
the body is run in an arena with one mark more, and the snapshots carry the argument. -/
theorem continues {x : Action W α} (h : ThroughBuilder place x) (w : W)
    (ho : (place.get w).Ordered) : Continues (place.get w) (place.get (x w).state) := by
  induction h generalizing w with
  | elsewhere h =>
    rw [h w]
    exact Continues.refl ho
  | make kind attrs => exact continues_zoom (fun a => make_step a kind attrs) ho
  | relate relation left right args =>
    exact continues_zoom (fun a => relate_step a relation left right args) ho
  | finish kind node => exact continues_zoom (fun a => finish_step a kind node) ho
  | @bind α β x f hx hf ihx ihf =>
    have first := ihx w ho
    cases hdone : (x w).outcome with
    | done a =>
      rw [Action.bind_of_done hdone]
      exact first.trans (ihf a _ first.ordered)
    | failed e =>
      rw [Action.bind_of_failed hdone]
      exact first
    | crashed =>
      rw [Action.bind_of_crashed hdone]
      exact first
  | caught hx ih => exact ih w ho
  | session hbody ih =>
    exact session_continues ho (bodyContinues_of ho ih)

end ThroughBuilder

/-- **Sessions are atomic.** A session has the result of its body exactly if the body is done and
left no new node unfinished. Otherwise the arena is what it was before, with all its open sessions
and the states that they saved; an error or crash of the body is passed on as it is, and a body that
is done but left nodes unfinished makes the session fail. -/
theorem session_atomic {W α : Type} (place : Lens W Arena) (schema : Option Schema)
    (calls : List (Call Handle)) {body : Action W α} (hbody : ThroughBuilder place body) {w : W}
    (hw : place.get w = reached schema calls) :
    (∀ v, ((builder place).session body w).outcome = .done v ↔
        (bodyRun place body w).outcome = .done v ∧
          (place.get (bodyRun place body w).state).FinishedFrom (place.get w).size) ∧
      ((∀ v, ((builder place).session body w).outcome ≠ .done v) →
        place.get ((builder place).session body w).state = place.get w) ∧
      (∀ e, (bodyRun place body w).outcome = .failed e →
        ((builder place).session body w).outcome = .failed e) ∧
      ((bodyRun place body w).outcome = .crashed →
        ((builder place).session body w).outcome = .crashed) ∧
      (∀ v, (bodyRun place body w).outcome = .done v →
        ¬ (place.get (bodyRun place body w).state).FinishedFrom (place.get w).size →
        ∃ e, ((builder place).session body w).outcome = .failed e ∧ e.cls = .invalidState) := by
  have ho : (place.get w).Ordered := by
    rw [hw]
    exact reached_ordered schema calls
  have h : BodyContinues place body w := bodyContinues_of ho fun w => hbody.continues w
  refine ⟨?_, ?_, ?_, ?_, ?_⟩
  · intro v
    constructor
    · intro hdone
      obtain ⟨v', hv'⟩ | hnot := (bodyRun place body w).outcome.exists_done_or
      · by_cases hf : (place.get (bodyRun place body w).state).FinishedFrom (place.get w).size
        · rw [(session_kept h hv' hf).1] at hdone
          exact ⟨hv'.trans hdone, hf⟩
        · obtain ⟨n, hn⟩ := (session_refused h hv' hf).1
          rw [hn] at hdone
          exact nomatch hdone
      · rw [(session_undone h hnot).1] at hdone
        exact absurd hdone (hnot v)
    · intro ⟨hv, hf⟩
      exact (session_kept h hv hf).1
  · intro hnot
    obtain ⟨v, hv⟩ | hnot' := (bodyRun place body w).outcome.exists_done_or
    · by_cases hf : (place.get (bodyRun place body w).state).FinishedFrom (place.get w).size
      · exact absurd (session_kept h hv hf).1 (hnot v)
      · exact (session_refused h hv hf).2
    · exact (session_undone h hnot').2
  · intro e he
    rw [(session_undone h (by rw [he]; intro v hv; cases hv)).1, he]
  · intro he
    rw [(session_undone h (by rw [he]; intro v hv; cases hv)).1, he]
  · intro v hv hf
    obtain ⟨n, hn⟩ := (session_refused h hv hf).1
    exact ⟨_, hn, rfl⟩

/-- A body that relates the first node to a new one, in a session of its own that crashes and then
once more, and fails. -/
def graftAndFail : Action Arena Unit := do
  let node ← (builder Lens.whole).leaf "literal" ∅
  let graft := (builder Lens.whole).relate ⟨"items", .many⟩ ⟨0⟩ node ∅
  let crashing : Action Arena Unit := graft >>= fun _ => Action.crash
  let _ ← ((builder Lens.whole).session crashing).caught
  let _ ← graft
  Action.fail Fault.noOpenSession

theorem throughBuilder_graftAndFail : ThroughBuilder Lens.whole graftAndFail :=
  .bind (.leaf "literal" ∅) fun node =>
    .bind (.caught (.session (.bind (.relate _ ⟨0⟩ node ∅) fun _ => .elsewhere fun _ => rfl)))
      fun _ => .bind (.relate _ ⟨0⟩ node ∅) fun _ => .elsewhere fun _ => rfl

/-- With a session open already, such a body leaves no trace and its error is passed on. -/
theorem session_atomic_graftAndFail :
    ((builder Lens.whole).session graftAndFail
        (reached none [.make "operator" ∅, .prepare])).state =
          reached none [.make "operator" ∅, .prepare] ∧
      ((builder Lens.whole).session graftAndFail
        (reached none [.make "operator" ∅, .prepare])).outcome = .failed Fault.noOpenSession := by
  have atomic := session_atomic Lens.whole none [.make "operator" ∅, .prepare]
    throughBuilder_graftAndFail (w := reached none [.make "operator" ∅, .prepare]) rfl
  have hfailed := atomic.2.2.1 Fault.noOpenSession rfl
  refine ⟨atomic.2.1 ?_, hfailed⟩
  intro v hv
  rw [hfailed] at hv
  cases hv

end TreeProtocol.Arena
