import TreeProtocol.Proofs.Session
import TreeProtocol.Tree

/-!
# Openings and closings of sessions

A builder may keep a record of its sessions in a part of the state (`Builder.Records`): an opening
is noted when it succeeds, a closing whenever it is called. Everything else that the builder does
may fail, crash and change the rest of the state at will, and `around` may refuse to run the body of
a session, or run it and put another outcome in place of the one it had.

* `Bracket.Balanced` — every session that was opened is closed again, the innermost first;
* `Scoped.balanced` — a program that comes to sessions only through `Builder.session` leaves a
  balanced record behind, however it ends;
* `session_brackets` — what one session does: it notes one opening and one closing around what its
  body notes, or nothing if it could not be opened;
* `Builder.recorded`, `recorded_records` — every builder can be made to keep a record.
-/

namespace TreeProtocol

variable {S W N α : Type}

open TreeProtocol.Action

/-! ## Records -/

/-- What is noted of sessions. -/
inductive Bracket where
  | opened
  | closed (ending : SessionEnd)
  deriving DecidableEq

/-- Every session that was opened is closed again, the innermost first. -/
inductive Bracket.Balanced : List Bracket → Prop
  | nil : Balanced []
  | append {xs ys : List Bracket} (first : Balanced xs) (second : Balanced ys) :
      Balanced (xs ++ ys)
  | session {inner : List Bracket} (ending : SessionEnd) (inside : Balanced inner) :
      Balanced (.opened :: inner ++ [.closed ending])

/-- The action leaves the part of the state as it is. -/
def Action.Leaves {A : Type} (part : Lens W A) (x : Action W α) : Prop :=
  ∀ w, part.get (x w).state = part.get w

namespace Builder

/-- The builder keeps a record of its sessions, and only `prepare` and `close` write into it. What
`around` does to the record is what the body does, which is run once or not at all. -/
structure Records (b : Builder W N) (log : Lens W (List Bracket)) : Prop where
  opened : ∀ w, (b.prepare w).outcome = .done () →
    log.get (b.prepare w).state = log.get w ++ [.opened]
  unopened : ∀ w, (b.prepare w).outcome ≠ .done () → log.get (b.prepare w).state = log.get w
  closed : ∀ ending w, log.get (b.close ending w).state = log.get w ++ [.closed ending]
  around : ∀ {α : Type} (body : Action W α) (w : W),
    log.get (b.around body w).state = log.get w ∨
      ∃ w', log.get w' = log.get w ∧ log.get (b.around body w).state = log.get (body w').state
  make : ∀ kind attrs, (b.make kind attrs).Leaves log
  relate : ∀ relation left right args, (b.relate relation left right args).Leaves log
  finish : ∀ kind node, (b.finish kind node).Leaves log

/-! ## Programs -/

/-- The program opens and closes sessions only through `Builder.session`, to any depth. What it does
`elsewhere` leaves the record alone: reading, reporting, failing, crashing, and anything done to the
rest of the state. -/
inductive Scoped (b : Builder W N) (log : Lens W (List Bracket)) :
    {α : Type} → Action W α → Prop
  | elsewhere {α : Type} {x : Action W α} (h : x.Leaves log) : Scoped b log x
  | make (kind : Kind) (attrs : Attrs) : Scoped b log (b.make kind attrs)
  | relate (relation : Relation) (left right : N) (args : Attrs) :
      Scoped b log (b.relate relation left right args)
  | finish (kind : Kind) (node : N) : Scoped b log (b.finish kind node)
  | bind {α β : Type} {x : Action W α} {f : α → Action W β} (first : Scoped b log x)
      (second : ∀ a, Scoped b log (f a)) : Scoped b log (x >>= f)
  | caught {α : Type} {x : Action W α} (inside : Scoped b log x) : Scoped b log x.caught
  | session {α : Type} {body : Action W α} (inside : Scoped b log body) :
      Scoped b log (b.session body)

/-- What was noted from one state to another is balanced. -/
def Notes (log : Lens W (List Bracket)) (w w' : W) : Prop :=
  ∃ added, Bracket.Balanced added ∧ log.get w' = log.get w ++ added

variable {b : Builder W N} {log : Lens W (List Bracket)} {w w' w'' : W}

theorem Notes.of_eq (h : log.get w' = log.get w) : Notes log w w' :=
  ⟨[], .nil, by rw [h, List.append_nil]⟩

theorem Notes.trans (first : Notes log w w') (second : Notes log w' w'') : Notes log w w'' := by
  obtain ⟨xs, hxs, hfirst⟩ := first
  obtain ⟨ys, hys, hsecond⟩ := second
  exact ⟨xs ++ ys, .append hxs hys, by rw [hsecond, hfirst, List.append_assoc]⟩

/-- What `around` notes is balanced, if what the body notes is. -/
theorem Records.around_notes (records : b.Records log) {body : Action W α}
    (inside : ∀ w, Notes log w (body w).state) (w : W) :
    Notes log w (b.around body w).state := by
  rcases records.around body w with hrefused | ⟨w', hsame, hrun⟩
  · exact .of_eq hrefused
  · obtain ⟨added, balanced, hadded⟩ := inside w'
    exact ⟨added, balanced, by rw [hrun, hadded, hsame]⟩

/-! ## One session -/

/-- The part of a session between its opening and its closing. -/
def wrapped (b : Builder W N) (body : Action W α) (w : W) : Ran W α :=
  b.around body (b.prepare w).state

theorem session_of_failed {e : BuildError} (h : (b.prepare w).outcome = .failed e)
    (body : Action W α) :
    b.session body w = ⟨.failed e, (b.prepare w).state, (b.prepare w).events⟩ :=
  bind_of_failed h _

theorem session_of_crashed (h : (b.prepare w).outcome = .crashed) (body : Action W α) :
    b.session body w = ⟨.crashed, (b.prepare w).state, (b.prepare w).events⟩ :=
  bind_of_crashed h _

/-- A session that could be opened notes one opening and one closing around what its body notes. -/
theorem Records.session_notes (records : b.Records log) {body : Action W α}
    (inside : ∀ w, Notes log w (body w).state) (hp : (b.prepare w).outcome = .done ()) :
    ∃ inner, Bracket.Balanced inner ∧
      log.get (b.wrapped body w).state = log.get w ++ .opened :: inner ∧
      log.get (b.session body w).state =
        log.get w ++ (.opened :: inner ++ [.closed (b.wrapped body w).outcome.ending]) := by
  obtain ⟨inner, balanced, hinner⟩ := records.around_notes inside (b.prepare w).state
  have hwrapped : log.get (b.wrapped body w).state = log.get w ++ .opened :: inner := by
    rw [wrapped, hinner, records.opened w hp, List.append_assoc, List.singleton_append]
  refine ⟨inner, balanced, hwrapped, ?_⟩
  have hclosed := records.closed (b.wrapped body w).outcome.ending (b.wrapped body w).state
  rw [b.session_state hp body]
  exact hclosed.trans (by rw [hwrapped, List.append_assoc])

theorem Records.session_balanced (records : b.Records log) {body : Action W α}
    (inside : ∀ w, Notes log w (body w).state) (w : W) :
    Notes log w (b.session body w).state := by
  cases hp : (b.prepare w).outcome with
  | done u =>
    obtain ⟨inner, balanced, -, hnoted⟩ := records.session_notes inside hp
    exact ⟨_, .session _ balanced, hnoted⟩
  | failed e =>
    rw [session_of_failed hp]
    exact .of_eq (records.unopened w (by rw [hp]; exact nofun))
  | crashed =>
    rw [session_of_crashed hp]
    exact .of_eq (records.unopened w (by rw [hp]; exact nofun))

/-! ## Whole programs -/

/-- **Run lemma for records.** Induction on how the program is put together. -/
theorem Scoped.balanced {x : Action W α} (h : b.Scoped log x) (records : b.Records log) (w : W) :
    Notes log w (x w).state := by
  induction h generalizing w with
  | elsewhere h => exact .of_eq (h w)
  | make kind attrs => exact .of_eq (records.make kind attrs w)
  | relate relation left right args => exact .of_eq (records.relate relation left right args w)
  | finish kind node => exact .of_eq (records.finish kind node w)
  | bind first second ihfirst ihsecond =>
    exact bind_state (ihfirst w) fun a _ => (ihfirst w).trans (ihsecond a _)
  | caught inside ih => exact ih w
  | session inside ih => exact records.session_balanced ih w

/-- How a session is closed tells whether what `around` made of its body was done. -/
theorem ending_eq_completed_iff {o : Outcome α} : o.ending = .completed ↔ ∃ a, o = .done a := by
  cases o with
  | done a => exact ⟨fun _ => ⟨a, rfl⟩, fun _ => rfl⟩
  | failed e => exact ⟨nofun, nofun⟩
  | crashed => exact ⟨nofun, nofun⟩

/-- **A session closes once what it opened.** If it cannot be opened, nothing else happens. Else it
is closed once, as completed exactly if what `around` made of the body was done, and the closing is
noted behind the opening and what was noted in between, which is balanced. An error of `around` wins
over an error of the close, and a crash over both. -/
theorem session_brackets (records : b.Records log) {body : Action W α} (inside : b.Scoped log body)
    (w : W) :
    (∀ e, (b.prepare w).outcome = .failed e →
      b.session body w = ⟨.failed e, (b.prepare w).state, (b.prepare w).events⟩ ∧
        log.get (b.session body w).state = log.get w) ∧
    ((b.prepare w).outcome = .crashed →
      b.session body w = ⟨.crashed, (b.prepare w).state, (b.prepare w).events⟩ ∧
        log.get (b.session body w).state = log.get w) ∧
    ((b.prepare w).outcome = .done () → ∃ ending inner,
      (ending = .completed ↔ ∃ a, (b.wrapped body w).outcome = .done a) ∧
      Bracket.Balanced inner ∧
      log.get (b.wrapped body w).state = log.get w ++ .opened :: inner ∧
      log.get (b.session body w).state = log.get w ++ (.opened :: inner ++ [.closed ending]) ∧
      (b.session body w).state = (b.close ending (b.wrapped body w).state).state ∧
      (b.session body w).outcome = (b.wrapped body w).outcome.closedBy
        (b.close ending (b.wrapped body w).state).outcome) ∧
    ∃ run, Bracket.Balanced run ∧ log.get (b.session body w).state = log.get w ++ run := by
  have balanced := fun w => inside.balanced records w
  refine ⟨?_, ?_, ?_, records.session_balanced balanced w⟩
  · intro e hp
    have hsession := session_of_failed hp body
    refine ⟨hsession, ?_⟩
    rw [hsession]
    exact records.unopened w (by rw [hp]; exact nofun)
  · intro hp
    have hsession := session_of_crashed hp body
    refine ⟨hsession, ?_⟩
    rw [hsession]
    exact records.unopened w (by rw [hp]; exact nofun)
  · intro hp
    obtain ⟨inner, hinner, hwrapped, hnoted⟩ := records.session_notes balanced hp
    exact ⟨_, inner, ending_eq_completed_iff, hinner, hwrapped, hnoted, b.session_state hp body,
      b.session_outcome hp body⟩

end Builder

/-! ## Keeping a record -/

/-- What a builder does around the body of a session. If `before` is not done, the body is not run;
if `after`, which is told how the body ended, is not done, its end takes the place of that. -/
structure Middleware (S : Type) where
  before : Action S Unit := Action.pure ()
  after : Outcome Unit → Action S Unit := fun _ => Action.pure ()

/-- Runs a body between the two parts of a middleware. -/
def Middleware.around (m : Middleware S) (place : Lens W S) (body : Action W α) : Action W α := do
  m.before.zoom place
  let ended ← body.caught
  (m.after (ended.map fun _ => ())).zoom place
  Action.release ended

/-- The builder with a middleware that notes, beside its state, what becomes of sessions. -/
def Builder.recorded (b : Builder S N) (m : Middleware S) : Builder (S × List Bracket) N where
  make kind attrs := (b.make kind attrs).zoom Lens.fst
  relate relation left right args := (b.relate relation left right args).zoom Lens.fst
  finish kind node := (b.finish kind node).zoom Lens.fst
  prepare := do
    b.prepare.zoom Lens.fst
    Action.modify (Lens.snd.modify (· ++ [.opened]))
  around := m.around Lens.fst
  close ending := do
    Action.modify (Lens.snd.modify (· ++ [.closed ending]))
    (b.close ending).zoom Lens.fst

theorem leaves_zoom (x : Action S α) : (x.zoom (Lens.fst (B := List Bracket))).Leaves Lens.snd :=
  fun _ => rfl

/-- A middleware runs the body once or not at all, and does nothing to the record itself. -/
theorem Middleware.around_record (m : Middleware S) (body : Action (S × List Bracket) α)
    (w : S × List Bracket) :
    (m.around Lens.fst body w).state.2 = w.2 ∨
      ∃ w', w'.2 = w.2 ∧ (m.around Lens.fst body w).state.2 = (body w').state.2 := by
  let opened := m.before.zoom Lens.fst w
  rw [around]
  refine bind_state
    (P := fun v : S × List Bracket => v.2 = w.2 ∨ ∃ w', w'.2 = w.2 ∧ v.2 = (body w').state.2) ?_ ?_
  · exact .inl rfl
  · intro _ _
    refine .inr ⟨opened.state, rfl, ?_⟩
    rw [caught_bind, Ran.after_state]
    exact bind_state (P := fun v : S × List Bracket => v.2 = (body opened.state).state.2) rfl
      fun _ _ => rfl

/-- **Every builder can be made to keep a record**, whatever its operations and its middleware
are. -/
theorem Builder.recorded_records (b : Builder S N) (m : Middleware S) :
    (b.recorded m).Records Lens.snd where
  opened := by
    intro w hdone
    obtain ⟨u, hprepare, -, hstate⟩ := done_of_bind hdone
    exact (congrArg Prod.snd hstate).trans rfl
  unopened := by
    intro w hnot
    refine bind_state (P := fun v : S × List Bracket => v.2 = w.2) rfl fun u hprepare => ?_
    exact absurd (congrArg Ran.outcome (bind_of_done hprepare _)) hnot
  closed := fun _ _ => rfl
  around := fun body w => m.around_record body w
  make := fun kind attrs => leaves_zoom (b.make kind attrs)
  relate := fun relation left right args => leaves_zoom (b.relate relation left right args)
  finish := fun kind node => leaves_zoom (b.finish kind node)

/-- A builder of trees that takes every result of a body for an error, and fails to close what was
aborted. -/
def spoiling : Builder (Unit × List Bracket) Tree :=
  Builder.recorded
    { (Tree.builder : Builder Unit Tree) with
      close := fun ending => match ending with
        | .completed => Action.pure ()
        | .aborted => Action.fail Fault.noOpenSession }
    { after := fun ended => match ended with
        | .done () => Action.fail (Fault.raised "spoilt")
        | _ => Action.pure () }

/-- A body that goes on after a session inside it has crashed. -/
def crashInside : Action (Unit × List Bracket) Tree := do
  let _ ← (spoiling.session (Action.crash : Action _ Unit)).caught
  spoiling.make "literal" ∅

theorem scoped_crashInside : spoiling.Scoped Lens.snd crashInside :=
  .bind (.caught (.session (.elsewhere fun _ => rfl))) fun _ => .make "literal" ∅

/-- The error of `around` wins over that of the close, and both sessions are closed as aborted. -/
theorem session_brackets_spoiling :
    spoiling.Records Lens.snd ∧ spoiling.Scoped Lens.snd crashInside ∧
      (spoiling.prepare ((), [])).outcome = .done () ∧
      (spoiling.session crashInside ((), [])).outcome = .failed (Fault.raised "spoilt") ∧
      (spoiling.session crashInside ((), [])).state.2 =
        [.opened, .opened, .closed .aborted, .closed .aborted] ∧
      Bracket.Balanced [.opened, .opened, .closed .aborted, .closed .aborted] := by
  have records : spoiling.Records Lens.snd := Builder.recorded_records _ _
  have opened : (spoiling.prepare ((), [])).outcome = .done () := rfl
  have noted : (spoiling.session crashInside ((), [])).state.2 =
      [.opened, .opened, .closed .aborted, .closed .aborted] := rfl
  obtain ⟨-, -, session, run, balanced, hrun⟩ :=
    Builder.session_brackets records scoped_crashInside ((), [])
  obtain ⟨ending, inner, hending, -, -, -, -, houtcome⟩ := session opened
  refine ⟨records, scoped_crashInside, opened, ?_, noted, ?_⟩
  · rw [houtcome]
    cases ending with
    | completed => exact absurd (hending.1 rfl) nofun
    | aborted => rfl
  · have hrun' : (spoiling.session crashInside ((), [])).state.2 = run := hrun
    rwa [← hrun', noted] at balanced

end TreeProtocol
