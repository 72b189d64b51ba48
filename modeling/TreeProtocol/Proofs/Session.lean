import TreeProtocol.Construction.Session
import TreeProtocol.Proofs.Action

/-!
# What a session comes to

A session that could be opened leaves the state of its close behind, and its outcome is decided by
how its body ended and how the close ended:

* `closeAfter_outcome`, `closeAfter_state` — the close alone;
* `session_outcome`, `session_state` — the whole session.
-/

namespace TreeProtocol

variable {W N α : Type}

theorem Outcome.exists_done_or (o : Outcome α) : (∃ v, o = .done v) ∨ ∀ v, o ≠ .done v := by
  cases o with
  | done v => exact .inl ⟨v, rfl⟩
  | failed e => exact .inr fun v h => nomatch h
  | crashed => exact .inr fun v h => nomatch h

/-- How a session is closed after its body ended in this way. -/
def Outcome.ending : Outcome α → SessionEnd
  | .done _ => .completed
  | .failed _ | .crashed => .aborted

/-- What a session comes to whose body ended in this way: a crash of either part wins over an error,
an error of the body wins over an error of the close. -/
def Outcome.closedBy : Outcome α → Outcome Unit → Outcome α
  | .done a, .done () => .done a
  | .done _, .failed e => .failed e
  | .failed e, .done () | .failed e, .failed _ => .failed e
  | .done _, .crashed | .failed _, .crashed | .crashed, _ => .crashed

theorem Outcome.ending_of_not_done {o : Outcome α} (h : ∀ v, o ≠ .done v) :
    o.ending = .aborted := by
  cases o with
  | done v => exact absurd rfl (h v)
  | failed e => rfl
  | crashed => rfl

/-- A close that went well leaves the outcome to the body. -/
theorem Outcome.closedBy_done (o : Outcome α) : o.closedBy (.done ()) = o := by
  cases o <;> rfl

namespace Builder

open TreeProtocol.Action

variable (b : Builder W N)

theorem closeAfter_spec (o : Outcome α) (w : W) :
    (b.closeAfter o w).outcome = o.closedBy (b.close o.ending w).outcome ∧
      (b.closeAfter o w).state = (b.close o.ending w).state := by
  cases o with
  | done a =>
    rw [closeAfter, emit_bind, Ran.after_outcome, Ran.after_state]
    cases hc : (b.close .completed w).outcome with
    | done u =>
      rw [bind_of_done hc]
      exact ⟨by rw [Outcome.ending, hc]; rfl, rfl⟩
    | failed e =>
      rw [bind_of_failed hc]
      exact ⟨by rw [Outcome.ending, hc]; rfl, rfl⟩
    | crashed =>
      rw [bind_of_crashed hc]
      exact ⟨by rw [Outcome.ending, hc]; rfl, rfl⟩
  | failed e =>
    rw [closeAfter, emit_bind, Ran.after_outcome, Ran.after_state, caught_bind,
      Ran.after_outcome, Ran.after_state]
    rw [Outcome.ending]
    cases (b.close .aborted w).outcome <;> exact ⟨rfl, rfl⟩
  | crashed =>
    rw [closeAfter, emit_bind, Ran.after_outcome, Ran.after_state, caught_bind,
      Ran.after_outcome, Ran.after_state]
    rw [Outcome.ending]
    cases (b.close .aborted w).outcome <;> exact ⟨rfl, rfl⟩

theorem session_of_opened {w : W} (hp : (b.prepare w).outcome = .done ()) (body : Action W α) :
    (b.session body w).outcome =
        (b.closeAfter (b.around body (b.prepare w).state).outcome
          (b.around body (b.prepare w).state).state).outcome ∧
      (b.session body w).state =
        (b.closeAfter (b.around body (b.prepare w).state).outcome
          (b.around body (b.prepare w).state).state).state := by
  rw [session, bind_of_done hp]
  exact ⟨rfl, rfl⟩

/-- **The outcome of a session that could be opened.** -/
theorem session_outcome {w : W} (hp : (b.prepare w).outcome = .done ()) (body : Action W α) :
    (b.session body w).outcome =
      (b.around body (b.prepare w).state).outcome.closedBy
        (b.close (b.around body (b.prepare w).state).outcome.ending
          (b.around body (b.prepare w).state).state).outcome := by
  rw [(b.session_of_opened hp body).1, (b.closeAfter_spec _ _).1]

/-- **The state after a session that could be opened** is the state after its close. -/
theorem session_state {w : W} (hp : (b.prepare w).outcome = .done ()) (body : Action W α) :
    (b.session body w).state =
      (b.close (b.around body (b.prepare w).state).outcome.ending
        (b.around body (b.prepare w).state).state).state := by
  rw [(b.session_of_opened hp body).2, (b.closeAfter_spec _ _).2]

end Builder

end TreeProtocol
