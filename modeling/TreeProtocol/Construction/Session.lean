import TreeProtocol.Construction.Builder

/-!
# Construction sessions

A session opens with `prepare`, runs its body through `around`, and closes exactly once, however
the body ended: as completed if it was done, as aborted if it failed or crashed. If opening fails,
nothing else happens. An error of the body wins over an error of closing, and a crash over both.
-/

namespace TreeProtocol.Builder

variable {W N α : Type}

open TreeProtocol.Action

/-- Closes a session whose body has ended, and decides what the session comes to. -/
def closeAfter (b : Builder W N) : Outcome α → Action W α
  | .done a => do
    emit (.sessionClosing .completed)
    b.close .completed
    Action.pure a
  | .failed e => do
    emit (.sessionClosing .aborted)
    match ← (b.close .aborted).caught with
    | .done () => fail e
    | .failed closeError =>
      emit (.closeErrorDropped closeError)
      fail e
    | .crashed => crash
  | .crashed => do
    emit .sessionUnwinding
    match ← (b.close .aborted).caught with
    | .failed closeError =>
      emit (.closeErrorUnwinding closeError)
      crash
    | _ => crash

/-- Runs a body inside a session of the builder. -/
def session (b : Builder W N) (body : Action W α) : Action W α := do
  b.prepare
  emit .sessionOpened
  let ended ← (b.around body).caught
  b.closeAfter ended

end TreeProtocol.Builder
