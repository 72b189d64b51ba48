import TreeProtocol.Effect.Event
import TreeProtocol.Effect.Lens

/-!
# Actions

An action on a state runs to one of three outcomes: it is done and has a result, it fails with an
error, or it crashes. Whatever the outcome, it leaves a state and a list of events behind: a
failure does not undo what was done before it.

In a sequence of actions the first that is not done ends the whole sequence (`bind`).
-/

namespace TreeProtocol

/-- How an action ended. -/
inductive Outcome (α : Type) where
  | done (result : α)
  | failed (error : BuildError)
  /-- Neither result nor error: the code that uses the library gave up. -/
  | crashed

namespace Outcome

variable {α β : Type}

/-- Whether there is a result. -/
def isDone : Outcome α → Bool
  | .done _ => true
  | _ => false

/-- Replaces the result. -/
def map (f : α → β) : Outcome α → Outcome β
  | .done a => .done (f a)
  | .failed e => .failed e
  | .crashed => .crashed

/-- The outcome of a computation that either fails or has a result. -/
def ofExcept : Except BuildError α → Outcome α
  | .ok a => .done a
  | .error e => .failed e

end Outcome

/-- What an action leaves behind. -/
structure Ran (S α : Type) where
  outcome : Outcome α
  state : S
  events : List Event

/-- A computation on a state of type `S`. -/
def Action (S α : Type) : Type := S → Ran S α

namespace Action

variable {S W α β : Type}

/-- Runs an action. -/
def run (x : Action S α) (s : S) : Ran S α := x s

/-- The action that is done at once. -/
def pure (a : α) : Action S α := fun s => ⟨.done a, s, []⟩

/-- The action that fails at once. -/
def fail (e : BuildError) : Action S α := fun s => ⟨.failed e, s, []⟩

/-- The action that crashes at once. -/
def crash : Action S α := fun s => ⟨.crashed, s, []⟩

/-- Runs one action and, if it is done, a second one on its result. -/
def bind (x : Action S α) (f : α → Action S β) : Action S β := fun s =>
  let first := x s
  match first.outcome with
  | .done a =>
    let second := f a first.state
    ⟨second.outcome, second.state, first.events ++ second.events⟩
  | .failed e => ⟨.failed e, first.state, first.events⟩
  | .crashed => ⟨.crashed, first.state, first.events⟩

instance : Monad (Action S) where
  pure := pure
  bind := bind

instance : LawfulMonad (Action S) := LawfulMonad.mk' _
  (fun x => by
    funext s
    change bind x (fun a => pure (id a)) s = x s
    simp only [bind]
    rcases h : x s with ⟨o, t, es⟩
    cases o <;> simp [pure])
  (fun a f => by
    funext s
    change bind (pure a) f s = f a s
    simp [bind, pure])
  (fun x f g => by
    funext s
    change bind (bind x f) g s = bind x (fun a => bind (f a) g) s
    simp only [bind]
    rcases x s with ⟨o, t, es⟩
    cases o <;> simp
    rcases f _ t with ⟨o, u, fs⟩
    cases o <;> simp)

/-- Reads something off the state. -/
def reads (f : S → α) : Action S α := fun s => ⟨.done (f s), s, []⟩

/-- Changes the state. -/
def modify (f : S → S) : Action S Unit := fun s => ⟨.done (), f s, []⟩

/-- Reports an event. -/
def emit (e : Event) : Action S Unit := fun s => ⟨.done (), s, [e]⟩

instance : MonadStateOf S (Action S) where
  get := fun s => ⟨.done s, s, []⟩
  set t := fun _ => ⟨.done (), t, []⟩
  modifyGet f := fun s => ⟨.done (f s).1, (f s).2, []⟩

/-- Takes over the outcome of a computation without a state. -/
def ofExcept (x : Except BuildError α) : Action S α := fun s => ⟨.ofExcept x, s, []⟩

/-- Runs an action on each member of a list in order, and collects the results. -/
def forEach (f : α → Action S β) : List α → Action S (List β)
  | [] => pure []
  | a :: as => do
    let b ← f a
    let bs ← forEach f as
    pure (b :: bs)

/-- Runs an action on a part of the state. -/
def zoom (l : Lens W S) (x : Action S α) : Action W α := fun w =>
  let r := x (l.get w)
  ⟨r.outcome, l.set r.state w, r.events⟩

/-- Runs an action and makes its outcome the result, so that what follows can look at it. -/
def caught (x : Action S α) : Action S (Outcome α) := fun s =>
  let r := x s
  ⟨.done r.outcome, r.state, r.events⟩

/-- Ends as an action that was caught did. -/
def release (o : Outcome α) : Action S α := fun s => ⟨o, s, []⟩

end Action

end TreeProtocol
