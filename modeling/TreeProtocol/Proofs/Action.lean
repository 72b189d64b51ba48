import TreeProtocol.Effect.Action

/-!
# Running sequences of actions

How a sequence of actions runs once it is known how its first action ended. The lemmas are stated
for the whole of what is left behind, so that outcome, state and events are read off one equation.

`Action.Yields` is for actions that only read: they have a result and leave the state as it is.
-/

namespace TreeProtocol

variable {S W α β : Type}

/-- What is left behind if `events` were reported before the rest of a run. -/
def Ran.after (events : List Event) (r : Ran S α) : Ran S α :=
  ⟨r.outcome, r.state, events ++ r.events⟩

@[simp] theorem Ran.after_outcome (es : List Event) (r : Ran S α) :
    (Ran.after es r).outcome = r.outcome := rfl

@[simp] theorem Ran.after_state (es : List Event) (r : Ran S α) :
    (Ran.after es r).state = r.state := rfl

namespace Action

theorem bind_of_done {x : Action S α} {s : S} {a : α} (h : (x s).outcome = .done a)
    (f : α → Action S β) : (x >>= f) s = Ran.after (x s).events (f a (x s).state) := by
  show bind x f s = _
  simp only [bind, h]
  rfl

theorem bind_of_failed {x : Action S α} {s : S} {e : BuildError} (h : (x s).outcome = .failed e)
    (f : α → Action S β) : (x >>= f) s = ⟨.failed e, (x s).state, (x s).events⟩ := by
  show bind x f s = _
  simp only [bind, h]

theorem bind_of_crashed {x : Action S α} {s : S} (h : (x s).outcome = .crashed)
    (f : α → Action S β) : (x >>= f) s = ⟨.crashed, (x s).state, (x s).events⟩ := by
  show bind x f s = _
  simp only [bind, h]

/-- What holds of the state after the first action, and after the second if it is run, holds of the
state after both. -/
theorem bind_state {P : S → Prop} {x : Action S α} {f : α → Action S β} {s : S}
    (first : P (x s).state)
    (second : ∀ a, (x s).outcome = .done a → P (f a (x s).state).state) :
    P ((x >>= f) s).state := by
  cases h : (x s).outcome with
  | done a =>
    rw [bind_of_done h]
    exact second a h
  | failed e =>
    rw [bind_of_failed h]
    exact first
  | crashed =>
    rw [bind_of_crashed h]
    exact first

theorem emit_bind (e : Event) (f : Unit → Action S β) (s : S) :
    (emit e >>= f) s = Ran.after [e] (f () s) := rfl

theorem caught_bind (x : Action S α) (f : Outcome α → Action S β) (s : S) :
    (x.caught >>= f) s = Ran.after (x s).events (f (x s).outcome (x s).state) := rfl

@[simp] theorem zoom_outcome (l : Lens W S) (x : Action S α) (w : W) :
    (x.zoom l w).outcome = (x (l.get w)).outcome := rfl

@[simp] theorem zoom_state (l : Lens W S) (x : Action S α) (w : W) :
    (x.zoom l w).state = l.set (x (l.get w)).state w := rfl

theorem get_zoom (l : Lens W S) (x : Action S α) (w : W) :
    l.get (x.zoom l w).state = (x (l.get w)).state := l.get_set _ _

@[simp] theorem map_outcome (f : α → β) (x : Action S α) (s : S) :
    ((f <$> x) s).outcome = (x s).outcome.map f := by
  show (bind x (fun a => pure (f a)) s).outcome = _
  simp only [bind]
  cases (x s).outcome <;> rfl

@[simp] theorem map_state (f : α → β) (x : Action S α) (s : S) :
    ((f <$> x) s).state = (x s).state := by
  show (bind x (fun a => pure (f a)) s).state = _
  simp only [bind]
  cases (x s).outcome <;> rfl

/-- A sequence that is done went through a first action that was done. -/
theorem done_of_bind {x : Action S α} {f : α → Action S β} {s : S} {b : β}
    (h : ((x >>= f) s).outcome = .done b) :
    ∃ a, (x s).outcome = .done a ∧ (f a (x s).state).outcome = .done b ∧
      ((x >>= f) s).state = (f a (x s).state).state := by
  cases hx : (x s).outcome with
  | done a =>
    rw [bind_of_done hx] at h ⊢
    exact ⟨a, rfl, h, rfl⟩
  | failed e =>
    rw [bind_of_failed hx] at h
    exact nomatch h
  | crashed =>
    rw [bind_of_crashed hx] at h
    exact nomatch h

/-- A sequence is not done if its first action is not. -/
theorem isDone_bind {x : Action S α} {f : α → Action S β} {s : S}
    (h : (x s).outcome.isDone = false) : ((x >>= f) s).outcome.isDone = false := by
  cases ho : (x s).outcome with
  | done a =>
    rw [ho] at h
    cases h
  | failed e =>
    rw [bind_of_failed ho]
    rfl
  | crashed =>
    rw [bind_of_crashed ho]
    rfl

theorem ofExcept_done {x : Except BuildError α} {s : S} {a : α}
    (h : ((ofExcept x : Action S α) s).outcome = .done a) : x = .ok a := by
  cases x with
  | ok b => rw [Outcome.done.inj h]
  | error e => exact nomatch h

/-! ## Actions that only read -/

/-- The action has the result `a` at `s` and leaves the state as it is. -/
def Yields (x : Action S α) (s : S) (a : α) : Prop :=
  (x s).outcome = .done a ∧ (x s).state = s

theorem yields_pure (a : α) (s : S) : (pure a : Action S α).Yields s a := ⟨rfl, rfl⟩

theorem Yields.bind {x : Action S α} {f : α → Action S β} {s : S} {a : α} {b : β}
    (hx : x.Yields s a) (hf : (f a).Yields s b) : (x >>= f).Yields s b := by
  rw [Yields, bind_of_done hx.1, hx.2]
  exact hf

theorem Yields.emit_bind {f : Unit → Action S β} {s : S} {b : β} (e : Event)
    (hf : (f ()).Yields s b) : (emit e >>= f).Yields s b := hf

theorem yields_forEach {f : α → Action S β} {g : α → β} {s : S} {xs : List α}
    (h : ∀ x ∈ xs, (f x).Yields s (g x)) : (forEach f xs).Yields s (xs.map g) := by
  induction xs with
  | nil => exact yields_pure [] s
  | cons x more ih =>
    obtain ⟨hhead, hmore⟩ := List.forall_mem_cons.1 h
    exact hhead.bind ((ih hmore).bind (yields_pure _ s))

theorem forEach_map {γ : Type} (f : α → Action S β) (g : γ → α) (xs : List γ) :
    forEach f (xs.map g) = forEach (fun x => f (g x)) xs := by
  induction xs with
  | nil => rfl
  | cons x more ih => rw [List.map_cons, forEach, forEach, ih]

end Action

end TreeProtocol
