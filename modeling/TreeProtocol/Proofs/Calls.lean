import TreeProtocol.Construction.Builder
import TreeProtocol.Proofs.Action

/-!
# Runs of builder calls

A `Call` is one call of a builder with its arguments. Calls are made one after the other, whatever
the outcome of those before: nothing keeps sessions balanced or nodes valid.

* `Builder.after` — the state after a run of calls;
* `Builder.observed` — what every call of a run answers, with a look at the state after it;
* `after_invariant` — what one call preserves, a run preserves;
* `Simulates.observed_eq` — two builders whose states stay related under every call cannot be told
  apart.
-/

namespace TreeProtocol

/-- A call of a builder with nodes of type `N`. -/
inductive Call (N : Type) where
  | make (kind : Kind) (attrs : Attrs)
  | relate (relation : Relation) (left right : N) (args : Attrs)
  | finish (kind : Kind) (node : N)
  | prepare
  | close (ending : SessionEnd)

variable {W V N A : Type}

/-- Makes a call; its result is the node that it returns, if it returns one. -/
def Call.on (b : Builder W N) : Call N → Action W (Option N)
  | .make kind attrs => some <$> b.make kind attrs
  | .relate relation left right args => some <$> b.relate relation left right args
  | .finish kind node => some <$> b.finish kind node
  | .prepare => (fun _ => none) <$> b.prepare
  | .close ending => (fun _ => none) <$> b.close ending

namespace Builder

/-- The state after a run of calls. -/
def after (b : Builder W N) : List (Call N) → W → W
  | [], w => w
  | c :: more, w => b.after more (c.on b w).state

theorem after_append (b : Builder W N) (xs ys : List (Call N)) (w : W) :
    b.after (xs ++ ys) w = b.after ys (b.after xs w) := by
  induction xs generalizing w with
  | nil => rfl
  | cons c more ih => exact ih _

/-- The outcome of every call of a run, with what `look` sees of the state after it. -/
def observed (b : Builder W N) (look : W → A) : List (Call N) → W → List (Outcome (Option N) × A)
  | [], _ => []
  | c :: more, w =>
    ((c.on b w).outcome, look (c.on b w).state) :: b.observed look more (c.on b w).state

/-- **Run lemma for invariants.** -/
theorem after_invariant {b : Builder W N} {P : W → Prop}
    (step : ∀ (c : Call N) (w : W), P w → P (c.on b w).state) (calls : List (Call N)) {w : W}
    (h : P w) : P (b.after calls w) := by
  induction calls generalizing w with
  | nil => exact h
  | cons c more ih => exact ih (step c w h)

/-- A relation between the states of two builders under which every call has the same outcome on
both, and which every call keeps. -/
def Simulates (b : Builder W N) (c : Builder V N) (R : W → V → Prop) : Prop :=
  ∀ (call : Call N) (w : W) (v : V), R w v →
    (call.on b w).outcome = (call.on c v).outcome ∧ R (call.on b w).state (call.on c v).state

/-- Related states stay related. -/
theorem Simulates.after {b : Builder W N} {c : Builder V N} {R : W → V → Prop}
    (sim : Simulates b c R) (calls : List (Call N)) {w : W} {v : V} (h : R w v) :
    R (b.after calls w) (c.after calls v) := by
  induction calls generalizing w v with
  | nil => exact h
  | cons call more ih => exact ih (sim call w v h).2

/-- **Run lemma for simulations.** If related states also look the same, all of a run does. -/
theorem Simulates.observed_eq {b : Builder W N} {c : Builder V N} {R : W → V → Prop}
    (sim : Simulates b c R) {lookW : W → A} {lookV : V → A}
    (look : ∀ w v, R w v → lookW w = lookV v) (calls : List (Call N)) {w : W} {v : V}
    (h : R w v) : b.observed lookW calls w = c.observed lookV calls v := by
  induction calls generalizing w v with
  | nil => rfl
  | cons call more ih =>
    obtain ⟨houtcome, hstate⟩ := sim call w v h
    rw [observed, observed, houtcome, look _ _ hstate, ih hstate]

end Builder

end TreeProtocol
