import Mathlib.Data.List.DropRight
import TreeProtocol.Arena.Sessions
import TreeProtocol.Counting
import TreeProtocol.Proofs.Programs
import TreeProtocol.Tree

/-!
# Builders in layers of counters

A builder may be counted, and the counted builder counted again. A program cannot tell how many
layers there are, and every layer has counted exactly what the program had done since it set the
counters of the layer back.

* `Exchange` — an operation of a builder or an inspector, with what became of it;
* `Workshop.tapped` — the workshop in which every exchange is written down;
* `Calls.tally` — how often each operation is in a list of exchanges;
* `Workshop.layered` — a workshop in layers of counters;
* `tapped_matches`, `counted_matches` — one tap, or one layer, does not change what a program does;
* `layers_transparent` — so programs for trees and for arenas run through any number of layers.
-/

namespace TreeProtocol

open TreeProtocol.Action

variable {W N V α : Type}

/-! ## Writing down what is done -/

/-- What a program and a builder or an inspector have to do with each other. -/
inductive Exchange (N : Type) where
  | called (call : Call N) (outcome : Outcome (Option N))
  | asked (question : Question N) (outcome : Outcome question.Answer)
  | reset (layer : Nat)

/-- The operations that are counted. -/
inductive Operation where
  | make
  | relate
  | finish
  | prepare
  | close
  | kind
  | attrs
  | relations
  | related
  deriving DecidableEq

namespace Exchange

/-- The operation that was invoked, if it was one that is counted. -/
def operation? : Exchange N → Option Operation
  | called (.make _ _) _ => some .make
  | called (.relate _ _ _ _) _ => some .relate
  | called (.finish _ _) _ => some .finish
  | called .prepare _ => some .prepare
  | called (.close _) _ => some .close
  | asked (.kind _) _ => some .kind
  | asked (.attrs _) _ => some .attrs
  | asked (.relations _) _ => some .relations
  | asked (.related _ _) _ => some .related
  | reset _ => none

/-- Whether the counters of a layer are set back. -/
def resets (layer : Nat) : Exchange N → Bool
  | reset other => other == layer
  | _ => false

/-- The exchanges since the counters of a layer were last set back. -/
def sinceReset (layer : Nat) (log : List (Exchange N)) : List (Exchange N) :=
  log.rtakeWhile fun exchange => !exchange.resets layer

theorem sinceReset_concat {layer : Nat} {exchange : Exchange N} (log : List (Exchange N))
    (h : exchange.resets layer = false) :
    sinceReset layer (log ++ [exchange]) = sinceReset layer log ++ [exchange] := by
  rw [sinceReset, List.rtakeWhile_concat_pos _ _ _ (by rw [h]; rfl), sinceReset]

theorem sinceReset_reset {layer : Nat} {exchange : Exchange N} (log : List (Exchange N))
    (h : exchange.resets layer = true) : sinceReset layer (log ++ [exchange]) = [] := by
  rw [sinceReset, List.rtakeWhile_concat_neg _ _ _ (by rw [h]; decide)]

theorem resets_of_operation {layer : Nat} {exchange : Exchange N} {operation : Operation}
    (h : exchange.operation? = some operation) : exchange.resets layer = false := by
  cases exchange with
  | called call ended => rfl
  | asked question ended => rfl
  | reset other => cases h

end Exchange

/-- How often each operation was invoked, whatever became of it. -/
def Calls.tally (log : List (Exchange N)) : Calls :=
  let operations := log.filterMap Exchange.operation?
  { make := operations.count .make
    relate := operations.count .relate
    finish := operations.count .finish
    prepare := operations.count .prepare
    close := operations.count .close
    kind := operations.count .kind
    attrs := operations.count .attrs
    relations := operations.count .relations
    related := operations.count .related }

/-- One more call of an operation. -/
def Calls.plus (c : Calls) : Operation → Calls
  | .make => { c with make := c.make + 1 }
  | .relate => { c with relate := c.relate + 1 }
  | .finish => { c with finish := c.finish + 1 }
  | .prepare => { c with prepare := c.prepare + 1 }
  | .close => { c with close := c.close + 1 }
  | .kind => { c with kind := c.kind + 1 }
  | .attrs => { c with attrs := c.attrs + 1 }
  | .relations => { c with relations := c.relations + 1 }
  | .related => { c with related := c.related + 1 }

theorem Calls.tally_concat (log : List (Exchange N)) {exchange : Exchange N} {operation : Operation}
    (h : exchange.operation? = some operation) :
    tally (log ++ [exchange]) = (tally log).plus operation := by
  have operations : (log ++ [exchange]).filterMap Exchange.operation? =
      log.filterMap Exchange.operation? ++ [operation] := by
    rw [List.filterMap_append, List.filterMap_cons, h]
    rfl
  rw [tally, operations]
  cases operation <;> simp [plus, tally]

theorem Calls.tally_reset (log : List (Exchange N)) (layer : Nat) :
    tally (log ++ [.reset layer]) = tally log := by
  have operations : (log ++ [Exchange.reset layer]).filterMap Exchange.operation? =
      log.filterMap Exchange.operation? := by
    rw [List.filterMap_append]
    exact List.append_nil _
  rw [tally, operations, tally]

/-- The workshop in which every exchange is written down with its outcome. -/
def Workshop.tapped (s : Workshop W N V) : Workshop (W × List (Exchange N)) N V where
  builder :=
    { make := fun kind attrs => ((s.builder.make kind attrs).zoom Lens.fst).noted Lens.snd
        fun ended => .called (.make kind attrs) (ended.map some)
      relate := fun relation left right args =>
        ((s.builder.relate relation left right args).zoom Lens.fst).noted Lens.snd
          fun ended => .called (.relate relation left right args) (ended.map some)
      finish := fun kind node => ((s.builder.finish kind node).zoom Lens.fst).noted Lens.snd
        fun ended => .called (.finish kind node) (ended.map some)
      prepare := (s.builder.prepare.zoom Lens.fst).noted Lens.snd
        fun ended => .called .prepare (ended.map fun _ => none)
      close := fun ending => ((s.builder.close ending).zoom Lens.fst).noted Lens.snd
        fun ended => .called (.close ending) (ended.map fun _ => none) }
  inspector := .answering fun question =>
    ((s.inspector.answer question).zoom Lens.fst).noted Lens.snd (.asked question)
  reset layer := ((s.reset layer).zoom Lens.fst).noted Lens.snd fun _ => .reset layer
  own := Lens.fst.comp s.own

/-! ## Layers -/

/-- The builder on a part of the state. -/
def Builder.zoomed {S : Type} (l : Lens W S) (b : Builder S N) : Builder W N where
  make kind attrs := (b.make kind attrs).zoom l
  relate relation left right args := (b.relate relation left right args).zoom l
  finish kind node := (b.finish kind node).zoom l
  prepare := b.prepare.zoom l
  close ending := (b.close ending).zoom l

/-- The inspector on a part of the state. -/
def Inspector.zoomed {S : Type} (l : Lens W S) (i : Inspector S N) : Inspector W N :=
  .answering fun question => (i.answer question).zoom l

namespace Workshop

/-- The workshop behind one more layer of counters, which is set back by its number. -/
def counted (s : Workshop W N V) (layer : Nat) : Workshop (W × Calls) N V where
  builder := .counted Lens.snd (s.builder.zoomed Lens.fst)
  inspector := .counted Lens.snd (s.inspector.zoomed Lens.fst)
  reset other := do
    Action.count Lens.snd fun calls => if other = layer then {} else calls
    (s.reset other).zoom Lens.fst
  own := Lens.fst.comp s.own

/-- A state behind layers of counters. -/
def Layered (W : Type) : Nat → Type
  | 0 => W
  | n + 1 => Layered W n × Calls

namespace Layered

/-- All counters at zero. -/
def start (w : W) : (n : Nat) → Layered W n
  | 0 => w
  | n + 1 => (start w n, {})

/-- The state behind all layers. -/
def base : (n : Nat) → Layered W n → W
  | 0, w => w
  | n + 1, w => base n w.1

/-- The counters, from the innermost layer outwards. -/
def calls : (n : Nat) → Layered W n → List Calls
  | 0, _ => []
  | n + 1, w => calls n w.1 ++ [w.2]

end Layered

/-- The workshop behind layers of counters, which are numbered from the innermost one outwards. -/
def layered (s : Workshop W N V) : (n : Nat) → Workshop (Layered W n) N V
  | 0 => s
  | n + 1 => (s.layered n).counted n

/-- Workshop in which trees are built. -/
def trees (V : Type) : Workshop V Tree V where
  builder := Tree.builder
  inspector := Tree.inspector
  own := Lens.whole

/-- Workshop in which nodes of an arena are built. -/
def arena (V : Type) : Workshop (Arena × V) Handle V where
  builder := Arena.builder Lens.fst
  inspector := Arena.inspector Lens.fst
  own := Lens.snd

end Workshop

/-! ## One tap -/

/-- **A tap does not change what a program does**, if the builder does nothing around sessions. -/
theorem Workshop.tapped_matches {s : Workshop W N V}
    (plain : ∀ {α : Type} (x : Action W α), s.builder.around x = x) :
    s.Matches Beside s.tapped where
  builder :=
    { make := fun _ _ => matches_noted _ _
      relate := fun _ _ _ _ => matches_noted _ _
      finish := fun _ _ => matches_noted _ _
      prepare := matches_noted _ _
      around := fun {_} {x} {_} h => (plain x).symm ▸ h
      close := fun _ => matches_noted _ _ }
  inspector :=
    { kind := fun _ => matches_noted _ _
      attrs := fun _ => matches_noted _ _
      relations := fun _ => matches_noted _ _
      related := fun _ _ => matches_noted _ _ }
  reset := fun _ => matches_noted _ _
  own_get := by
    rintro w w' rfl
    rfl
  own_set := by
    rintro v w w' rfl
    rfl

/-! ## One layer -/

section Layers

variable {layer : Nat}

/-- Behind the layer the state and the log are the same, and the counters of the layer agree with
the log. -/
structure Counts (layer : Nat) (w : W × List (Exchange N)) (w' : (W × Calls) × List (Exchange N)) :
    Prop where
  state : w'.1.1 = w.1
  log : w'.2 = w.2
  calls : w'.1.2 = .tally (Exchange.sinceReset layer w.2)

/-- What is written down of an action changes the tally as the layer changes its counters. -/
theorem matches_counting {x : Action W α} {y : Action (W × Calls) α}
    {incident : Outcome α → Exchange N} (count : Calls → Calls)
    (passes : ∀ w c, (y (w, c)).outcome = (x w).outcome ∧ (y (w, c)).state = ((x w).state, count c))
    (counts : ∀ ended log, Calls.tally (Exchange.sinceReset layer (log ++ [incident ended])) =
      count (.tally (Exchange.sinceReset layer log))) :
    Action.Matches (Counts layer) Eq ((x.zoom Lens.fst).noted Lens.snd incident)
      ((y.zoom Lens.fst).noted Lens.snd incident) := by
  rintro ⟨w, log⟩ ⟨⟨w', calls⟩, log'⟩ ⟨hw, hlog, hcalls⟩
  dsimp only at hw hlog hcalls
  subst hw hlog hcalls
  obtain ⟨houtcome, hstate⟩ := passes w' (.tally (Exchange.sinceReset layer log'))
  rw [noted_eq, noted_eq]
  refine ⟨Outcome.matches_eq_iff.2 houtcome.symm, congrArg Prod.fst hstate, ?_, ?_⟩
  · exact congrArg (fun ended => log' ++ [incident ended]) houtcome
  · exact (congrArg Prod.snd hstate).trans (counts _ log').symm

/-- An operation that is counted, passed on and written down. -/
theorem matches_counted (operation : Operation) {x : Action W α} {y : Action (W × Calls) α}
    {incident : Outcome α → Exchange N}
    (invokes : ∀ ended, (incident ended).operation? = some operation)
    (passes : ∀ w c, (y (w, c)).outcome = (x w).outcome ∧
      (y (w, c)).state = ((x w).state, c.plus operation)) :
    Action.Matches (Counts layer) Eq ((x.zoom Lens.fst).noted Lens.snd incident)
      ((y.zoom Lens.fst).noted Lens.snd incident) := by
  refine matches_counting (·.plus operation) passes fun ended log => ?_
  rw [Exchange.sinceReset_concat log (Exchange.resets_of_operation (invokes ended)),
    Calls.tally_concat _ (invokes ended)]

/-- **A layer does not change what a program does, and its counters agree with what is written
down.** -/
theorem Workshop.counted_matches (s : Workshop W N V) (layer : Nat) :
    s.tapped.Matches (Counts layer) (s.counted layer).tapped where
  builder :=
    { make := fun _ _ => matches_counted .make (fun _ => rfl) fun _ _ => ⟨rfl, rfl⟩
      relate := fun _ _ _ _ => matches_counted .relate (fun _ => rfl) fun _ _ => ⟨rfl, rfl⟩
      finish := fun _ _ => matches_counted .finish (fun _ => rfl) fun _ _ => ⟨rfl, rfl⟩
      prepare := matches_counted .prepare (fun _ => rfl) fun _ _ => ⟨rfl, rfl⟩
      around := fun h => h
      close := fun _ => matches_counted .close (fun _ => rfl) fun _ _ => ⟨rfl, rfl⟩ }
  inspector :=
    { kind := fun _ => matches_counted .kind (fun _ => rfl) fun _ _ => ⟨rfl, rfl⟩
      attrs := fun _ => matches_counted .attrs (fun _ => rfl) fun _ _ => ⟨rfl, rfl⟩
      relations := fun _ => matches_counted .relations (fun _ => rfl) fun _ _ => ⟨rfl, rfl⟩
      related := fun _ _ => matches_counted .related (fun _ => rfl) fun _ _ => ⟨rfl, rfl⟩ }
  reset := fun other => by
    refine matches_counting (fun calls => if other = layer then {} else calls)
      (fun _ _ => ⟨rfl, rfl⟩) fun ended log => ?_
    by_cases own : other = layer
    · have resets : (Exchange.reset other : Exchange N).resets layer = true := beq_iff_eq.2 own
      rw [Exchange.sinceReset_reset log resets, if_pos own]
      rfl
    · have keeps : (Exchange.reset other : Exchange N).resets layer = false :=
        beq_eq_false_iff_ne.2 own
      rw [Exchange.sinceReset_concat log keeps, if_neg own, Calls.tally_reset]
  own_get := by
    rintro w w' ⟨hw, -, -⟩
    exact congrArg s.own.get hw.symm
  own_set := by
    rintro v w w' ⟨hw, hlog, hcalls⟩
    exact ⟨congrArg (s.own.set v) hw, hlog, hcalls⟩

end Layers

/-! ## Any number of layers -/

namespace Workshop

theorem layered_plain {s : Workshop W N V}
    (plain : ∀ {α : Type} (x : Action W α), s.builder.around x = x) (n : Nat) {α : Type}
    (x : Action (Layered W n) α) : (s.layered n).builder.around x = x := by
  cases n with
  | zero => exact plain x
  | succ n => rfl

/-- Two runs that were written down: a plain one, and one behind layers of counters. -/
structure Agree (n : Nat) (r : Ran (W × List (Exchange N)) α)
    (r' : Ran (Layered W n × List (Exchange N)) α) : Prop where
  outcome : r'.outcome = r.outcome
  state : Layered.base n r'.state.1 = r.state.1
  log : r'.state.2 = r.state.2
  calls : Layered.calls n r'.state.1 =
    (List.range n).map fun layer => .tally (Exchange.sinceReset layer r.state.2)

/-- Induction on the number of layers; the outermost one is put around a run that agrees with the
plain one already. -/
theorem layered_agree (s : Workshop W N V) (program : Program N V α) (w : W) (n : Nat) :
    Agree n (program.on s.tapped (w, []))
      (program.on (s.layered n).tapped (Layered.start w n, [])) := by
  induction n with
  | zero => exact ⟨rfl, rfl, rfl, rfl⟩
  | succ n ih =>
    have start : Counts n (Layered.start w n, ([] : List (Exchange N)))
        (Layered.start w (n + 1), []) := ⟨rfl, rfl, rfl⟩
    obtain ⟨same, state, log, calls⟩ :=
      program.on_matches ((s.layered n).counted_matches n) _ _ start
    refine ⟨(Outcome.matches_eq_iff.1 same).symm.trans ih.outcome, ?_, log.trans ih.log, ?_⟩
    · exact (congrArg (Layered.base n) state).trans ih.state
    · rw [Layered.calls, List.range_succ, List.map_append, ← ih.calls, ← ih.log]
      exact congrArg₂ (· ++ ·) (congrArg (Layered.calls n) state) (congrArg (fun c => [c]) calls)

/-- A run that is written down, beside the run itself. -/
theorem tapped_eq {s : Workshop W N V}
    (plain : ∀ {α : Type} (x : Action W α), s.builder.around x = x) (program : Program N V α)
    (w : W) (log : List (Exchange N)) :
    (program.on s.tapped (w, log)).outcome = (program.on s w).outcome ∧
      (program.on s.tapped (w, log)).state.1 = (program.on s w).state := by
  have start : Beside w (w, log) := rfl
  obtain ⟨same, state⟩ := program.on_matches (tapped_matches plain) _ _ start
  exact ⟨(Outcome.matches_eq_iff.1 same).symm, state.symm⟩

/-- What `n` layers of counters around a workshop do to a program: they leave its outcome, its
state and that of its builder alone. Every exchange is the same with and without them, and every
layer has counted the exchanges since it was set back. -/
structure Transparent (s : Workshop W N V) (program : Program N V α) (w : W) (n : Nat) : Prop where
  outcome : (program.on (s.layered n) (Layered.start w n)).outcome = (program.on s w).outcome
  state : Layered.base n (program.on (s.layered n) (Layered.start w n)).state =
    (program.on s w).state
  /-- The two runs were written down, and nothing else about them is different. -/
  log : ∃ log, (program.on s.tapped (w, [])).outcome = (program.on s w).outcome ∧
    (program.on s.tapped (w, [])).state = ((program.on s w).state, log) ∧
    (program.on (s.layered n).tapped (Layered.start w n, [])).outcome = (program.on s w).outcome ∧
    (program.on (s.layered n).tapped (Layered.start w n, [])).state =
      ((program.on (s.layered n) (Layered.start w n)).state, log) ∧
    Layered.calls n (program.on (s.layered n) (Layered.start w n)).state =
      (List.range n).map fun layer => .tally (Exchange.sinceReset layer log)

theorem layered_transparent {s : Workshop W N V}
    (plain : ∀ {α : Type} (x : Action W α), s.builder.around x = x) (program : Program N V α)
    (w : W) (n : Nat) : s.Transparent program w n := by
  obtain ⟨outcome, state⟩ := tapped_eq plain program w []
  obtain ⟨outcome', state'⟩ := tapped_eq (layered_plain plain n) program (Layered.start w n) []
  have agree := s.layered_agree program w n
  have same := outcome'.symm.trans (agree.outcome.trans outcome)
  refine ⟨same, ?_, (program.on s.tapped (w, [])).state.2, outcome, ?_, ?_, ?_, ?_⟩
  · rw [← state', ← state, agree.state]
  · rw [← state]
  · rw [outcome', same]
  · rw [← state', ← agree.log]
  · rw [← state', agree.calls]

end Workshop

/-- **A program cannot tell how many layers of counters there are, and all of them count exactly**,
whether it builds trees or nodes of an arena. A program that stops after a step ends as it makes of
the step's outcome, so no step of any program has another outcome behind layers. -/
theorem layers_transparent (V α : Type) (n : Nat) :
    (∀ (program : Program Tree V α) (v : V), (Workshop.trees V).Transparent program v n) ∧
      ∀ (program : Program Handle V α) (w : Arena × V),
        (Workshop.arena V).Transparent program w n :=
  ⟨fun program v => Workshop.layered_transparent (fun _ => rfl) program v n,
    fun program w => Workshop.layered_transparent (fun _ => rfl) program w n⟩

/-- Gives up in a session, sets the inner one of two layers back, and tries to finish a leaf as
something else. -/
def givingUp : Program Tree Unit Unit :=
  .session (.calls (.make "leaf" ∅) fun _ => .ends .crashed) fun (_ : Outcome Unit) =>
    .resets 0 (.calls (.finish "node" (Tree.make "leaf" ∅)) fun _ => .ends (.done ()))

example : Workshop.Layered.calls 2
    (givingUp.on ((Workshop.trees Unit).layered 2) (Workshop.Layered.start () 2)).state =
      [{ finish := 1 }, { make := 1, prepare := 1, close := 1, finish := 1 }] := rfl

end TreeProtocol
