import TreeProtocol.Proofs.Arena.Holding

/-!
# Programs that follow the lifecycle of nodes

A program of construction calls keeps its nodes in variables. It follows the lifecycle if it relates
and finishes only what is not finished yet, and attaches only what is finished. Any number of trees
may be under construction at a time. A call may fail; then the variables stay as they are and the
program goes on.

* `Linked` — the variables of a run on trees and of one on an arena hold the same trees, and no two
  variables hold one unfinished node;
* `Linked.next` — every instruction that the lifecycle allows ends alike on both and keeps this;
* `lifecycle_agree` — so both runs agree at every step, by induction on the program.
-/

namespace TreeProtocol

variable {W V N : Type}

/-! ## Programs -/

/-- What a variable holds. -/
structure Bound (N : Type) where
  node : N
  finished : Bool

/-- What the variables hold. -/
abbrev Names (N : Type) := String → Option (Bound N)

/-- One call, with variables for nodes. -/
inductive Instruction where
  /-- Makes a node and binds the variable to it. -/
  | make (x : String) (kind : Kind) (attrs : Attrs)
  /-- Attaches the node of `y` to that of `x`, and binds `x` to what is returned. -/
  | relate (x : String) (relation : Relation) (y : String) (args : Attrs)
  /-- Finishes the node of `x`, and binds `z` to what is returned. -/
  | finish (x : String) (kind : Kind) (z : String)

namespace Instruction

/-- Makes the call on a builder; the result is what the variables hold then. -/
def perform (b : Builder W N) (names : Names N) : Instruction → Action W (Names N)
  | .make x kind attrs =>
    (fun node => Function.update names x (some ⟨node, false⟩)) <$> b.make kind attrs
  | .relate x relation y args =>
    match names x, names y with
    | some left, some right =>
      (fun node => Function.update names x (some ⟨node, false⟩)) <$>
        b.relate relation left.node right.node args
    | _, _ => Action.crash
  | .finish x kind z =>
    match names x with
    | some left =>
      (fun node => Function.update (Function.update names x (some ⟨left.node, true⟩)) z
        (some ⟨node, true⟩)) <$> b.finish kind left.node
    | none => Action.crash

theorem perform_relate {b : Builder W N} {names : Names N} {x y : String} {left right : Bound N}
    (hx : names x = some left) (hy : names y = some right) (relation : Relation) (args : Attrs) :
    perform b names (.relate x relation y args) =
      (fun node => Function.update names x (some ⟨node, false⟩)) <$>
        b.relate relation left.node right.node args := by
  simp only [perform, hx, hy]

theorem perform_finish {b : Builder W N} {names : Names N} {x : String} {left : Bound N}
    (hx : names x = some left) (kind : Kind) (z : String) :
    perform b names (.finish x kind z) =
      (fun node => Function.update (Function.update names x (some ⟨left.node, true⟩)) z
        (some ⟨node, true⟩)) <$> b.finish kind left.node := by
  simp only [perform, hx]

/-- Whether the lifecycle allows the call. -/
def allowed (names : Names N) : Instruction → Bool
  | .make .. => true
  | .relate x _ y _ => (names x).any (!·.finished) && (names y).any (·.finished)
  | .finish x _ _ => (names x).any (!·.finished)

theorem exists_unfinished {b : Option (Bound N)} (h : b.any (!·.finished) = true) :
    ∃ node, b = some ⟨node, false⟩ := by
  obtain ⟨⟨node, finished⟩, rfl, hopen⟩ := (Option.any_eq_true _ _).1 h
  exact ⟨node, by simpa using hopen⟩

theorem exists_finished {b : Option (Bound N)} (h : b.any (·.finished) = true) :
    ∃ node, b = some ⟨node, true⟩ := by
  obtain ⟨⟨node, finished⟩, rfl, hdone⟩ := (Option.any_eq_true _ _).1 h
  exact ⟨node, by simpa using hdone⟩

end Instruction

/-- A program between two instructions: how the last one ended, and what there is now. -/
structure Moment (W N : Type) where
  outcome : Outcome Unit
  state : W
  names : Names N

namespace Moment

/-- The moment in which a program starts. -/
def start (w : W) : Moment W N := ⟨.done (), w, fun _ => none⟩

/-- The moment after a call; if it failed, the variables hold what they held before. -/
def after (m : Moment W N) (run : Ran W (Names N)) : Moment W N :=
  match run.outcome with
  | .done names => ⟨.done (), run.state, names⟩
  | .failed e => ⟨.failed e, run.state, m.names⟩
  | .crashed => ⟨.crashed, run.state, m.names⟩

/-- The moment after an instruction. -/
def next (b : Builder W N) (m : Moment W N) (i : Instruction) : Moment W N :=
  m.after (i.perform b m.names m.state)

/-- The moments after every instruction of a program. -/
def trace (b : Builder W N) (m : Moment W N) : List Instruction → List (Moment W N)
  | [] => []
  | i :: more => m.next b i :: (m.next b i).trace b more

/-- Whether a program follows the lifecycle when it is run from here. -/
def follows (b : Builder W N) (m : Moment W N) : List Instruction → Bool
  | [] => true
  | i :: more => i.allowed m.names && (m.next b i).follows b more

end Moment

/-- Two calls both have a result or both fail with errors of one class. -/
inductive SameEnd {α β : Type} : Outcome α → Outcome β → Prop
  | done (a : α) (b : β) : SameEnd (.done a) (.done b)
  | failed {e e' : BuildError} (cls : e.cls = e'.cls) : SameEnd (.failed e) (.failed e')

/-! ## Linked variables -/

/-- A value and a node that hold one tree, and are both finished or both not. -/
def Held (a : Arena) (t : Bound Tree) (h : Bound Handle) : Prop :=
  t.finished = h.finished ∧ a.Holds t.finished h.node t.node

/-- The variables hold the same trees, as values and as nodes of the arena. -/
structure Linked (a : Arena) (trees : Names Tree) (handles : Names Handle) : Prop where
  held : ∀ x, Option.Rel (Held a) (trees x) (handles x)
  /-- A node that is not finished belongs to one variable. -/
  apart : ∀ x y h k, x ≠ y → handles x = some h → handles y = some k → h.finished = false →
    h.node ≠ k.node

theorem held_frame {a b : Arena} {t : Option (Bound Tree)} {h : Option (Bound Handle)}
    (held : Option.Rel (Held a) t h) (kept : Arena.KeepsFinished a b)
    (here : ∀ k, h = some k → b.slot? k.node = a.slot? k.node) : Option.Rel (Held b) t h := by
  cases held with
  | none => exact .none
  | some held => exact .some ⟨held.1, held.2.frame kept (here _ rfl)⟩

namespace Linked

variable {a b : Arena} {trees : Names Tree} {handles : Names Handle} {x : String} {h : Handle}
  {t : Tree} {finished : Bool}

theorem start (a : Arena) : Linked a (fun _ => none) (fun _ => none) where
  held := fun _ => .none
  apart := fun _ _ _ _ _ hx => nomatch hx

/-- What a variable holds as a value, it holds as a node. -/
theorem node (hl : Linked a trees handles) (ht : trees x = some ⟨t, finished⟩) :
    ∃ h, handles x = some ⟨h, finished⟩ ∧ a.Holds finished h t := by
  have held := hl.held x
  rw [ht] at held
  cases hh : handles x with
  | none =>
    rw [hh] at held
    cases held
  | some k =>
    rw [hh, Option.rel_some_some] at held
    obtain ⟨h, flag⟩ := k
    obtain ⟨rfl, holds⟩ := held
    exact ⟨h, rfl, holds⟩

theorem holds (hl : Linked a trees handles) {k : Bound Handle} (hk : handles x = some k) :
    ∃ t, a.Holds k.finished k.node t := by
  have held := hl.held x
  rw [hk] at held
  cases ht : trees x with
  | none =>
    rw [ht] at held
    cases held
  | some t =>
    rw [ht, Option.rel_some_some] at held
    exact ⟨t.node, held.1 ▸ held.2⟩

theorem same (hl : Linked a trees handles) (slots : b.slots = a.slots) :
    Linked b trees handles := by
  have same := Arena.slot?_of_slots slots
  refine ⟨fun y => held_frame (hl.held y) ?_ fun k _ => same k.node, hl.apart⟩
  intro g slot there _
  rw [same, there]

/-- Binding `x` to one more pair, if the other variables stay linked and hold other nodes. -/
theorem bind (hl : Linked a trees handles)
    (kept : ∀ y, y ≠ x → Option.Rel (Held b) (trees y) (handles y)) (holds : b.Holds finished h t)
    (elsewhere : ∀ y k, y ≠ x → handles y = some k → finished = false ∨ k.finished = false →
      k.node ≠ h) :
    Linked b (Function.update trees x (some ⟨t, finished⟩))
      (Function.update handles x (some ⟨h, finished⟩)) := by
  constructor
  · intro y
    by_cases hy : y = x
    · rw [hy, Function.update_self, Function.update_self]
      exact .some ⟨rfl, holds⟩
    · rw [Function.update_of_ne hy, Function.update_of_ne hy]
      exact kept y hy
  · intro y z k l hne hk hz hopen
    by_cases hy : y = x
    · have hzx : z ≠ x := fun heq => hne (hy.trans heq.symm)
      rw [hy, Function.update_self] at hk
      rw [Function.update_of_ne hzx] at hz
      obtain rfl := Option.some.inj hk
      exact (elsewhere z l hzx hz (.inl hopen)).symm
    · rw [Function.update_of_ne hy] at hk
      by_cases hzx : z = x
      · rw [hzx, Function.update_self] at hz
        rw [← Option.some.inj hz]
        exact elsewhere y k hy hk (.inr hopen)
      · rw [Function.update_of_ne hzx] at hz
        exact hl.apart y z k l hne hk hz hopen

/-- One slot changes, and no variable but `x` holds its node. -/
theorem changed (hl : Linked a trees handles)
    (elsewhere : ∀ y k, y ≠ x → handles y = some k → k.node ≠ h)
    (unfinished : ∀ slot, a.slot? h = some slot → slot.finished = false)
    (others : Arena.SameBut h a b) (holds : b.Holds finished h t) :
    Linked b (Function.update trees x (some ⟨t, finished⟩))
      (Function.update handles x (some ⟨h, finished⟩)) := by
  refine hl.bind (fun y hy => ?_) holds fun y k hy hk _ => elsewhere y k hy hk
  refine held_frame (hl.held y) (others.keepsFinished unfinished) fun k hk => ?_
  exact others k.node (elsewhere y k hy hk)

/-- A finished node may be held by more variables. -/
theorem shared (hl : Linked a trees handles) (holds : a.Holds true h t) (z : String) :
    Linked a (Function.update trees z (some ⟨t, true⟩))
      (Function.update handles z (some ⟨h, true⟩)) := by
  refine hl.bind (fun y _ => hl.held y) holds fun y k _ hk hopen => ?_
  obtain ⟨u, hu⟩ := hl.holds hk
  obtain ⟨slot, there, flag⟩ := hu.there
  refine (holds.ne_of_open there (flag.trans ?_)).symm
  simpa using hopen

/-! ## One instruction -/

variable {place : Lens W Arena} {m : Moment V Tree} {n : Moment W Handle}

/-- A call that mirrors the same call on trees, if the arena has no schema. -/
theorem after {expected : Except BuildError Tree} {x : Action Arena Handle}
    (hl : Linked (place.get n.state) m.names n.names) (hschema : (place.get n.state).schema = none)
    (step : Arena.BuildStep (place.get n.state) (x (place.get n.state)).state)
    (mirrors : (place.get n.state).Mirrors h finished expected (x (place.get n.state)))
    {bindTree : Tree → Names Tree} {bindHandle : Handle → Names Handle}
    (accept : ∀ t, expected = .ok t → (x (place.get n.state)).state.Holds finished h t →
      Arena.SameBut h (place.get n.state) (x (place.get n.state)).state →
      Linked (x (place.get n.state)).state (bindTree t) (bindHandle h)) :
    SameEnd (m.after ((bindTree <$> Action.ofExcept expected) m.state)).outcome
        (n.after ((bindHandle <$> x.zoom place) n.state)).outcome ∧
      (place.get (n.after ((bindHandle <$> x.zoom place) n.state)).state).schema = none ∧
      Linked (place.get (n.after ((bindHandle <$> x.zoom place) n.state)).state)
        (m.after ((bindTree <$> Action.ofExcept expected) m.state)).names
        (n.after ((bindHandle <$> x.zoom place) n.state)).names := by
  cases mirrors with
  | forbidden schema => exact absurd hschema schema
  | @refused e e' refusal outcome cls slots =>
    have hn : n.after ((bindHandle <$> x.zoom place) n.state) =
        ⟨.failed e', place.set (x (place.get n.state)).state n.state, n.names⟩ := by
      simp [Moment.after, outcome, Outcome.map]
    rw [hn, refusal]
    refine ⟨.failed cls.symm, ?_⟩
    show (place.get (place.set _ _)).schema = none ∧
      Linked (place.get (place.set _ _)) m.names n.names
    rw [place.get_set]
    exact ⟨step.schema.trans hschema, hl.same slots⟩
  | @accepted t result outcome holds others =>
    have hn : n.after ((bindHandle <$> x.zoom place) n.state) =
        ⟨.done (), place.set (x (place.get n.state)).state n.state, bindHandle h⟩ := by
      simp [Moment.after, outcome, Outcome.map]
    rw [hn, result]
    refine ⟨.done () (), ?_⟩
    show (place.get (place.set _ _)).schema = none ∧
      Linked (place.get (place.set _ _)) (bindTree t) (bindHandle h)
    rw [place.get_set]
    exact ⟨step.schema.trans hschema, accept t result holds others⟩

theorem fresh (hl : Linked a trees handles) (x y : String) (k : Bound Handle) (_ : y ≠ x)
    (hk : handles y = some k) : k.node ≠ ⟨a.size⟩ := by
  obtain ⟨t, ht⟩ := hl.holds hk
  intro heq
  have := ht.lt
  rw [heq] at this
  exact Nat.lt_irrefl _ this

theorem alone (hl : Linked a trees handles) (hx : handles x = some ⟨h, false⟩) (y : String)
    (k : Bound Handle) (hne : y ≠ x) (hk : handles y = some k) : k.node ≠ h :=
  (hl.apart x y _ k hne.symm hx hk rfl).symm

theorem open_of_holds (holds : a.Holds false h t) {slot : Slot} (there : a.slot? h = some slot) :
    slot.finished = false := by
  obtain ⟨slot', there', flag⟩ := holds.there
  rw [← Option.some.inj (there'.symm.trans there)]
  exact flag

/-- **An allowed instruction ends alike on trees and on an arena**, and keeps the variables
linked. -/
theorem next (hl : Linked (place.get n.state) m.names n.names)
    (hschema : (place.get n.state).schema = none) {i : Instruction}
    (allowed : i.allowed m.names = true) :
    SameEnd (m.next Tree.builder i).outcome (n.next (Arena.builder place) i).outcome ∧
      (place.get (n.next (Arena.builder place) i).state).schema = none ∧
      Linked (place.get (n.next (Arena.builder place) i).state) (m.next Tree.builder i).names
        (n.next (Arena.builder place) i).names := by
  cases i with
  | make x kind attrs =>
    refine hl.after hschema (Arena.make_step _ _ _) (Arena.make_mirrors _ kind attrs) ?_
    intro t result holds others
    refine hl.changed (hl.fresh x) ?_ others holds
    intro slot there
    exact absurd (Arena.slot?_lt there) (Nat.lt_irrefl _)
  | relate x relation y args =>
    rw [Instruction.allowed, Bool.and_eq_true] at allowed
    obtain ⟨t, ht⟩ := Instruction.exists_unfinished allowed.1
    obtain ⟨u, hu⟩ := Instruction.exists_finished allowed.2
    obtain ⟨h, hh, left⟩ := hl.node ht
    obtain ⟨k, hk, right⟩ := hl.node hu
    rw [Moment.next, Moment.next, Instruction.perform_relate ht hu,
      Instruction.perform_relate hh hk]
    refine hl.after hschema (Arena.relate_step _ _ _ _ _)
      (Arena.relate_mirrors left right relation args) ?_
    intro t' result holds others
    exact hl.changed (hl.alone hh) (fun slot => open_of_holds left) others holds
  | finish x kind z =>
    obtain ⟨t, ht⟩ := Instruction.exists_unfinished allowed
    obtain ⟨h, hh, left⟩ := hl.node ht
    rw [Moment.next, Moment.next, Instruction.perform_finish ht, Instruction.perform_finish hh]
    refine hl.after hschema (Arena.finish_step _ _ _) (Arena.finish_mirrors left kind) ?_
    intro t' result holds others
    obtain rfl : t' = t := (Tree.finish_eq_ok_iff.1 result).2
    exact (hl.changed (hl.alone hh) (fun slot => open_of_holds left) others holds).shared holds z

/-- What is linked unfolds to what it is linked to. -/
theorem unfolds (hl : Linked a trees handles) (x : String) :
    Option.Rel (fun t h => a.Unfolds h.node t.node) (trees x) (handles x) := by
  have held := hl.held x
  cases ht : trees x <;> cases hh : handles x <;> rw [ht, hh] at held
  · exact .none
  · cases held
  · cases held
  · exact .some (Option.rel_some_some.1 held).2.unfolds

end Linked

/-! ## Whole programs -/

/-- A run on trees and a run on an arena after the same instruction: it ended alike, and whatever a
variable holds as a value, it holds as a node that unfolds to the value. -/
structure Moment.Agree (place : Lens W Arena) (m : Moment V Tree) (n : Moment W Handle) : Prop where
  ends : SameEnd m.outcome n.outcome
  unfolds : ∀ x, Option.Rel (fun t h => (place.get n.state).Unfolds h.node t.node) (m.names x)
    (n.names x)

theorem Linked.trace {place : Lens W Arena} {m : Moment V Tree} {n : Moment W Handle}
    (hl : Linked (place.get n.state) m.names n.names)
    (hschema : (place.get n.state).schema = none) {program : List Instruction}
    (follows : m.follows Tree.builder program = true) :
    List.Forall₂ (Moment.Agree place) (m.trace Tree.builder program)
      (n.trace (Arena.builder place) program) := by
  induction program generalizing m n with
  | nil => exact .nil
  | cons i more ih =>
    rw [Moment.follows, Bool.and_eq_true] at follows
    obtain ⟨ends, hschema', hl'⟩ := hl.next hschema follows.1
    exact .cons ⟨ends, hl'.unfolds⟩ (ih hl' hschema' follows.2)

/-- **Trees and arenas agree along every program that follows the lifecycle**, after each of its
instructions, whatever there is in the arena before, if it has no schema. -/
theorem lifecycle_agree (place : Lens W Arena) (v : V) (w : W)
    (hschema : (place.get w).schema = none) (program : List Instruction)
    (follows : (Moment.start v).follows Tree.builder program = true) :
    List.Forall₂ (Moment.Agree place) ((Moment.start v).trace Tree.builder program)
      ((Moment.start w).trace (Arena.builder place) program) :=
  (Linked.start _).trace hschema follows

/-- Two pairs that are built in turns, the one of which becomes an item of the other. Four calls are
refused: for the number of right nodes, the cardinality, the missing key and the kind. -/
def twoPairs : List Instruction :=
  [.make "a" "literal" ∅, .finish "a" "literal" "leaf", .make "p" "pair" ∅, .make "q" "pair" ∅,
    .relate "p" ⟨"first", .one⟩ "leaf" ∅, .relate "q" ⟨"items", .many⟩ "a" ∅,
    .relate "p" ⟨"first", .one⟩ "leaf" ∅, .relate "q" ⟨"items", .optional⟩ "leaf" ∅,
    .relate "q" ⟨"fields", .keyed "name"⟩ "leaf" ∅, .finish "p" "literal" "p",
    .finish "p" "pair" "p", .relate "q" ⟨"items", .many⟩ "p" ∅, .finish "q" "pair" "root"]

theorem lifecycle_agree_twoPairs :
    (Lens.whole.get Arena.empty).schema = none ∧
      (Moment.start ()).follows Tree.builder twoPairs = true ∧
      List.Forall₂ (Moment.Agree Lens.whole) ((Moment.start ()).trace Tree.builder twoPairs)
        ((Moment.start Arena.empty).trace (Arena.builder Lens.whole) twoPairs) := by
  have follows : (Moment.start ()).follows Tree.builder twoPairs = true := by decide
  exact ⟨rfl, follows, lifecycle_agree Lens.whole () Arena.empty rfl twoPairs follows⟩

end TreeProtocol
