import TreeProtocol.Proofs.Arena.Outcomes
import TreeProtocol.Proofs.Schema.Checks

/-!
# Where violations of a schema are reported

A call is refused on behalf of the schema if one of the checks against it fails. The check stands
for a node: the one that is to be made, the left node, or the one that is to be finished. Its input
range tells a reader of the error where to look.

* `Fault.isViolation` — what the checks complain of, and nothing else does;
* `Schema.checkMake_located`, `Schema.checkRelation_unlocated`, `Schema.checkFinish_located` — which
  of the checks report the input range;
* `Violates` — a check refuses a call because of a node;
* `violations_located` — the refusals for a violation are just these, and they carry the input range
  of the node, unless a relation is refused: then they carry none;
* `undeclared_unlocated` — such a relation, from a node that has an input range.
-/

namespace TreeProtocol

/-- Whether the fault is a violation of a schema. -/
def Fault.isViolation : Fault → Bool
  | .unregisteredKind .. | .malformedBounds .. | .missingAttr .. | .unacceptedAttr ..
  | .undeclaredRelation .. | .otherwiseDeclared .. | .unfilledRelation .. => true
  | _ => false

/-- Whether the call attaches a right node. -/
def Call.relates {N : Type} : Call N → Bool
  | .relate .. => true
  | _ => false

/-! ## The checks -/

namespace Schema

variable {s : Schema} {kind : Kind} {attrs : Attrs} {relation : Relation} {count : String → Nat}
  {e : BuildError}

/-- A bad value under the bounds keyword is reported without an input range, but ordered attributes
with such a value have none. -/
theorem checkMake_located (h : s.checkMake kind attrs = .error e) :
    e.fault.isViolation = true ∧ (attrs.Ordered → e.span = attrs.bounds?) := by
  have ends := checkMake_ends s kind attrs
  rw [h] at ends
  cases ends with
  | unregistered => exact ⟨rfl, fun _ => rfl⟩
  | malformed known bad =>
    refine ⟨rfl, fun ordered => ?_⟩
    rcases ordered with without | ⟨span, bounds, ordered⟩
    · exact without.symm
    · rw [badBounds?_of_ordered bounds ordered] at bad
      cases bad
  | missing => exact ⟨rfl, fun _ => rfl⟩
  | unaccepted => exact ⟨rfl, fun _ => rfl⟩

theorem checkRelation_unlocated (h : s.checkRelation kind relation = .error e) :
    e.fault.isViolation = true ∧ e.span = none := by
  have ends := checkRelation_ends s kind relation
  rw [h] at ends
  cases ends with
  | unregistered => exact ⟨rfl, rfl⟩
  | undeclared => exact ⟨rfl, rfl⟩
  | otherwise => exact ⟨rfl, rfl⟩

theorem checkFinish_located (h : s.checkFinish kind attrs count = .error e) :
    e.fault.isViolation = true ∧ e.span = attrs.bounds? := by
  have ends := checkFinish_ends s kind attrs count
  rw [h] at ends
  cases ends with
  | unregistered => exact ⟨rfl, rfl⟩
  | unfilled => exact ⟨rfl, rfl⟩

end Schema

/-! ## Other faults -/

theorem error_of_map {α β : Type} {f : α → β} {x : Except BuildError α} {e : BuildError}
    (h : x.map f = .error e) : x = .error e := by
  cases x with
  | error e' => exact congrArg Except.error (Except.error.inj h)
  | ok a => cases h

/-- Whether a right node may join others has nothing to do with a schema. -/
theorem Relation.accept_noViolation {r : Relation} {existing : List Attrs} {args : Attrs}
    {e : BuildError} (h : r.accept existing args = .error e) : e.fault.isViolation = false := by
  have single : ∀ {e : BuildError},
      (if existing.isEmpty then Except.ok ()
        else .error (.located (.alreadyFilled r) args.bounds?)) = .error e →
      e.fault.isViolation = false := by
    intro e h
    split at h
    · cases h
    · cases h
      rfl
  rw [accept] at h
  cases hr : r.cardinality with
  | many =>
    rw [hr] at h
    cases h
  | one =>
    rw [hr] at h
    exact single h
  | optional =>
    rw [hr] at h
    exact single h
  | keyed key =>
    rw [hr] at h
    dsimp only at h
    split at h
    · cases h
      rfl
    · split at h
      · cases h
        rfl
      · cases h

namespace Bundle

variable {N : Type} {relation : Relation} {right : N} {args : Attrs} {span : Option Span}
  {e : BuildError}

theorem start_noViolation (h : start relation right args = .error e) :
    e.fault.isViolation = false := by
  rw [start] at h
  cases haccept : relation.accept [] args with
  | error e' =>
    rw [haccept] at h
    cases h
    exact Relation.accept_noViolation haccept
  | ok u =>
    rw [haccept] at h
    cases h

theorem extend_noViolation {b : Bundle N} (h : b.extend relation right args span = .error e) :
    e.fault.isViolation = false := by
  rw [extend] at h
  split at h
  · cases haccept : relation.accept (b.rights.map (·.2)) args with
    | error e' =>
      rw [haccept] at h
      cases h
      exact Relation.accept_noViolation haccept
    | ok u =>
      rw [haccept] at h
      cases h
  · cases h
    rfl

/-- Nor has attaching: that a relation was established otherwise is no matter of its declaration. -/
theorem attach_noViolation {bundles : List (Bundle N)}
    (h : attach relation right args span bundles = .error e) : e.fault.isViolation = false := by
  induction bundles with
  | nil =>
    rw [attach] at h
    exact start_noViolation (error_of_map h)
  | cons b more ih =>
    rw [attach] at h
    split at h
    · exact extend_noViolation (error_of_map h)
    · exact ih (error_of_map h)

end Bundle

namespace Arena

variable {a : Arena} {s : Schema} {kind : Kind} {attrs args : Attrs} {relation : Relation}
  {left right node : Handle} {slot : Slot} {e : BuildError}

/-! ## Refusals for a violation -/

/-- A check against the schema fails for a node with the attributes. The left node of a relation is
only checked if both nodes are there and it is unfinished, and a node that is to be finished only
if it is there, is of the kind, and is unfinished. -/
inductive Violates (s : Schema) (a : Arena) : Call Handle → Attrs → BuildError → Prop
  | make {kind : Kind} {attrs : Attrs} {e : BuildError}
      (check : s.checkMake kind attrs = .error e) : Violates s a (.make kind attrs) attrs e
  | relate {relation : Relation} {left right : Handle} {args : Attrs} {slot : Slot}
      {e : BuildError} (there : right.index < a.size) (hslot : a.slot? left = some slot)
      (unfinished : slot.finished = false)
      (check : s.checkRelation slot.kind relation = .error e) :
      Violates s a (.relate relation left right args) slot.attrs e
  | finish {node : Handle} {slot : Slot} {e : BuildError} (hslot : a.slot? node = some slot)
      (unfinished : slot.finished = false)
      (check : s.checkFinish slot.kind slot.attrs (Bundle.count slot.bundles) = .error e) :
      Violates s a (.finish slot.kind node) slot.attrs e

theorem slotOf_noViolation (h : a.slotOf node = .error e) : e.fault.isViolation = false := by
  rw [slotOf] at h
  split at h
  · cases h
  · cases h
    rfl

/-- Making fails for violations only. -/
theorem make_failed_iff (schema : a.schema = some s) :
    (make kind attrs a).outcome = .failed e ↔ s.checkMake kind attrs = .error e := by
  rw [make, checked_of_schema schema]
  cases s.checkMake kind attrs with
  | error e' => exact ⟨fun h => by cases h; rfl, fun h => by cases h; rfl⟩
  | ok u => exact ⟨fun h => (by cases h), fun h => (by cases h)⟩

/-- A right node is kept away by the state of the left node, by the schema, or by the right nodes
that are there. -/
theorem relatedSlot_violation (schema : a.schema = some s)
    (h : a.relatedSlot relation left slot right args = .error e)
    (violation : e.fault.isViolation = true) :
    slot.finished = false ∧ s.checkRelation slot.kind relation = .error e := by
  rw [relatedSlot] at h
  split at h
  · cases h
    cases violation
  · rename_i unfinished
    rw [checked_of_schema schema] at h
    refine ⟨by simpa using unfinished, ?_⟩
    cases hcheck : s.checkRelation slot.kind relation with
    | error e' =>
      rw [hcheck] at h
      cases h
      rfl
    | ok u =>
      rw [hcheck] at h
      dsimp only at h
      cases hattach : Bundle.attach relation right args slot.attrs.bounds? slot.bundles with
      | error e' =>
        rw [hattach] at h
        cases h
        rw [Bundle.attach_noViolation hattach] at violation
        cases violation
      | ok bundles =>
        rw [hattach] at h
        cases h

/-- A relation that fails for a violation fails since the left node may not have it. -/
theorem relate_violation_iff (schema : a.schema = some s) :
    (relate relation left right args a).outcome = .failed e ∧ e.fault.isViolation = true ↔
      right.index < a.size ∧ ∃ slot, a.slot? left = some slot ∧ slot.finished = false ∧
        s.checkRelation slot.kind relation = .error e := by
  constructor
  · rintro ⟨failed, violation⟩
    rw [relate] at failed
    cases hright : a.slotOf right with
    | error e' =>
      rw [hright] at failed
      cases failed
      rw [slotOf_noViolation hright] at violation
      cases violation
    | ok rightSlot =>
      rw [hright] at failed
      dsimp only at failed
      cases hleft : a.slotOf left with
      | error e' =>
        rw [hleft] at failed
        cases failed
        rw [slotOf_noViolation hleft] at violation
        cases violation
      | ok slot =>
        rw [hleft] at failed
        dsimp only at failed
        cases hrelated : a.relatedSlot relation left slot right args with
        | error e' =>
          rw [hrelated] at failed
          cases failed
          exact ⟨slot?_lt (slotOf_eq_ok hright), slot, slotOf_eq_ok hleft,
            relatedSlot_violation schema hrelated violation⟩
        | ok next =>
          rw [hrelated] at failed
          cases failed
  · rintro ⟨there, slot, hslot, unfinished, check⟩
    have hopen : ¬ slot.finished = true := by simp [unfinished]
    rw [relate_open there hslot unfinished, relatedSlot, if_neg hopen, checked_of_schema schema, check]
    exact ⟨rfl, (Schema.checkRelation_unlocated check).1⟩

/-- A node that is not finished for a violation is of the kind and unfinished. -/
theorem finish_violation_iff (schema : a.schema = some s) :
    (finish kind node a).outcome = .failed e ∧ e.fault.isViolation = true ↔
      ∃ slot, a.slot? node = some slot ∧ slot.kind = kind ∧ slot.finished = false ∧
        s.checkFinish slot.kind slot.attrs (Bundle.count slot.bundles) = .error e := by
  constructor
  · rintro ⟨failed, violation⟩
    rw [finish] at failed
    cases hnode : a.slotOf node with
    | error e' =>
      rw [hnode] at failed
      cases failed
      rw [slotOf_noViolation hnode] at violation
      cases violation
    | ok slot =>
      rw [hnode] at failed
      dsimp only at failed
      refine ⟨slot, slotOf_eq_ok hnode, ?_⟩
      rw [checkFinish] at failed
      by_cases own : slot.kind = kind
      · rw [if_neg (not_not_intro own)] at failed
        by_cases finished : slot.finished = true
        · rw [if_pos finished] at failed
          cases failed
          cases violation
        · rw [if_neg finished, checked_of_schema schema] at failed
          refine ⟨own, by simpa using finished, ?_⟩
          cases hcheck : s.checkFinish slot.kind slot.attrs (Bundle.count slot.bundles) with
          | error e' =>
            rw [hcheck] at failed
            cases failed
            rfl
          | ok u =>
            rw [hcheck] at failed
            cases failed
      · rw [if_pos own] at failed
        cases failed
        cases violation
  · rintro ⟨slot, hslot, own, unfinished, check⟩
    have hopen : ¬ slot.finished = true := by simp [unfinished]
    rw [finish, slotOf_of_there hslot]
    dsimp only
    rw [checkFinish, if_neg (not_not_intro own), if_neg hopen, checked_of_schema schema, check]
    exact ⟨rfl, (Schema.checkFinish_located check).1⟩

/-- Nothing is wrong with any node if a session cannot be closed. -/
theorem close_noViolation {ending : SessionEnd} (h : (close ending a).outcome = .failed e) :
    e.fault.isViolation = false := by
  rw [close] at h
  split at h
  · cases h
    rfl
  · dsimp only at h
    split at h
    · cases h
    · cases ending with
      | completed =>
        cases h
        rfl
      | aborted => cases h

end Arena

theorem Outcome.map_eq_failed_iff {α β : Type} {f : α → β} {o : Outcome α} {e : BuildError} :
    o.map f = .failed e ↔ o = .failed e := by
  cases o with
  | done r => exact ⟨fun h => (by cases h), fun h => (by cases h)⟩
  | failed e' => exact ⟨fun h => by cases h; rfl, fun h => by cases h; rfl⟩
  | crashed => exact ⟨fun h => (by cases h), fun h => (by cases h)⟩

namespace Arena

variable {a : Arena} {s : Schema}

/-- **Which calls are refused for a violation.** -/
theorem violation_iff (schema : a.schema = some s) (c : Call Handle) (e : BuildError) :
    (c.on (builder Lens.whole) a).outcome = .failed e ∧ e.fault.isViolation = true ↔
      ∃ attrs, Violates s a c attrs e := by
  cases c with
  | make kind attrs =>
    rw [Call.on, Action.map_outcome, Outcome.map_eq_failed_iff]
    have failed : (make kind attrs a).outcome = .failed e ↔ s.checkMake kind attrs = .error e :=
      make_failed_iff schema
    constructor
    · rintro ⟨hfail, -⟩
      exact ⟨attrs, .make (failed.1 hfail)⟩
    · rintro ⟨_, ⟨check⟩⟩
      exact ⟨failed.2 check, (Schema.checkMake_located check).1⟩
  | relate relation left right args =>
    rw [Call.on, Action.map_outcome, Outcome.map_eq_failed_iff]
    refine (relate_violation_iff schema).trans ?_
    constructor
    · rintro ⟨there, slot, hslot, unfinished, check⟩
      exact ⟨slot.attrs, .relate there hslot unfinished check⟩
    · rintro ⟨_, violates⟩
      cases violates with
      | relate there hslot unfinished check => exact ⟨there, _, hslot, unfinished, check⟩
  | finish kind node =>
    rw [Call.on, Action.map_outcome, Outcome.map_eq_failed_iff]
    refine (finish_violation_iff schema).trans ?_
    constructor
    · rintro ⟨slot, hslot, rfl, unfinished, check⟩
      exact ⟨slot.attrs, .finish hslot unfinished check⟩
    · rintro ⟨_, violates⟩
      cases violates with
      | finish hslot unfinished check => exact ⟨_, hslot, rfl, unfinished, check⟩
  | prepare =>
    refine iff_of_false ?_ ?_
    · rintro ⟨failed, -⟩
      cases failed
    · rintro ⟨_, violates⟩
      cases violates
  | close ending =>
    rw [Call.on, Action.map_outcome, Outcome.map_eq_failed_iff]
    refine iff_of_false ?_ ?_
    · rintro ⟨failed, violation⟩
      have none : e.fault.isViolation = false := close_noViolation failed
      rw [none] at violation
      cases violation
    · rintro ⟨_, violates⟩
      cases violates

/-- **Where violations are reported.** With a schema, a call fails for a violation exactly if the
check for it fails because of a node. If the input range of that node is ordered, or there is none,
the error carries it when the node was to be made or finished. When a relation was to be established
from it, the error never carries an input range. -/
theorem violations_located (schema : a.schema = some s) (c : Call Handle) (e : BuildError) :
    ((c.on (builder Lens.whole) a).outcome = .failed e ∧ e.fault.isViolation = true ↔
      ∃ attrs, Violates s a c attrs e) ∧
    ∀ attrs, Violates s a c attrs e → attrs.Ordered →
      e.span = if c.relates then none else attrs.bounds? := by
  refine ⟨violation_iff schema c e, fun attrs violates ordered => ?_⟩
  cases violates with
  | make check => exact (Schema.checkMake_located check).2 ordered
  | relate there hslot unfinished check => exact (Schema.checkRelation_unlocated check).2
  | finish hslot unfinished check => exact (Schema.checkFinish_located check).2

/-- An arena with the schema of chains, and in it an operator with an input range, which has no
`next` yet. -/
def locatedOperator : Arena :=
  (builder Lens.whole).after [.make "operator" ((∅ : Attrs).pushBounds ⟨3, 8⟩)]
    (withSchema chainSchema)

/-- The operator cannot be finished, and the error tells where it is. -/
theorem violations_located_operator :
    ∃ e, ((Call.finish "operator" ⟨0⟩).on (builder Lens.whole) locatedOperator).outcome =
      .failed e ∧ e.fault.isViolation = true ∧ e.span = some ⟨3, 8⟩ := by
  obtain ⟨refused, located⟩ := violations_located (a := locatedOperator) (s := chainSchema) rfl
    (.finish "operator" ⟨0⟩) (.located (.unfilledRelation "operator" "next") (some ⟨3, 8⟩))
  have ordered : Attrs.Ordered ((∅ : Attrs).pushBounds ⟨3, 8⟩) :=
    .inr ⟨⟨3, 8⟩, rfl, by decide⟩
  have there : locatedOperator.slot? ⟨0⟩ =
      some { kind := "operator", attrs := (∅ : Attrs).pushBounds ⟨3, 8⟩ } := rfl
  have violates : Violates chainSchema locatedOperator (.finish "operator" ⟨0⟩)
      ((∅ : Attrs).pushBounds ⟨3, 8⟩)
      (.located (.unfilledRelation "operator" "next") (some ⟨3, 8⟩)) := .finish there rfl rfl
  obtain ⟨failed, violation⟩ := refused.2 ⟨_, violates⟩
  exact ⟨_, failed, violation, located _ violates ordered⟩

/-- **A relation that the kind does not declare** is refused without an input range, although the
left node has one. -/
theorem undeclared_unlocated :
    ∃ e, ((Call.relate ⟨"operand", .many⟩ ⟨0⟩ ⟨0⟩ ∅).on (builder Lens.whole)
        locatedOperator).outcome = .failed e ∧
      e.fault.isViolation = true ∧ e.cls = .unknownRelation ∧
      locatedOperator.view.attrs ⟨0⟩ = .ok ((∅ : Attrs).pushBounds ⟨3, 8⟩) ∧
      ((∅ : Attrs).pushBounds ⟨3, 8⟩).bounds? = some ⟨3, 8⟩ ∧ (3 : UInt64) ≤ 8 ∧ e.span = none :=
  ⟨_, rfl, rfl, rfl, rfl, rfl, by decide, rfl⟩

end Arena

end TreeProtocol
