import Mathlib.Data.List.Induction
import TreeProtocol.Proofs.Bundles

/-!
# What admission lets through

Each right node is judged by those before it. What can be said of all of them, once they were
admitted one after the other, does not speak of an order any more:

* `Value.eqv_comm` — equality of values is symmetric;
* `Relation.Admits` — what the relation attributes of the right nodes of a relation have to be,
  taken together;
* `Relation.acceptAll_eq_ok_iff` — they are admitted one after the other exactly if they are so.
-/

namespace TreeProtocol

/-! ## Equality of values -/

namespace Value

mutual

/-- **Equality of values is symmetric.** It is not reflexive, so it is no equivalence. -/
theorem eqv_comm : ∀ x y : Value, x.eqv y = y.eqv x
  | .number x, y => by
    cases y with
    | number y => rw [eqv, eqv, Binary64.eqv_comm]
    | _ => rfl
  | .list xs, y => by
    cases y with
    | list ys => rw [eqv, eqv, eqvItems_comm]
    | _ => rfl
  | .map es, y => by
    cases y with
    | map fs => rw [eqv, eqv, eqvEntries_comm]
    | _ => rfl
  | .nil, y => by cases y <;> rfl
  | .text s, y => by
    cases y with
    | text t => rw [eqv, eqv, Bool.beq_comm]
    | _ => rfl
  | .bool a, y => by
    cases y with
    | bool b => rw [eqv, eqv, Bool.beq_comm]
    | _ => rfl
  | .bounds s, y => by
    cases y with
    | bounds t => rw [eqv, eqv, Bool.beq_comm]
    | _ => rfl

theorem eqvItems_comm : ∀ xs ys : List Value, eqvItems xs ys = eqvItems ys xs
  | [], [] => rfl
  | [], _ :: _ => rfl
  | _ :: _, [] => rfl
  | x :: xs, y :: ys => by rw [eqvItems, eqvItems, eqv_comm x y, eqvItems_comm xs ys]

theorem eqvEntries_comm : ∀ es fs : List (String × Value), eqvEntries es fs = eqvEntries fs es
  | [], [] => rfl
  | [], _ :: _ => rfl
  | _ :: _, [] => rfl
  | (k, x) :: es, (l, y) :: fs => by
    rw [eqvEntries, eqvEntries, eqv_comm x y, eqvEntries_comm es fs, Bool.beq_comm (a := k)]

end

end Value

/-- If both hold a value under the keyword, the first values are unequal. -/
def Attrs.Apart (key : String) (a b : Attrs) : Prop :=
  ∀ x y, a.get? key = some x → b.get? key = some y → x.eqv y = false

theorem Attrs.Apart.symm {key : String} {a b : Attrs} (h : Apart key a b) : Apart key b a := by
  intro y x hy hx
  rw [Value.eqv_comm]
  exact h x y hx hy

namespace Relation

variable {r : Relation} {existing : List Attrs} {args : Attrs}

/-! ## Admission -/

/-- The relation attributes that right nodes of the relation can have, taken together. -/
def Admits (r : Relation) (args : List Attrs) : Prop :=
  match r.cardinality with
  | .many => True
  | .one | .optional => args.length ≤ 1
  | .keyed key => (∀ a ∈ args, a.contains key = true) ∧ args.Pairwise (Attrs.Apart key)

theorem admits_keyed {key : String} (hr : r.cardinality = .keyed key) {args : List Attrs} :
    r.Admits args ↔
      (∀ a ∈ args, a.contains key = true) ∧ args.Pairwise (Attrs.Apart key) := by
  rw [Admits, hr]

theorem keyTaken_eq_false {key : String} {value : Value} (h : args.get? key = some value) :
    keyTaken key value existing = false ↔ ∀ other ∈ existing, Attrs.Apart key other args := by
  rw [keyTaken, List.any_eq_false]
  refine forall₂_congr fun other _ => ?_
  constructor
  · intro hother x y hx hy
    rw [hx] at hother
    rw [← Option.some.inj (h.symm.trans hy)]
    simpa using hother
  · intro hapart
    cases hx : other.get? key with
    | none => simp
    | some x => simp [hapart x value hx h]

theorem accept_keyed {key : String} (hr : r.cardinality = .keyed key) :
    r.accept existing args = .ok () ↔
      args.contains key = true ∧ ∀ other ∈ existing, Attrs.Apart key other args := by
  rw [accept, hr, Attrs.contains]
  dsimp only
  cases hget : args.get? key with
  | none => simp
  | some value =>
    rw [← keyTaken_eq_false hget]
    dsimp only [Option.isSome_some]
    cases keyTaken key value existing <;> simp

/-- **One more right node** behind those that are there. -/
theorem admits_append (xs : List Attrs) :
    r.Admits (xs ++ [args]) ↔ r.Admits xs ∧ r.accept xs args = .ok () := by
  cases hr : r.cardinality with
  | many => simp [Admits, accept, hr]
  | keyed key =>
    rw [admits_keyed hr, admits_keyed hr, accept_keyed hr]
    rw [List.pairwise_append, List.forall_mem_append, List.forall_mem_singleton]
    simp only [List.mem_singleton, forall_eq, List.pairwise_singleton, true_and]
    constructor
    · rintro ⟨⟨keys, key⟩, apart, new⟩
      exact ⟨⟨keys, apart⟩, key, new⟩
    · rintro ⟨⟨keys, apart⟩, key, new⟩
      exact ⟨⟨keys, key⟩, apart, new⟩
  | one => cases xs <;> simp [Admits, accept, hr]
  | optional => cases xs <;> simp [Admits, accept, hr]

/-- **What is admitted one after the other** is what is admitted taken together. -/
theorem acceptAll_eq_ok_iff (r : Relation) (args : List Attrs) :
    r.acceptAll [] args = .ok () ↔ r.Admits args := by
  induction args using List.reverseRecOn with
  | nil =>
    refine iff_of_true rfl ?_
    rw [Admits]
    cases r.cardinality <;> simp
  | append_singleton xs x ih => rw [acceptAll_append, admits_append, ih, List.nil_append]

end Relation

end TreeProtocol
