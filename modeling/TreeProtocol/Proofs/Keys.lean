import TreeProtocol.Construction.Composite
import TreeProtocol.Proofs.Admission
import TreeProtocol.Proofs.Arena.Outcomes
import TreeProtocol.Proofs.Arena.Permanence
import TreeProtocol.Proofs.Lookups
import TreeProtocol.Proofs.Trees

/-!
# When a key is refused twice

The right nodes of a keyed relation are told apart by equality of values. A value that holds a
not-a-number differs from itself, so it is no duplicate of itself, and this is the only exception:

* `Value.eqv_self` — a value equals itself exactly if it holds no not-a-number;
* `Relation.accept_again` — whether a value is accepted that is there already;
* `Bundle.HasKey` — the value is there; attaching further right nodes keeps it there;
* `duplicate_keys_refused` — the second right node with the value is refused exactly if the value
  holds no not-a-number, on trees, in arenas and in plans;
* `nan_key_accepted_twice` — a not-a-number can be attached twice under the same key.
-/

namespace TreeProtocol

/-! ## Values that equal themselves -/

namespace Value

mutual

/-- Whether a not-a-number occurs anywhere in the value. -/
def holdsNaN : Value → Bool
  | .number x => x.isNaN
  | .list items => itemsHoldNaN items
  | .map entries => entriesHoldNaN entries
  | .nil | .text _ | .bool _ | .bounds _ => false

/-- Whether one occurs in an item. -/
def itemsHoldNaN : List Value → Bool
  | [] => false
  | x :: xs => holdsNaN x || itemsHoldNaN xs

/-- Whether one occurs in the value of an entry. -/
def entriesHoldNaN : List (String × Value) → Bool
  | [] => false
  | (_, x) :: es => holdsNaN x || entriesHoldNaN es

end

mutual

/-- **A value equals itself** exactly if it holds no not-a-number. -/
theorem eqv_self : ∀ x : Value, x.eqv x = !x.holdsNaN
  | .number x => by rw [eqv, holdsNaN, Binary64.eqv_self]
  | .list xs => by rw [eqv, holdsNaN, eqvItems_self]
  | .map es => by rw [eqv, holdsNaN, eqvEntries_self]
  | .nil => rfl
  | .text s => by rw [eqv, holdsNaN, BEq.rfl, Bool.not_false]
  | .bool b => by rw [eqv, holdsNaN, BEq.rfl, Bool.not_false]
  | .bounds s => by rw [eqv, holdsNaN, BEq.rfl, Bool.not_false]

theorem eqvItems_self : ∀ xs : List Value, eqvItems xs xs = !itemsHoldNaN xs
  | [] => rfl
  | x :: xs => by rw [eqvItems, itemsHoldNaN, eqv_self x, eqvItems_self xs, Bool.not_or]

theorem eqvEntries_self : ∀ es : List (String × Value), eqvEntries es es = !entriesHoldNaN es
  | [] => rfl
  | (k, x) :: es => by
    rw [eqvEntries, entriesHoldNaN, eqv_self x, eqvEntries_self es, BEq.rfl, Bool.true_and,
      Bool.not_or]

end

mutual

/-- What equals anything holds no not-a-number. -/
theorem holdsNaN_of_eqv : ∀ {x y : Value}, x.eqv y = true → y.holdsNaN = false
  | .number x, .number y, h => by
    rw [eqv, Binary64.eqv] at h
    rw [holdsNaN]
    simp only [Bool.and_eq_true, Bool.not_eq_true'] at h
    exact h.1.2
  | .list xs, .list ys, h => itemsHoldNaN_of_eqv (by rwa [eqv] at h)
  | .map es, .map fs, h => entriesHoldNaN_of_eqv (by rwa [eqv] at h)
  | _, .nil, _ => rfl
  | _, .text _, _ => rfl
  | _, .bool _, _ => rfl
  | _, .bounds _, _ => rfl

theorem itemsHoldNaN_of_eqv :
    ∀ {xs ys : List Value}, eqvItems xs ys = true → itemsHoldNaN ys = false
  | [], [], _ => rfl
  | x :: xs, y :: ys, h => by
    rw [eqvItems, Bool.and_eq_true] at h
    rw [itemsHoldNaN, holdsNaN_of_eqv h.1, itemsHoldNaN_of_eqv h.2, Bool.or_self]

theorem entriesHoldNaN_of_eqv :
    ∀ {es fs : List (String × Value)}, eqvEntries es fs = true → entriesHoldNaN fs = false
  | [], [], _ => rfl
  | (k, x) :: es, (l, y) :: fs, h => by
    rw [eqvEntries, Bool.and_eq_true, Bool.and_eq_true] at h
    rw [entriesHoldNaN, holdsNaN_of_eqv h.1.2, entriesHoldNaN_of_eqv h.2, Bool.or_self]

end

theorem eqv_of_holdsNaN {y : Value} (h : y.holdsNaN = true) (x : Value) : x.eqv y = false := by
  rw [← Bool.not_eq_true]
  intro heq
  rw [holdsNaN_of_eqv heq] at h
  cases h

end Value

/-! ## Admission of a value that is there -/

namespace Relation

variable {r : Relation} {key : String} {value : Value} {existing : List Attrs} {args : Attrs}

/-- **A value that is there already** is refused, unless it holds a not-a-number. -/
theorem accept_again (keyed : r.cardinality = .keyed key) (hget : args.get? key = some value)
    {other : Attrs} (hother : other ∈ existing) (same : other.get? key = some value) :
    r.accept existing args =
      if value.holdsNaN then .ok () else .error (Fault.keyTaken r.name key value) := by
  rw [accept, keyed]
  dsimp only
  rw [hget]
  dsimp only
  cases nan : value.holdsNaN with
  | true =>
    have free : keyTaken key value existing = false := by
      rw [keyTaken, List.any_eq_false]
      intro e he
      cases e.get? key with
      | none => exact Bool.false_ne_true
      | some x => simp [Value.eqv_of_holdsNaN nan x]
    rw [free]
    rfl
  | false =>
    have taken : keyTaken key value existing = true := by
      rw [keyTaken, List.any_eq_true]
      exact ⟨other, hother, by rw [same, Option.any_some, Value.eqv_self, nan]; rfl⟩
    rw [taken]
    rfl

/-- With the key there, only a duplicate is refused. -/
theorem accept_cls (keyed : r.cardinality = .keyed key) (hkey : args.contains key = true)
    {e : BuildError} (h : r.accept existing args = .error e) : e.cls = .duplicateKey := by
  rw [accept, keyed] at h
  dsimp only at h
  cases hget : args.get? key with
  | none =>
    rw [Attrs.contains, hget] at hkey
    cases hkey
  | some x =>
    rw [hget] at h
    dsimp only at h
    split at h
    · rw [← Except.error.inj h]
      rfl
    · cases h

theorem acceptAll_cls (keyed : r.cardinality = .keyed key) {xs : List Attrs}
    (keys : ∀ a ∈ xs, a.contains key = true) {e : BuildError}
    (h : r.acceptAll existing xs = .error e) : e.cls = .duplicateKey := by
  induction xs generalizing existing with
  | nil => cases h
  | cons x xs ih =>
    obtain ⟨hx, hxs⟩ := List.forall_mem_cons.1 keys
    rw [acceptAll] at h
    cases haccept : r.accept existing x with
    | error e' =>
      rw [haccept] at h
      rw [← Except.error.inj h]
      exact accept_cls keyed hx haccept
    | ok u =>
      rw [haccept] at h
      exact ih hxs h

end Relation

/-! ## A key of a node -/

namespace Bundle

variable {N : Type} {relation other : Relation} {right : N} {args : Attrs} {key : String}
  {value : Value} {bundles next : List (Bundle N)}

/-- Of the right nodes of the relation, one was attached with the value first under the key. -/
def HasKey (relation : Relation) (key : String) (value : Value) (bundles : List (Bundle N)) :
    Prop :=
  ∃ existing, Under relation bundles existing ∧ ∃ args ∈ existing, args.get? key = some value

theorem Attached.hasKey (h : Attached relation right args bundles next)
    (hget : args.get? key = some value) : HasKey relation key value next := by
  obtain ⟨existing, -, -, under⟩ := h.under
  exact ⟨_, under, args, List.mem_append_right _ (List.mem_singleton_self args), hget⟩

/-- **Attaching keeps keys**, under whatever relation. -/
theorem HasKey.attached (h : HasKey relation key value bundles)
    (attached : Attached other right args bundles next) : HasKey relation key value next := by
  obtain ⟨existing, under, first, hfirst, hget⟩ := h
  cases under with
  | nothing => cases hfirst
  | @bundle rights found =>
    by_cases hname : other.name = relation.name
    · rcases attached.lookup with ⟨rights', found', -, -, last⟩ | ⟨new, -⟩
      · rw [hname, found] at found'
        cases found'
        refine ⟨_, .bundle last, first, ?_, hget⟩
        rw [List.map_append]
        exact List.mem_append_left _ hfirst
      · rw [hname, found] at new
        cases new
    · exact ⟨_, .bundle ((attached.find?_of_ne hname).trans found), first, hfirst, hget⟩

/-- **A value that is there** is refused as a duplicate, unless it holds a not-a-number. -/
theorem HasKey.attach_cases (h : HasKey relation key value bundles)
    (keyed : relation.cardinality = .keyed key) (hget : args.get? key = some value) (right : N)
    (span : Option Span) :
    (value.holdsNaN = true ∧ ∃ next, attach relation right args span bundles = .ok next) ∨
      value.holdsNaN = false ∧ attach relation right args span bundles =
        .error (Fault.keyTaken relation.name key value) := by
  obtain ⟨existing, under, first, hfirst, same⟩ := h
  have accept := Relation.accept_again keyed hget hfirst same
  cases nan : value.holdsNaN with
  | false =>
    rw [nan] at accept
    exact .inr ⟨rfl, under.refused accept right span⟩
  | true =>
    rw [nan] at accept
    obtain ⟨next, attached⟩ := under.attached accept right
    exact .inl ⟨rfl, next, attached.attach_eq⟩

end Bundle

/-! ## Trees -/

/-- The tree was made by relating some right node with these attributes, and perhaps more of them
afterwards. -/
inductive Tree.Established (relation : Relation) (args : Attrs) : Tree → Prop
  | first {left right t : Tree} (result : Tree.relate relation left right args = .ok t) :
      Established relation args t
  | more {left right t : Tree} {other : Relation} {others : Attrs}
      (before : Established relation args left)
      (result : Tree.relate other left right others = .ok t) : Established relation args t

theorem Tree.Established.hasKey {relation : Relation} {args : Attrs} {t : Tree} {key : String}
    {value : Value} (h : Established relation args t) (hget : args.get? key = some value) :
    Bundle.HasKey relation key value t.bundles := by
  induction h with
  | first result =>
    obtain ⟨bundles, attached, rfl⟩ := Tree.relate_eq_ok_iff.1 result
    exact attached.hasKey hget
  | more before result ih =>
    obtain ⟨bundles, attached, rfl⟩ := Tree.relate_eq_ok_iff.1 result
    exact ih.attached attached

/-! ## Nodes of an arena -/

namespace Arena

variable {a : Arena} {left right other : Handle} {relation : Relation} {args : Attrs} {key : String}
  {value : Value}

/-- The arena, which has no schema, comes from relating some right node to the left node with these
attributes, and from further calls that take back no session in which this was done. -/
inductive Established (relation : Relation) (args : Attrs) (left : Handle) : Arena → Prop
  | after {calls more : List (Call Handle)} {right : Handle}
      (result : (relate relation left right args (reached none calls)).outcome = .done left)
      (spared : Spares (reached none calls).openSessions more
        (relate relation left right args (reached none calls)).state) :
      Established relation args left ((builder Lens.whole).after more
        (relate relation left right args (reached none calls)).state)

theorem SlotChange.hasKey {slot next : Slot} (h : Bundle.HasKey relation key value slot.bundles)
    (change : SlotChange a slot next) : Bundle.HasKey relation key value next.bundles := by
  cases change with
  | related unfinished there allowed attached => exact h.attached (Bundle.attach_attached attached)
  | finished unfinished complete => exact h

theorem Established.hasKey (h : Established relation args left a)
    (hget : args.get? key = some value) :
    a.schema = none ∧
      ∃ slot, a.slot? left = some slot ∧ Bundle.HasKey relation key value slot.bundles := by
  cases h with
  | @after calls more right result spared =>
    have schema : (relate relation left right args (reached none calls)).state.schema = none :=
      (relate_step ..).schema.trans (after_schema { schema := none } calls)
    refine ⟨(after_schema _ more).trans schema, ?_⟩
    have step := relate_step (reached none calls) relation left right args
    have ordered := reached_ordered none calls
    obtain ⟨-, slot, bundles, there, -, -, -, attached, state⟩ := relate_done result
    have now : ∃ slot, (relate relation left right args (reached none calls)).state.slot? left =
        some slot ∧ Bundle.HasKey relation key value slot.bundles := by
      rw [state]
      exact ⟨_, slot?_setSlot (slot?_lt there) { slot with bundles }, attached.hasKey hget⟩
    have remains := remains_of_le now (step.continues ordered).depth.le
    exact remains.run (fun h change => change.hasKey h) (ordered.build step) spared

end Arena

/-! ## Plans -/

namespace RelationPlan

variable {W N : Type} {plan : RelationPlan W N} {key : String} {value : Value}
  {before after : List (RightSupply W N)} {first second : RightSupply W N}

theorem check_keyed (keyed : plan.relation.cardinality = .keyed key) :
    plan.check = plan.relation.acceptAll [] (plan.rights.map (·.args)) := by
  rw [check, keyed]

/-- A plan with the value twice is refused if the value holds no not-a-number, and as a duplicate
unless a right node before the second one lacks the key. -/
theorem check_again (keyed : plan.relation.cardinality = .keyed key)
    (rights : plan.rights = before ++ second :: after) (mem : first ∈ before)
    (hfirst : first.args.get? key = some value) (hsecond : second.args.get? key = some value)
    (real : value.holdsNaN = false) :
    ∃ e, plan.check = .error e ∧
      ((∀ r ∈ before, r.args.contains key = true) → e.cls = .duplicateKey) := by
  rw [check_keyed keyed, rights, List.map_append, List.map_cons, Relation.acceptAll_append_cons]
  cases hbefore : plan.relation.acceptAll [] (before.map (·.args)) with
  | error e =>
    refine ⟨e, rfl, fun keys => ?_⟩
    exact Relation.acceptAll_cls keyed (List.forall_mem_map.2 keys) hbefore
  | ok u =>
    have again := Relation.accept_again keyed hsecond (List.mem_map_of_mem mem) hfirst
    rw [real] at again
    dsimp only
    rw [List.nil_append, again]
    exact ⟨_, rfl, fun _ => rfl⟩

/-- A right node whose value holds a not-a-number makes no difference to the others. -/
theorem check_nan (keyed : plan.relation.cardinality = .keyed key)
    (rights : plan.rights = before ++ second :: after)
    (hsecond : second.args.get? key = some value) (nan : value.holdsNaN = true) :
    plan.check = .ok () ↔ check { plan with rights := before ++ after } = .ok () := by
  have apart : ∀ other : Attrs, Attrs.Apart key second.args other := by
    intro other x y hx hy
    rw [← Option.some.inj (hsecond.symm.trans hx), Value.eqv_comm]
    exact Value.eqv_of_holdsNaN nan y
  have present : second.args.contains key = true := by
    rw [Attrs.contains, hsecond]
    rfl
  have keyed' : ({ plan with rights := before ++ after } : RelationPlan W N).relation.cardinality =
      .keyed key := keyed
  rw [check_keyed keyed, check_keyed keyed', Relation.acceptAll_eq_ok_iff,
    Relation.acceptAll_eq_ok_iff, Relation.admits_keyed keyed, Relation.admits_keyed keyed', rights,
    List.map_append, List.map_cons, List.map_append, List.pairwise_middle Attrs.Apart.symm,
    List.pairwise_cons]
  simp only [List.forall_mem_append, List.forall_mem_cons]
  constructor
  · rintro ⟨⟨keysBefore, -, keysAfter⟩, -, others⟩
    exact ⟨⟨keysBefore, keysAfter⟩, others⟩
  · rintro ⟨⟨keysBefore, keysAfter⟩, others⟩
    refine ⟨⟨keysBefore, present, keysAfter⟩, ⟨?_, ?_⟩, others⟩
    · exact fun other _ => apart other
    · exact fun other _ => apart other

end RelationPlan

/-! ## Refusals -/

/-- **Refusing a key twice.** Once a right node is attached with a value under the key of its
relation, the same value is refused as a duplicate exactly if no not-a-number occurs in it: on trees
and their further relations, and on unfinished nodes of arenas without a schema, whose slots then
stay as they are, until a session is taken back in which the first right node was attached. A plan
with the value twice is refused if no not-a-number occurs in it, as a duplicate if the right nodes
before have the key; otherwise, the second right node makes no difference. -/
theorem duplicate_keys_refused {relation : Relation} {key : String}
    (keyed : relation.cardinality = .keyed key) {args again : Attrs} {value : Value}
    (hargs : args.get? key = some value) (hagain : again.get? key = some value) :
    (∀ left other : Tree, Tree.Established relation args left →
      (value.holdsNaN = false ↔
        ∃ e, Tree.relate relation left other again = .error e ∧ e.cls = .duplicateKey)) ∧
    (∀ (a : Arena) (left other : Handle), Arena.Established relation args left a →
      a.isFinished left = false → other.index < a.size →
      (value.holdsNaN = false ↔
        ∃ e b, Arena.relate relation left other again a = ⟨.failed e, b, []⟩ ∧
          e.cls = .duplicateKey ∧ b.slots = a.slots)) ∧
    ∀ (W N : Type) (plan : RelationPlan W N) (before after : List (RightSupply W N))
      (first second : RightSupply W N), plan.relation = relation →
      plan.rights = before ++ second :: after → first ∈ before → first.args = args →
      second.args = again →
      (value.holdsNaN = false → ∃ e, plan.check = .error e ∧
        ((∀ r ∈ before, r.args.contains key = true) → e.cls = .duplicateKey)) ∧
      (value.holdsNaN = true →
        (plan.check = .ok () ↔
          RelationPlan.check { plan with rights := before ++ after } = .ok ())) := by
  refine ⟨fun left other established => ?_, fun a left other established unfinished there => ?_, ?_⟩
  · have hasKey := established.hasKey hargs
    rcases hasKey.attach_cases keyed hagain other left.attrs.bounds? with
      ⟨nan, bundles, attached⟩ | ⟨real, refused⟩
    · rw [nan, Tree.relate, attached]
      refine iff_of_false Bool.noConfusion ?_
      rintro ⟨e, heq, -⟩
      cases heq
    · rw [Tree.relate, refused]
      exact iff_of_true real ⟨_, rfl, rfl⟩
  · obtain ⟨free, slot, hslot, hasKey⟩ := established.hasKey hargs
    rw [Arena.isFinished, hslot] at unfinished
    rw [Arena.relate_unchecked relation again free there hslot unfinished]
    rcases hasKey.attach_cases keyed hagain other slot.attrs.bounds? with
      ⟨nan, bundles, attached⟩ | ⟨real, refused⟩
    · rw [nan, attached]
      refine iff_of_false Bool.noConfusion ?_
      rintro ⟨e, b, heq, -⟩
      cases heq
    · rw [refused]
      exact iff_of_true real ⟨_, _, rfl, rfl, Arena.slots_touch a left⟩
  · rintro W N plan before after first second rfl rights mem rfl rfl
    exact ⟨RelationPlan.check_again keyed rights mem hargs hagain,
      RelationPlan.check_nan keyed rights hagain⟩

/-- Relation attributes with a value under the key `k`. -/
def underKey (value : Value) : Attrs := (∅ : Attrs).push "k" value

/-- A list with a map in it. -/
def nestedKey : Value := .list [.text "a", .map [("n", .number (Binary64.zero true))]]

/-- A pair with a right node under the nested value, and a session afterwards in which another one
was attached, and which was taken back. -/
def nestedPair : Arena :=
  (Arena.builder Lens.whole).after
    [.prepare, .relate ⟨"items", .keyed "k"⟩ ⟨0⟩ ⟨0⟩ (underKey .nil), .close .aborted]
    (Arena.relate ⟨"items", .keyed "k"⟩ ⟨0⟩ ⟨1⟩ (underKey nestedKey)
      (Arena.reached none [.make "pair" ∅, .make "rest" ∅])).state

theorem duplicate_keys_refused_nested :
    nestedKey.holdsNaN = false ∧
      (∃ e, Tree.relate ⟨"items", .keyed "k"⟩
          ⟨"pair", ∅, [⟨⟨"items", .keyed "k"⟩, [(Tree.make "rest" ∅, underKey nestedKey)]⟩]⟩
          (Tree.make "rest" ∅) (underKey nestedKey) = .error e ∧ e.cls = .duplicateKey) ∧
      (∃ e b, Arena.relate ⟨"items", .keyed "k"⟩ ⟨0⟩ ⟨1⟩ (underKey nestedKey) nestedPair =
          ⟨.failed e, b, []⟩ ∧ e.cls = .duplicateKey ∧ b.slots = nestedPair.slots) ∧
      ∃ e, (RelationPlan.keyed "items" "k"
          [(nestedKey, .existing ()), (nestedKey, .existing ())] : RelationPlan Unit Unit).check =
        .error e ∧ e.cls = .duplicateKey := by
  have real : nestedKey.holdsNaN = false := by decide +kernel
  have keyed : (⟨"items", .keyed "k"⟩ : Relation).cardinality = .keyed "k" := rfl
  have hget : (underKey nestedKey).get? "k" = some nestedKey := rfl
  obtain ⟨trees, arenas, plans⟩ := duplicate_keys_refused keyed hget hget
  refine ⟨real, ?_, ?_, ?_⟩
  · have result : Tree.relate ⟨"items", .keyed "k"⟩ (Tree.make "pair" ∅) (Tree.make "rest" ∅)
        (underKey nestedKey) =
        .ok ⟨"pair", ∅, [⟨⟨"items", .keyed "k"⟩, [(Tree.make "rest" ∅, underKey nestedKey)]⟩]⟩ :=
      rfl
    exact (trees _ (Tree.make "rest" ∅) (.first result)).1 real
  · have established :
        Arena.Established ⟨"items", .keyed "k"⟩ (underKey nestedKey) ⟨0⟩ nestedPair :=
      .after rfl ⟨nofun, nofun, fun _ => by decide, trivial⟩
    exact (arenas nestedPair ⟨0⟩ ⟨1⟩ established rfl (by decide)).1 real
  · obtain ⟨refused, -⟩ := plans Unit Unit
      (RelationPlan.keyed "items" "k" [(nestedKey, .existing ()), (nestedKey, .existing ())])
      [⟨Action.pure (), underKey nestedKey⟩] [] ⟨Action.pure (), underKey nestedKey⟩
      ⟨Action.pure (), underKey nestedKey⟩ rfl rfl List.mem_cons_self rfl rfl
    obtain ⟨e, heq, cls⟩ := refused real
    exact ⟨e, heq, cls (by decide +kernel)⟩

/-- **A not-a-number under the key** does not keep a second right node away that has the same. -/
theorem nan_key_accepted_twice :
    (underKey (.number .nan)).get? "k" = some (.number .nan) ∧
      (∃ once twice : Tree,
        Tree.relate ⟨"items", .keyed "k"⟩ (Tree.make "pair" ∅) (Tree.make "rest" ∅)
          (underKey (.number .nan)) = .ok once ∧
        Tree.relate ⟨"items", .keyed "k"⟩ once (Tree.make "rest" ∅)
          (underKey (.number .nan)) = .ok twice) ∧
      (Arena.relate ⟨"items", .keyed "k"⟩ ⟨0⟩ ⟨1⟩ (underKey (.number .nan))
        (Arena.reached none [.make "pair" ∅, .make "rest" ∅,
          .relate ⟨"items", .keyed "k"⟩ ⟨0⟩ ⟨1⟩ (underKey (.number .nan))])).outcome =
        .done ⟨0⟩ ∧
      (RelationPlan.keyed "items" "k"
        [(.number .nan, .existing ()), (.number .nan, .existing ())] :
          RelationPlan Unit Unit).check = .ok () :=
  ⟨rfl, ⟨_, _, rfl, rfl⟩, rfl, rfl⟩

end TreeProtocol
