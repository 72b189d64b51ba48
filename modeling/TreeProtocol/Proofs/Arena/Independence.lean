import TreeProtocol.Proofs.Arena.Outcomes

/-!
# Calls that change different nodes

To relate and to finish are to change one node. What comes of it depends on the slot of that node,
on how many nodes there are, and on the schema; what it does is to save one state and to replace one
slot. So two such calls that change different nodes may change places.

* `Deed` — what is done to the node that a call changes;
* `exists_deed` — the outcome and the deed of a call are the same in all arenas that look the same
  from its node;
* `Deed.on_comm` — deeds at different nodes commute;
* `Builder.Independent` — two calls that cannot tell which of them was first;
* `Independent.runs` — runs of calls of which each is independent of each of the others;
* `changes_commute` — calls that change different nodes are independent.
-/

namespace TreeProtocol

variable {W N : Type}

/-- The node that a call changes, if it is one that relates or finishes. -/
def Call.subject? : Call N → Option N
  | .relate _ left _ _ => some left
  | .finish _ node => some node
  | _ => none

/-! ## Independent calls -/

namespace Builder

/-- In every state each of the two calls has the same outcome before the other one and after it, and
both together lead to the same state in either order. -/
structure Independent (b : Builder W N) (c d : Call N) : Prop where
  first : ∀ w, (c.on b (d.on b w).state).outcome = (c.on b w).outcome
  second : ∀ w, (d.on b (c.on b w).state).outcome = (d.on b w).outcome
  state : ∀ w, (d.on b (c.on b w).state).state = (c.on b (d.on b w).state).state

/-- The outcomes of a run of calls. -/
def outcomes (b : Builder W N) (calls : List (Call N)) (w : W) : List (Outcome (Option N)) :=
  (b.observed (fun _ => ()) calls w).map (·.1)

theorem outcomes_cons (b : Builder W N) (c : Call N) (calls : List (Call N)) (w : W) :
    b.outcomes (c :: calls) w = (c.on b w).outcome :: b.outcomes calls (c.on b w).state := rfl

variable {b : Builder W N} {c : Call N} {cs ds : List (Call N)}

/-- One call and a run. -/
theorem Independent.run (h : ∀ d ∈ ds, b.Independent c d) (w : W) :
    (c.on b (b.after ds w)).outcome = (c.on b w).outcome ∧
      b.outcomes ds (c.on b w).state = b.outcomes ds w ∧
      b.after ds (c.on b w).state = (c.on b (b.after ds w)).state := by
  induction ds generalizing w with
  | nil => exact ⟨rfl, rfl, rfl⟩
  | cons d ds ih =>
    obtain ⟨hd, hds⟩ := List.forall_mem_cons.1 h
    obtain ⟨outcome, outcomes, state⟩ := ih hds (d.on b w).state
    have swapped : b.outcomes ds (d.on b (c.on b w).state).state =
        b.outcomes ds (d.on b w).state := by
      rw [hd.state w]
      exact outcomes
    refine ⟨outcome.trans (hd.first w), ?_, ?_⟩
    · rw [outcomes_cons, outcomes_cons, hd.second w, swapped]
    · show b.after ds (d.on b (c.on b w).state).state = _
      rw [hd.state w]
      exact state

/-- **Independent runs.** If each call of the one run is independent of each call of the other one,
all outcomes are the same whichever run comes first, and so is the state in the end. -/
theorem Independent.runs (h : ∀ c ∈ cs, ∀ d ∈ ds, b.Independent c d) (w : W) :
    b.outcomes cs (b.after ds w) = b.outcomes cs w ∧
      b.outcomes ds (b.after cs w) = b.outcomes ds w ∧
      b.after (cs ++ ds) w = b.after (ds ++ cs) w := by
  induction cs generalizing w with
  | nil =>
    rw [List.nil_append, List.append_nil]
    exact ⟨rfl, rfl, rfl⟩
  | cons c cs ih =>
    obtain ⟨hc, hcs⟩ := List.forall_mem_cons.1 h
    obtain ⟨outcome, outcomes, state⟩ := Independent.run hc w
    obtain ⟨first, second, same⟩ := ih hcs (c.on b w).state
    rw [state] at first
    refine ⟨?_, second.trans outcomes, ?_⟩
    · rw [outcomes_cons, outcomes_cons, outcome, first]
    · show b.after (cs ++ ds) (c.on b w).state = b.after (ds ++ c :: cs) w
      rw [same, after_append, after_append, state]
      rfl

end Builder

/-! ## Deeds -/

namespace Arena

variable {a b : Arena} {g h : Handle} {slot other : Slot}

/-- The marks after the state of a node was to be saved in the innermost one. -/
def saving (h : Handle) (slot : Slot) : List Mark → List Mark
  | [] => []
  | mark :: outer =>
    if h.index < mark.length then
      { mark with saved := mark.saved.insertIfNew h.index slot } :: outer
    else mark :: outer

theorem touch_eq (there : a.slot? h = some slot) :
    a.touch h = { a with marks := saving h slot a.marks } := by
  rcases touch_cases there with
    ⟨hm, heq⟩ | ⟨mark, outer, hm, hle, heq⟩ | ⟨mark, outer, hm, hlt, heq⟩
  · rw [heq, hm, saving, ← hm]
  · rw [heq, hm, saving, if_neg (Nat.not_lt.2 hle), ← hm]
  · rw [heq, hm, saving, if_pos hlt]

theorem index_ne (hne : g ≠ h) : g.index ≠ h.index :=
  fun heq => hne (congrArg Handle.mk heq)

theorem saving_comm (hne : g ≠ h) (marks : List Mark) :
    saving g slot (saving h other marks) = saving h other (saving g slot marks) := by
  cases marks with
  | nil => rfl
  | cons mark outer =>
    have maps : (mark.saved.insertIfNew h.index other).insertIfNew g.index slot =
        (mark.saved.insertIfNew g.index slot).insertIfNew h.index other :=
      KeyMap.insertIfNew_comm (index_ne hne) mark.saved slot other
    by_cases hg : g.index < mark.length <;> by_cases hh : h.index < mark.length <;>
      simp [saving, hg, hh, maps]

/-- What a call does to the node that it changes. -/
structure Deed where
  /-- The state that is saved, if one is. -/
  saved : Option Slot := none
  /-- The state that the slot gets, if it changes. -/
  written : Option Slot := none

/-- Does to a node what a deed says. -/
def Deed.on (h : Handle) (deed : Deed) (a : Arena) : Arena :=
  { a with
    slots := deed.written.elim a.slots (a.slots.set h.index)
    marks := deed.saved.elim a.marks fun slot => saving h slot a.marks }

/-- **Deeds at different nodes commute.** No deed reads what another one writes. -/
theorem Deed.on_comm (hne : g ≠ h) (deed deed' : Deed) (a : Arena) :
    deed.on g (deed'.on h a) = deed'.on h (deed.on g a) := by
  obtain ⟨saved, written⟩ := deed
  obtain ⟨saved', written'⟩ := deed'
  have slots : (Deed.on g ⟨saved, written⟩ (Deed.on h ⟨saved', written'⟩ a)).slots =
      (Deed.on h ⟨saved', written'⟩ (Deed.on g ⟨saved, written⟩ a)).slots := by
    cases written with
    | none => rfl
    | some next =>
      cases written' with
      | none => rfl
      | some next' => exact List.set_comm next' next (index_ne hne).symm
  have marks : (Deed.on g ⟨saved, written⟩ (Deed.on h ⟨saved', written'⟩ a)).marks =
      (Deed.on h ⟨saved', written'⟩ (Deed.on g ⟨saved, written⟩ a)).marks := by
    cases saved with
    | none => rfl
    | some slot =>
      cases saved' with
      | none => rfl
      | some slot' => exact saving_comm hne a.marks
  exact congrArg₂ (fun slots marks => { a with slots, marks }) slots marks

/-! ## What a call comes to -/

/-- Seen from the node, the second arena looks as the first one does. -/
structure SameFor (h : Handle) (a b : Arena) : Prop where
  slot : b.slot? h = a.slot? h
  size : b.size = a.size
  schema : b.schema = a.schema

theorem Deed.sameFor (hne : g ≠ h) (deed : Deed) (a : Arena) : SameFor g a (deed.on h a) := by
  obtain ⟨saved, written⟩ := deed
  cases written with
  | none => exact ⟨rfl, rfl, rfl⟩
  | some next =>
    refine ⟨?_, ?_, rfl⟩
    · show (a.slots.set h.index next)[g.index]? = a.slots[g.index]?
      exact List.getElem?_set_ne (index_ne hne).symm
    · show (a.slots.set h.index next).length = a.slots.length
      exact List.length_set

theorem SameFor.checked (hs : SameFor h a b) (check : Schema → Except BuildError Unit) :
    b.checked check = a.checked check := by
  rw [Arena.checked, Arena.checked, hs.schema]

theorem SameFor.relatedSlot (hs : SameFor h a b) (relation : Relation) (left : Handle)
    (slot : Slot) (right : Handle) (args : Attrs) :
    b.relatedSlot relation left slot right args = a.relatedSlot relation left slot right args := by
  rw [Arena.relatedSlot, Arena.relatedSlot, hs.checked]

theorem SameFor.checkFinish (hs : SameFor h a b) (kind : Kind) (node : Handle) (slot : Slot) :
    b.checkFinish kind node slot = a.checkFinish kind node slot := by
  rw [Arena.checkFinish, Arena.checkFinish, hs.checked]

/-- **What relating comes to** depends on what can be seen from the left node. -/
theorem relate_deed (a : Arena) (relation : Relation) (left right : Handle) (args : Attrs) :
    ∃ outcome deed, ∀ b, SameFor left a b →
      relate relation left right args b = ⟨outcome, Deed.on left deed b, []⟩ := by
  by_cases there : right.index < a.size
  · cases hslot : a.slot? left with
    | none =>
      refine ⟨.failed (Fault.strangeNode left.index), {}, fun b hs => ?_⟩
      obtain ⟨rightSlot, hright⟩ := slot?_of_lt (a := b) (hs.size.symm ▸ there)
      rw [relate, slotOf_of_there hright, slotOf, hs.slot, hslot]
      rfl
    | some slot =>
      cases unfinished : slot.finished with
      | true =>
        refine ⟨.failed (.located (.relatedAfterFinish relation.name slot.kind left.index)
          slot.attrs.bounds?), {}, fun b hs => ?_⟩
        obtain ⟨rightSlot, hright⟩ := slot?_of_lt (a := b) (hs.size.symm ▸ there)
        rw [relate, slotOf_of_there hright, slotOf_of_there (hs.slot.trans hslot)]
        dsimp only
        rw [Arena.relatedSlot, if_pos unfinished, if_pos unfinished]
        rfl
      | false =>
        cases next : a.relatedSlot relation left slot right args with
        | error e =>
          refine ⟨.failed e, { saved := some slot }, fun b hs => ?_⟩
          rw [relate_open (hs.size.symm ▸ there) (hs.slot.trans hslot) unfinished, hs.relatedSlot,
            next, touch_eq (hs.slot.trans hslot)]
          rfl
        | ok next' =>
          refine ⟨.done left, { saved := some slot, written := some next' }, fun b hs => ?_⟩
          rw [relate_open (hs.size.symm ▸ there) (hs.slot.trans hslot) unfinished, hs.relatedSlot,
            next, touch_eq (hs.slot.trans hslot)]
          rfl
  · refine ⟨.failed (Fault.strangeNode right.index), {}, fun b hs => ?_⟩
    have missing : b.slot? right = none :=
      List.getElem?_eq_none (Nat.not_lt.1 fun hlt => there (hs.size ▸ hlt))
    rw [relate, slotOf, missing]
    rfl

/-- **What finishing comes to** depends on what can be seen from the node. -/
theorem finish_deed (a : Arena) (kind : Kind) (node : Handle) :
    ∃ outcome deed, ∀ b, SameFor node a b →
      finish kind node b = ⟨outcome, Deed.on node deed b, []⟩ := by
  cases hslot : a.slot? node with
  | none =>
    refine ⟨.failed (Fault.strangeNode node.index), {}, fun b hs => ?_⟩
    rw [finish, slotOf, hs.slot, hslot]
    rfl
  | some slot =>
    cases hcheck : a.checkFinish kind node slot with
    | error e =>
      refine ⟨.failed e, {}, fun b hs => ?_⟩
      rw [finish, slotOf_of_there (hs.slot.trans hslot)]
      dsimp only
      rw [hs.checkFinish, hcheck]
      rfl
    | ok u =>
      refine ⟨.done node, { saved := some slot, written := some { slot with finished := true } },
        fun b hs => ?_⟩
      rw [finish, slotOf_of_there (hs.slot.trans hslot)]
      dsimp only
      rw [hs.checkFinish, hcheck, touch_eq (hs.slot.trans hslot)]
      rfl

/-- **What a call comes to** depends on what can be seen from the node that it changes. -/
theorem exists_deed {c : Call Handle} (hc : c.subject? = some h) (a : Arena) :
    ∃ outcome deed, ∀ b, SameFor h a b →
      (c.on (builder Lens.whole) b).outcome = outcome ∧
        (c.on (builder Lens.whole) b).state = Deed.on h deed b := by
  cases c with
  | relate relation left right args =>
    obtain rfl : left = h := Option.some.inj hc
    obtain ⟨outcome, deed, same⟩ := relate_deed a relation left right args
    refine ⟨outcome.map some, deed, fun b hs => ?_⟩
    rw [Call.on, Action.map_outcome, Action.map_state]
    exact ⟨congrArg (fun r => r.outcome.map some) (same b hs), congrArg Ran.state (same b hs)⟩
  | finish kind node =>
    obtain rfl : node = h := Option.some.inj hc
    obtain ⟨outcome, deed, same⟩ := finish_deed a kind node
    refine ⟨outcome.map some, deed, fun b hs => ?_⟩
    rw [Call.on, Action.map_outcome, Action.map_state]
    exact ⟨congrArg (fun r => r.outcome.map some) (same b hs), congrArg Ran.state (same b hs)⟩
  | make kind attrs => cases hc
  | prepare => cases hc
  | close ending => cases hc

/-! ## Calls in either order -/

theorem SameFor.refl (h : Handle) (a : Arena) : SameFor h a a := ⟨rfl, rfl, rfl⟩

/-- **Calls that change different nodes are independent.** Each of them does the same deed before
and after the other one, and the deeds commute. -/
theorem independent_of_ne {c d : Call Handle} (hc : c.subject? = some g) (hd : d.subject? = some h)
    (hne : g ≠ h) : (builder Lens.whole).Independent c d := by
  have both : ∀ a : Arena,
      (c.on (builder Lens.whole) (d.on (builder Lens.whole) a).state).outcome =
        (c.on (builder Lens.whole) a).outcome ∧
      (d.on (builder Lens.whole) (c.on (builder Lens.whole) a).state).outcome =
        (d.on (builder Lens.whole) a).outcome ∧
      (d.on (builder Lens.whole) (c.on (builder Lens.whole) a).state).state =
        (c.on (builder Lens.whole) (d.on (builder Lens.whole) a).state).state := by
    intro a
    obtain ⟨outcome, deed, same⟩ := exists_deed hc a
    obtain ⟨outcome', deed', same'⟩ := exists_deed hd a
    obtain ⟨first, state⟩ := same a (.refl g a)
    obtain ⟨first', state'⟩ := same' a (.refl h a)
    obtain ⟨second, both⟩ := same _ (deed'.sameFor hne a)
    obtain ⟨second', both'⟩ := same' _ (deed.sameFor hne.symm a)
    rw [state, state', first, first']
    refine ⟨second, second', ?_⟩
    rw [both, both']
    exact (Deed.on_comm hne deed deed' a).symm
  exact ⟨fun a => (both a).1, fun a => (both a).2.1, fun a => (both a).2.2⟩

/-- **Calls that change different nodes may change places.** In every arena, with a schema or
without, whatever sessions are open: of two calls that relate or finish, each has the same outcome
whichever is made first, and the arena is the same in the end, marks and saved states included. It
does not matter what else the calls are about; the node that the one changes may be the right node
of the other. So it is with whole runs of calls. -/
theorem changes_commute :
    (∀ (c d : Call Handle) (g h : Handle), c.subject? = some g → d.subject? = some h → g ≠ h →
      (builder Lens.whole).Independent c d) ∧
    ∀ cs ds : List (Call Handle),
      (∀ c ∈ cs, ∀ d ∈ ds, ∃ g h, c.subject? = some g ∧ d.subject? = some h ∧ g ≠ h) → ∀ a,
        (builder Lens.whole).outcomes cs ((builder Lens.whole).after ds a) =
          (builder Lens.whole).outcomes cs a ∧
        (builder Lens.whole).outcomes ds ((builder Lens.whole).after cs a) =
          (builder Lens.whole).outcomes ds a ∧
        (builder Lens.whole).after (cs ++ ds) a = (builder Lens.whole).after (ds ++ cs) a := by
  refine ⟨fun c d g h hc hd hne => independent_of_ne hc hd hne, fun cs ds apart a => ?_⟩
  refine Builder.Independent.runs (fun c hc d hd => ?_) a
  obtain ⟨g, h, subject, subject', hne⟩ := apart c hc d hd
  exact independent_of_ne subject subject' hne

/-- A pair and a literal, in a session that was opened afterwards. -/
def twoNodes : Arena := reached none [.make "pair" ∅, .make "literal" ∅, .prepare]

/-- The literal is finished before it becomes an item of the pair or afterwards, and a second head
is refused in either order; both nodes are saved. -/
theorem changes_commute_literal :
    (builder Lens.whole).Independent (.relate ⟨"items", .many⟩ ⟨0⟩ ⟨1⟩ ∅)
        (.finish "literal" ⟨1⟩) ∧
      (builder Lens.whole).after
          [.relate ⟨"head", .one⟩ ⟨0⟩ ⟨1⟩ ∅, .relate ⟨"head", .one⟩ ⟨0⟩ ⟨1⟩ ∅,
            .finish "literal" ⟨1⟩] twoNodes =
        (builder Lens.whole).after
          [.finish "literal" ⟨1⟩, .relate ⟨"head", .one⟩ ⟨0⟩ ⟨1⟩ ∅,
            .relate ⟨"head", .one⟩ ⟨0⟩ ⟨1⟩ ∅] twoNodes ∧
      ((builder Lens.whole).after
          [.finish "literal" ⟨1⟩, .relate ⟨"head", .one⟩ ⟨0⟩ ⟨1⟩ ∅,
            .relate ⟨"head", .one⟩ ⟨0⟩ ⟨1⟩ ∅] twoNodes).marks.map (·.saved.keys) = [[0, 1]] := by
  have apart : ∀ c ∈ [Call.relate ⟨"head", .one⟩ (⟨0⟩ : Handle) ⟨1⟩ ∅,
        Call.relate ⟨"head", .one⟩ ⟨0⟩ ⟨1⟩ ∅],
      ∀ d ∈ [Call.finish "literal" (⟨1⟩ : Handle)],
      ∃ g h, c.subject? = some g ∧ d.subject? = some h ∧ g ≠ h := by
    intro c hc d hd
    rw [List.mem_singleton.1 hd]
    rcases List.mem_cons.1 hc with rfl | hc
    · exact ⟨⟨0⟩, ⟨1⟩, rfl, rfl, by decide⟩
    · rw [List.mem_singleton.1 hc]
      exact ⟨⟨0⟩, ⟨1⟩, rfl, rfl, by decide⟩
  refine ⟨changes_commute.1 _ _ ⟨0⟩ ⟨1⟩ rfl rfl (by decide), ?_, rfl⟩
  exact (changes_commute.2 _ _ apart twoNodes).2.2

end Arena

end TreeProtocol
