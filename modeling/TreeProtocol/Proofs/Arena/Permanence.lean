import TreeProtocol.Proofs.Arena.Producers

/-!
# What stays of a node

Nodes only ever change in the ways of `SlotChange`, so what all of these keep stays true of a node.
Only a rollback could bring an earlier state of it back. What a session goes back to are the slots
at its opening, so a session that was opened when it was true already brings the node back in a
state of which it is true.

* `Call.rollsBack` — the calls that take a session back;
* `Spares` — runs of calls that take back only sessions that were opened on the way;
* `Remains` — a property of the slot, here and in the snapshots of all sessions opened since;
* `Remains.call`, `Remains.run` — which such calls keep, if slot changes do;
* `finished_stays` — no slot change starts from a finished slot, so a finished node stays as it is,
  and every call that is to change it fails.
-/

namespace TreeProtocol

/-- Whether the call takes the innermost session back: it closes it as aborted, or as completed
while a node that is newer than its mark is unfinished. -/
def Call.rollsBack (a : Arena) : Call Handle → Bool
  | .close ending =>
    match a.marks with
    | [] => false
    | mark :: _ => !(ending = .completed ∧ a.unfinishedSince mark = 0)
  | _ => false

namespace Arena

/-- While the calls run, none of the `old` outermost sessions is taken back. They may be completed,
and sessions that are opened on the way may end as they like. -/
def Spares : Nat → List (Call Handle) → Arena → Prop
  | _, [], _ => True
  | old, c :: more, a =>
    (c.rollsBack a = true → old < a.openSessions) ∧
      Spares (min old (c.on (builder Lens.whole) a).state.openSessions) more
        (c.on (builder Lens.whole) a).state

/-- The node is there and its slot has the property, also in the snapshots of all but the `old`
outermost sessions. -/
structure Remains (P : Slot → Prop) (old : Nat) (node : Handle) (a : Arena) : Prop where
  there : ∃ slot, a.slot? node = some slot ∧ P slot
  since : ∀ copy ∈ a.snapshots.take (a.openSessions - old),
    ∃ slot, copy[node.index]? = some slot ∧ P slot

variable {a b : Arena} {old : Nat} {node : Handle} {slot : Slot} {P : Slot → Prop}

theorem Spares.take {calls : List (Call Handle)} (h : Spares old calls a) (n : Nat) :
    Spares old (calls.take n) a := by
  induction calls generalizing old a n with
  | nil =>
    rw [List.take_nil]
    exact h
  | cons c more ih =>
    cases n with
    | zero => trivial
    | succ n => exact ⟨h.1, ih h.2 n⟩

/-! ## One call -/

/-- If all sessions are old, no snapshot matters. -/
theorem remains_of_le (there : ∃ slot, a.slot? node = some slot ∧ P slot)
    (h : a.openSessions ≤ old) : Remains P old node a := by
  refine ⟨there, ?_⟩
  rw [Nat.sub_eq_zero_of_le h, List.take_zero]
  exact fun copy hcopy => nomatch hcopy

section Changes

variable (changes : ∀ {a : Arena} {slot next : Slot}, P slot → SlotChange a slot next → P next)

include changes

/-- A construction call changes the slot as slots are changed, if at all. -/
theorem BuildStep.keepsSlot (step : BuildStep a b)
    (there : ∃ slot, a.slot? node = some slot ∧ P slot) :
    ∃ slot, b.slot? node = some slot ∧ P slot := by
  obtain ⟨slot, hslot, hP⟩ := there
  cases step with
  | unchanged => exact ⟨slot, hslot, hP⟩
  | saved _ _ => exact ⟨slot, (slot?_of_slots (slots_touch a _) node).trans hslot, hP⟩
  | made allowed => exact ⟨slot, (List.getElem?_append_left (slot?_lt hslot)).trans hslot, hP⟩
  | @changed other before next there change =>
    by_cases heq : node = other
    · subst heq
      obtain rfl : slot = before := Option.some.inj (hslot.symm.trans there)
      exact ⟨next, slot?_setSlot (slot?_lt there) next, changes hP change⟩
    · exact ⟨slot, (sameBut_setSlot a other next node heq).trans hslot, hP⟩

/-- A construction call leaves the snapshots alone. -/
theorem Remains.built (h : Remains P old node a) (ho : a.Ordered) (step : BuildStep a b) :
    Remains P (min old b.openSessions) node b := by
  have continues := step.continues ho
  have depth : b.openSessions = a.openSessions := continues.depth
  refine ⟨step.keepsSlot changes h.there, ?_⟩
  rw [continues.snapshots, depth, show a.openSessions - min old a.openSessions =
    a.openSessions - old by omega]
  exact h.since

omit changes

/-- The snapshot of a session that is opened holds the slot as it is. -/
theorem Remains.opened (h : Remains P old node a) :
    Remains P (min old (a.openSessions + 1)) node
      { a with marks := { length := a.size } :: a.marks } := by
  by_cases hold : old ≤ a.openSessions
  · refine ⟨h.there, ?_⟩
    rw [snapshots_open]
    show ∀ copy ∈ (a.slots :: a.snapshots).take (a.openSessions + 1 - min old (a.openSessions + 1)),
      ∃ slot, copy[node.index]? = some slot ∧ P slot
    rw [show a.openSessions + 1 - min old (a.openSessions + 1) = a.openSessions - old + 1 by omega,
      List.take_succ_cons]
    exact List.forall_mem_cons.2 ⟨h.there, h.since⟩
  · exact remains_of_le h.there (le_min (Nat.lt_of_not_le hold) (Nat.le_refl _))

/-- What the snapshots tell of a session that is closed and of those around it. -/
theorem Remains.innermost (h : Remains P old node a) {copy : List Slot}
    {rest : List (List Slot)} (hs : a.snapshots = copy :: rest) {depth : Nat}
    (hd : a.openSessions = depth + 1) :
    (old ≤ depth → ∃ slot, copy[node.index]? = some slot ∧ P slot) ∧
      ∀ older ∈ rest.take (depth - min old depth),
        ∃ slot, older[node.index]? = some slot ∧ P slot := by
  have since := h.since
  rw [hs, hd] at since
  by_cases hold : old ≤ depth
  · rw [show depth + 1 - old = depth - old + 1 by omega, List.take_succ_cons] at since
    obtain ⟨hcopy, hrest⟩ := List.forall_mem_cons.1 since
    rw [Nat.min_eq_left hold]
    exact ⟨fun _ => hcopy, hrest⟩
  · refine ⟨fun hle => absurd hle hold, ?_⟩
    rw [show depth - min old depth = 0 by omega, List.take_zero]
    exact fun older hmem => nomatch hmem

theorem Remains.close (h : Remains P old node a) (ho : a.Ordered) (ending : SessionEnd)
    (spared : (Call.close ending).rollsBack a = true → old < a.openSessions) :
    Remains P (min old (close ending a).state.openSessions) node (close ending a).state := by
  rw [Arena.close]
  rw [Call.rollsBack] at spared
  cases hm : a.marks with
  | nil =>
    have closed : a.openSessions = 0 := congrArg List.length hm
    exact remains_of_le h.there (closed.le.trans (Nat.zero_le _))
  | cons mark outer =>
    rw [hm] at spared
    have depth : a.openSessions = outer.length + 1 := congrArg List.length hm
    dsimp only at spared ⊢
    by_cases hc : ending = .completed ∧ a.unfinishedSince mark = 0
    · rw [if_pos hc]
      have closed : (a.commit mark outer).openSessions = outer.length := by
        have := congrArg List.length (commit_lengths a mark outer)
        rwa [List.length_map, List.length_map] at this
      obtain ⟨-, since⟩ := h.innermost (snapshots_commit ho hm) depth
      refine ⟨?_, ?_⟩
      · rw [slot?_of_slots (commit_slots a mark outer)]
        exact h.there
      · show ∀ copy ∈ (a.commit mark outer).snapshots.take
          ((a.commit mark outer).openSessions - min old (a.commit mark outer).openSessions), _
        rw [closed]
        exact since
    · rw [if_neg hc]
      -- Only a session that is newer than the `old` ones is taken back, so its copy has the slot.
      have newer : old ≤ outer.length := by
        have := spared (by rw [decide_eq_false hc, Bool.not_false])
        omega
      obtain ⟨restored, since⟩ := h.innermost (snapshots_rollBack hm) depth
      exact ⟨restored newer, since⟩

include changes

/-- **Step lemma.** A call that spares the old sessions keeps what slot changes keep. -/
theorem Remains.call (h : Remains P old node a) (ho : a.Ordered) {c : Call Handle}
    (spared : c.rollsBack a = true → old < a.openSessions) :
    Remains P (min old (c.on (builder Lens.whole) a).state.openSessions) node
      (c.on (builder Lens.whole) a).state := by
  cases c with
  | make kind attrs =>
    rw [Call.on, Action.map_state]
    exact h.built changes ho (make_step a kind attrs)
  | relate relation left right args =>
    rw [Call.on, Action.map_state]
    exact h.built changes ho (relate_step a relation left right args)
  | finish kind other =>
    rw [Call.on, Action.map_state]
    exact h.built changes ho (finish_step a kind other)
  | prepare =>
    rw [Call.on, Action.map_state]
    exact h.opened
  | close ending =>
    rw [Call.on, Action.map_state]
    exact h.close ho ending spared

/-! ## Runs of calls -/

/-- **Run lemma.** Induction on the calls; the number of old sessions that are still open goes down
with every old session that is completed. -/
theorem Remains.run {calls : List (Call Handle)} (h : Remains P old node a) (ho : a.Ordered)
    (spared : Spares old calls a) :
    ∃ slot, ((builder Lens.whole).after calls a).slot? node = some slot ∧ P slot := by
  induction calls generalizing old a with
  | nil => exact h.there
  | cons c more ih =>
    exact ih (h.call changes ho spared.1) (ho.step (step_of_call c a)) spared.2

end Changes

/-! ## Finished nodes -/

/-- **Finished nodes stay.** As long as none of the sessions is taken back that were open when the
node was finished already, its slot is what it was after every call: kind, attributes, right nodes
and the finished flag. To relate it or to finish it fails, and changes nothing. -/
theorem finished_stays (schema : Option Schema) (calls later : List (Call Handle)) (node : Handle)
    (slot : Slot) (there : (reached schema calls).slot? node = some slot)
    (finished : slot.finished = true)
    (spared : Spares (reached schema calls).openSessions later (reached schema calls)) (n : Nat) :
    (reached schema (calls ++ later.take n)).slot? node = some slot ∧
      (∀ relation right args, ∃ e,
        relate relation node right args (reached schema (calls ++ later.take n)) =
          ⟨.failed e, reached schema (calls ++ later.take n), []⟩) ∧
      ∀ kind, ∃ e, finish kind node (reached schema (calls ++ later.take n)) =
        ⟨.failed e, reached schema (calls ++ later.take n), []⟩ := by
  have stays : (reached schema (calls ++ later.take n)).slot? node = some slot := by
    rw [reached, Builder.after_append]
    -- No slot change starts from the slot, since it is finished.
    have changes : ∀ {a : Arena} {s next : Slot}, s = slot → SlotChange a s next → next = slot := by
      rintro a s next rfl change
      rw [change.unfinished] at finished
      cases finished
    have remains : Remains (· = slot) (reached schema calls).openSessions node
        (reached schema calls) := remains_of_le ⟨slot, there, rfl⟩ (Nat.le_refl _)
    obtain ⟨_, stays, rfl⟩ := remains.run changes (reached_ordered schema calls) (spared.take n)
    exact stays
  exact ⟨stays, relate_finished stays finished, finish_finished stays finished⟩

/-- A pair that was related and finished in a session that is still open. -/
def openPairCalls : List (Call Handle) :=
  [.make "literal" ∅, .make "pair" ∅, .prepare, .finish "literal" ⟨0⟩,
    .relate ⟨"items", .many⟩ ⟨1⟩ ⟨0⟩ ∅, .finish "pair" ⟨1⟩]

/-- Sessions that try to change the pair, one completed with a node left over, one aborted; then the
session of the pair is completed, and another one is taken back. -/
def pairLaterCalls : List (Call Handle) :=
  [.prepare, .relate ⟨"items", .many⟩ ⟨1⟩ ⟨0⟩ ∅, .make "rest" ∅, .prepare, .finish "pair" ⟨1⟩,
    .close .aborted, .close .completed, .close .completed, .prepare, .make "rest" ∅,
    .close .aborted]

def finishedPair : Slot :=
  { kind := "pair", attrs := ∅, bundles := [⟨⟨"items", .many⟩, [(⟨0⟩, ∅)]⟩], finished := true }

theorem finished_stays_pair :
    (reached none openPairCalls).slot? ⟨1⟩ = some finishedPair ∧
      Spares (reached none openPairCalls).openSessions pairLaterCalls
        (reached none openPairCalls) ∧
      (reached none (openPairCalls ++ pairLaterCalls)).slot? ⟨1⟩ = some finishedPair := by
  have there : (reached none openPairCalls).slot? ⟨1⟩ = some finishedPair := rfl
  have spared : Spares (reached none openPairCalls).openSessions pairLaterCalls
      (reached none openPairCalls) :=
    ⟨nofun, nofun, nofun, nofun, nofun, fun _ => by decide, fun _ => by decide, nofun, nofun, nofun,
      fun _ => by decide, trivial⟩
  exact ⟨there, spared,
    (finished_stays none openPairCalls pairLaterCalls ⟨1⟩ finishedPair there rfl spared 11).1⟩

end Arena

end TreeProtocol
