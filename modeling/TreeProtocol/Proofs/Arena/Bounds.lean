import TreeProtocol.Proofs.Arena.History
import TreeProtocol.Proofs.Bundles

/-!
# Bounds of an arena

Every position that an arena keeps is in range, in every state that is reached: the lengths of the
marks grow inwards up to the number of slots, a saved state belongs to a node older than its mark,
and right nodes are nodes of the arena, or of the arena as it was at the mark that saved them.

* `closed_lasting` — in the slots, and in every snapshot, all right nodes are there;
* `guardedClose` — the closing of a session with a check in front of each access to the slots;
* `guardedClose_eq` — none of the checks ever fails;
* `reached_bounded` — all bounds, in every state of a run.
-/

namespace TreeProtocol

/-- All right nodes of the slot have positions below `n`. -/
def Slot.PointsBelow (n : Nat) (slot : Slot) : Prop :=
  ∀ b ∈ slot.bundles, ∀ r ∈ b.rights, r.1.index < n

instance (n : Nat) (slot : Slot) : Decidable (slot.PointsBelow n) :=
  inferInstanceAs (Decidable (∀ b ∈ slot.bundles, ∀ r ∈ b.rights, r.1.index < n))

theorem Slot.PointsBelow.mono {n k : Nat} {slot : Slot} (h : slot.PointsBelow n) (hle : n ≤ k) :
    slot.PointsBelow k := by
  intro b hb r hr
  have := h b hb r hr
  omega

namespace Arena

/-- What bounds the positions that an arena keeps. Marks are listed from the innermost one. -/
structure Bounded (a : Arena) : Prop where
  /-- From the outermost mark to the innermost one lengths do not decrease. -/
  lengths_ordered : (a.marks.map (·.length)).Pairwise (· ≥ ·)
  lengths_le : ∀ m ∈ a.marks, m.length ≤ a.size
  saved_lt : ∀ m ∈ a.marks, ∀ e ∈ m.saved.entries, e.1 < m.length
  right_lt : ∀ slot ∈ a.slots, slot.PointsBelow a.size
  saved_right_lt : ∀ m ∈ a.marks, ∀ e ∈ m.saved.entries, e.2.PointsBelow m.length

/-! ## Right nodes -/

theorem SlotChange.pointsBelow {a : Arena} {slot next : Slot} (h : SlotChange a slot next)
    (hslot : slot.PointsBelow a.size) : next.PointsBelow a.size := by
  cases h with
  | related unfinished there allowed attached =>
    intro b hb r hr
    rcases (Bundle.attach_attached attached).mem hb hr with ⟨b', hb', hr'⟩ | rfl
    · exact hslot b' hb' r hr'
    · exact there
  | finished unfinished complete => exact hslot

/-- **No slot points past the end**, neither now nor in a snapshot. -/
theorem closed_lasting (schema : Option Schema) :
    Lasting schema fun slots => ∀ slot ∈ slots, slot.PointsBelow slots.length where
  empty := by intro slot hslot; cases hslot
  made := by
    intro a kind attrs _ hI _ slot hslot
    rw [List.length_append]
    rcases List.mem_append.1 hslot with hold | hnew
    · exact (hI slot hold).mono (by omega)
    · rw [List.mem_singleton.1 hnew]
      intro b hb
      cases hb
  changed := by
    intro a node slot next _ hI there change other hother
    rw [List.length_set]
    rcases List.mem_or_eq_of_mem_set hother with hold | rfl
    · exact hI other hold
    · exact change.pointsBelow (hI slot (List.mem_of_getElem? there))

/-! ## Accesses with a check -/

/-- The slots from a position on, if it is not past the end. -/
def slotsFrom? (slots : List Slot) (n : Nat) : Option (List Slot) :=
  if n ≤ slots.length then some (slots.drop n) else none

/-- Writes states to their positions, if all of them are there. -/
def writeAll? : List (Nat × Slot) → List Slot → Option (List Slot)
  | [], slots => some slots
  | e :: more, slots => if e.1 < slots.length then writeAll? more (slots.set e.1 e.2) else none

/-- Closes the innermost session, and crashes where an access to the slots is out of range. -/
def guardedClose (ending : SessionEnd) : Action Arena Unit := fun a =>
  match a.marks with
  | [] => ⟨.failed Fault.noOpenSession, a, []⟩
  | mark :: outer =>
    match slotsFrom? a.slots mark.length with
    | none => ⟨.crashed, a, []⟩
    | some newer =>
      let unfinished := newer.countP (!·.finished)
      if ending = .completed ∧ unfinished = 0 then ⟨.done (), a.commit mark outer, []⟩
      else
        match writeAll? mark.saved.entries (a.slots.take mark.length) with
        | none => ⟨.crashed, a, []⟩
        | some slots =>
          let event := .arenaRolledBack ending mark.length (a.size - mark.length) mark.saved.size
          let outcome := match ending with
            | .completed => .failed (Fault.leftUnfinished unfinished)
            | .aborted => .done ()
          ⟨outcome, { a with slots, marks := outer }, [event]⟩

theorem writeAll?_eq_some {es : List (Nat × Slot)} {slots : List Slot}
    (h : ∀ e ∈ es, e.1 < slots.length) :
    writeAll? es slots = some (es.foldl (fun slots e => slots.set e.1 e.2) slots) := by
  induction es generalizing slots with
  | nil => rfl
  | cons e more ih =>
    obtain ⟨hhead, hmore⟩ := List.forall_mem_cons.1 h
    rw [writeAll?, if_pos hhead, List.foldl_cons]
    apply ih
    intro e' he'
    rw [List.length_set]
    exact hmore e' he'

theorem guardedClose_eq {a : Arena} (h : a.Bounded) (ending : SessionEnd) :
    guardedClose ending a = close ending a := by
  rw [guardedClose, close]
  cases hm : a.marks with
  | nil => rfl
  | cons mark outer =>
    have hmem : mark ∈ a.marks := by rw [hm]; exact List.mem_cons_self
    have hlen : mark.length ≤ a.slots.length := h.lengths_le mark hmem
    have hwrite : writeAll? mark.saved.entries (a.slots.take mark.length) =
        some (restoredSlots a.slots mark) := by
      apply writeAll?_eq_some
      intro e he
      rw [List.length_take]
      have := h.saved_lt mark hmem e he
      omega
    dsimp only
    rw [slotsFrom?, if_pos hlen, hwrite]
    rfl

/-! ## All bounds -/

theorem bounded_of_invariants {a : Arena} (ho : a.Ordered) (hs : a.SavedBelow)
    (hclosed : Throughout (fun slots => ∀ slot ∈ slots, slot.PointsBelow slots.length) a) :
    a.Bounded where
  lengths_ordered := (List.pairwise_cons.1 ho).2
  lengths_le := fun _ hm => ho.length_le hm
  saved_lt := by
    intro m hm e he
    exact hs m hm e.1 e.2 ((KeyMap.find?_eq_some_iff _ _ _).2 he)
  right_lt := hclosed.1
  saved_right_lt := by
    intro m hm e he
    obtain ⟨copy, hcopy, hlen, hslot⟩ :=
      saved_in_snapshot ho hs hm ((KeyMap.find?_eq_some_iff _ _ _).2 he)
    rw [← hlen]
    exact hclosed.2 copy hcopy e.2 (List.mem_of_getElem? hslot)

/-- **Every state that is reached is bounded**, and no access to the slots is out of range when it
is closed. -/
theorem reached_bounded (schema : Option Schema) (calls : List (Call Handle)) :
    (reached schema calls).Bounded ∧
      ∀ ending,
        guardedClose ending (reached schema calls) = close ending (reached schema calls) := by
  have bounded : (reached schema calls).Bounded :=
    bounded_of_invariants (reached_ordered schema calls) (reached_savedBelow schema calls)
      ((closed_lasting schema).throughout calls)
  exact ⟨bounded, guardedClose_eq bounded⟩

end Arena

end TreeProtocol
