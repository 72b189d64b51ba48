import TreeProtocol.Proofs.Arena.Steps
import TreeProtocol.Proofs.KeyMap

/-!
# What the marks of an arena stand for

A mark stands for the slots at the opening of its session. Taken together, the marks of an arena
stand for a stack of full copies, `Arena.snapshots`: the innermost copy is read off the current
slots, each further one off the copy inside it.

* `restoredSlots_getElem?` — a position of a restored list holds the saved state if there is one;
* `snapshots_change`, `snapshots_grow` — changing a slot that was saved before, and adding slots,
  leaves every copy as it is;
* `snapshots_commit`, `snapshots_rollBack` — a session that is closed drops its copy and leaves the
  others;
* `Ordered.step` — no mark is ever longer than the mark inside it, on which all of this rests.
-/

namespace TreeProtocol.Arena

/-! ## One mark -/

/-- **A restored position** holds its saved state, or what it held if none was saved. -/
theorem restoredSlots_getElem? (slots : List Slot) (m : Mark) (i : Nat) :
    (restoredSlots slots m)[i]? =
      if i < m.length then slots[i]?.map fun s => (m.saved.find? i).getD s else none := by
  rw [restoredSlots, KeyMap.foldl_set_getElem? m.saved.sorted, List.getElem?_take]
  split <;> rfl

theorem restoredSlots_length {slots : List Slot} {m : Mark} (h : m.length ≤ slots.length) :
    (restoredSlots slots m).length = m.length := by
  have key : ∀ (es : List (Nat × Slot)) (xs : List Slot),
      (es.foldl (fun xs e => xs.set e.1 e.2) xs).length = xs.length := by
    intro es
    induction es with
    | nil => intro xs; rfl
    | cons e es ih => intro xs; rw [List.foldl_cons, ih, List.length_set]
  rw [restoredSlots, key, List.length_take]
  omega

/-- Restoring asks only for the states that were not saved. -/
theorem restoredSlots_congr {xs ys : List Slot} {m : Mark}
    (h : ∀ i, i < m.length → m.saved.find? i = none → xs[i]? = ys[i]?)
    (hlen : m.length ≤ xs.length) (hlen' : m.length ≤ ys.length) :
    restoredSlots xs m = restoredSlots ys m := by
  apply List.ext_getElem?
  intro i
  rw [restoredSlots_getElem?, restoredSlots_getElem?]
  by_cases hi : i < m.length
  · rw [if_pos hi, if_pos hi]
    cases hs : m.saved.find? i with
    | none => rw [h i hi hs]
    | some s =>
      rw [List.getElem?_eq_getElem (by omega), List.getElem?_eq_getElem (by omega)]
      rfl
  · rw [if_neg hi, if_neg hi]

/-- A fresh mark stands for the slots as they are. -/
theorem restoredSlots_fresh (slots : List Slot) :
    restoredSlots slots { length := slots.length } = slots := by
  show List.foldl _ (slots.take slots.length) [] = slots
  rw [List.foldl_nil, List.take_length]

theorem inherit_find? (outer inner : Mark) (i : Nat) :
    (inherit outer inner).saved.find? i =
      (outer.saved.find? i).or (if i < outer.length then inner.saved.find? i else none) :=
  KeyMap.foldl_insertIfNew_find? outer.length inner.saved.entries outer.saved i

/-- **Inheritance.** A mark that has taken over the states saved by the mark inside it stands for
what it stood for with that mark still there. -/
theorem restoredSlots_inherit (slots : List Slot) {outer inner : Mark}
    (h : outer.length ≤ inner.length) :
    restoredSlots slots (inherit outer inner) =
      restoredSlots (restoredSlots slots inner) outer := by
  apply List.ext_getElem?
  intro i
  rw [restoredSlots_getElem?, restoredSlots_getElem?, restoredSlots_getElem?, inherit_find?]
  show (if i < outer.length then _ else none) = _
  by_cases hi : i < outer.length
  · rw [if_pos hi, if_pos hi, if_pos hi, if_pos (show i < inner.length by omega), Option.map_map]
    congr 1
    funext s
    cases outer.saved.find? i <;> rfl
  · rw [if_neg hi, if_neg hi]

/-! ## All marks -/

/-- The copies that marks stand for, innermost first: each mark is restored from the copy inside
it. -/
def snapshotsFrom (slots : List Slot) : List Mark → List (List Slot)
  | [] => []
  | m :: outer => restoredSlots slots m :: snapshotsFrom (restoredSlots slots m) outer

/-- The slots at the openings of the open sessions, innermost first. -/
def snapshots (a : Arena) : List (List Slot) := snapshotsFrom a.slots a.marks

theorem snapshots_of_marks {a : Arena} {m : Mark} {outer : List Mark} (hm : a.marks = m :: outer) :
    a.snapshots = restoredSlots a.slots m :: snapshotsFrom (restoredSlots a.slots m) outer := by
  rw [snapshots, hm, snapshotsFrom]

theorem snapshotsFrom_length (slots : List Slot) (marks : List Mark) :
    (snapshotsFrom slots marks).length = marks.length := by
  induction marks generalizing slots with
  | nil => rfl
  | cons m outer ih => rw [snapshotsFrom, List.length_cons, ih, List.length_cons]

/-- Further copies are read off the innermost one, so marks with the same innermost copy and the
same outer marks stand for the same copies. -/
theorem snapshotsFrom_congr {xs ys : List Slot} {m n : Mark} (outer : List Mark)
    (h : restoredSlots xs m = restoredSlots ys n) :
    snapshotsFrom xs (m :: outer) = snapshotsFrom ys (n :: outer) := by
  rw [snapshotsFrom, snapshotsFrom, h]

/-- No mark is longer than the mark inside it, nor than the arena. -/
def Ordered (a : Arena) : Prop := (a.size :: a.marks.map (·.length)).Pairwise (· ≥ ·)

theorem ordered_start (schema : Option Schema) : Ordered { schema } :=
  List.pairwise_singleton _ _

theorem Ordered.of_lengths {a b : Arena} (h : a.Ordered) (hsize : a.size ≤ b.size)
    (hmarks : b.marks.map (·.length) = a.marks.map (·.length)) : b.Ordered := by
  rw [Ordered, hmarks]
  rw [Ordered, List.pairwise_cons] at h
  refine List.pairwise_cons.2 ⟨?_, h.2⟩
  intro n hn
  have := h.1 n hn
  omega

section Marks

variable {a : Arena} {mark : Mark} {outer : List Mark}

theorem Ordered.length_le (h : a.Ordered) {m : Mark} (hm : m ∈ a.marks) : m.length ≤ a.size :=
  (List.pairwise_cons.1 h).1 _ (List.mem_map_of_mem hm)

theorem Ordered.head_le (h : a.Ordered) (hm : a.marks = mark :: outer) : mark.length ≤ a.size :=
  h.length_le (by rw [hm]; exact List.mem_cons_self)

theorem Ordered.outer_le (h : a.Ordered) (hm : a.marks = mark :: outer) {m : Mark}
    (hmem : m ∈ outer) : m.length ≤ mark.length := by
  rw [Ordered, hm] at h
  exact (List.pairwise_cons.1 (List.pairwise_cons.1 h).2).1 _ (List.mem_map_of_mem hmem)

/-! ## Saving a state -/

/-- What `touch` does to a node that is there: nothing without an open session or if the node is
newer than the innermost mark, and else it saves the state of the node unless one is saved. -/
theorem touch_cases {h : Handle} {slot : Slot} (there : a.slot? h = some slot) :
    (a.marks = [] ∧ a.touch h = a) ∨
      (∃ mark outer, a.marks = mark :: outer ∧ mark.length ≤ h.index ∧ a.touch h = a) ∨
      ∃ mark outer, a.marks = mark :: outer ∧ h.index < mark.length ∧ a.touch h =
        { a with marks := { mark with saved := mark.saved.insertIfNew h.index slot } :: outer } := by
  cases hm : a.marks with
  | nil => exact .inl ⟨rfl, by rw [touch, hm]⟩
  | cons mark outer =>
    by_cases hlt : h.index < mark.length
    · refine .inr (.inr ⟨mark, outer, rfl, hlt, ?_⟩)
      rw [touch, hm, there]
      exact if_pos hlt
    · refine .inr (.inl ⟨mark, outer, rfl, by omega, ?_⟩)
      rw [touch, hm, there]
      exact if_neg hlt

/-- Saving the state that a slot has does not change what the mark stands for. -/
theorem restoredSlots_insertIfNew {slots : List Slot} {i : Nat} {slot : Slot}
    (there : slots[i]? = some slot) (m : Mark) :
    restoredSlots slots { m with saved := m.saved.insertIfNew i slot } = restoredSlots slots m := by
  apply List.ext_getElem?
  intro j
  rw [restoredSlots_getElem?, restoredSlots_getElem?, KeyMap.find?_insertIfNew]
  by_cases hij : i = j
  · subst hij
    rw [if_pos rfl, there]
    rfl
  · rw [if_neg hij]

theorem touch_snapshots {h : Handle} {slot : Slot} (there : a.slot? h = some slot) :
    (a.touch h).snapshots = a.snapshots := by
  rcases touch_cases there with ⟨-, heq⟩ | ⟨_, _, -, -, heq⟩ | ⟨mark, outer, hm, -, heq⟩
  · rw [heq]
  · rw [heq]
  · rw [heq, snapshots, snapshots, hm]
    exact snapshotsFrom_congr outer (restoredSlots_insertIfNew there mark)

/-- **A saved slot may change.** After a node was touched, its slot can be replaced without any copy
noticing. -/
theorem snapshots_change (ho : a.Ordered) {h : Handle} {slot : Slot}
    (there : a.slot? h = some slot) (next : Slot) :
    ((a.touch h).setSlot h next).snapshots = a.snapshots := by
  rw [← touch_snapshots there]
  -- Either there is no mark, or the innermost one does not look at the slot that changes.
  have key : ∀ m : Mark, m.length ≤ a.size →
      (m.length ≤ h.index ∨ (m.saved.find? h.index).isSome) →
      restoredSlots (a.slots.set h.index next) m = restoredSlots a.slots m := by
    intro m hlen hcovered
    refine restoredSlots_congr ?_ (by rw [List.length_set]; exact hlen) hlen
    intro i hi hnone
    refine List.getElem?_set_ne ?_
    rintro rfl
    rcases hcovered with hge | hsome
    · omega
    · rw [hnone] at hsome
      exact absurd hsome Bool.false_ne_true
  rcases touch_cases there with
    ⟨hm, heq⟩ | ⟨mark, outer, hm, hge, heq⟩ | ⟨mark, outer, hm, hlt, heq⟩
  · rw [heq, snapshots, snapshots]
    show snapshotsFrom _ a.marks = snapshotsFrom _ a.marks
    rw [hm, snapshotsFrom, snapshotsFrom]
  · rw [heq, snapshots, snapshots]
    show snapshotsFrom _ a.marks = snapshotsFrom _ a.marks
    rw [hm]
    exact snapshotsFrom_congr outer (key mark (ho.head_le hm) (.inl hge))
  · rw [heq]
    have hlen : mark.length ≤ a.size := ho.head_le hm
    refine snapshotsFrom_congr outer (key _ hlen (.inr ?_))
    rw [KeyMap.find?_insertIfNew, if_pos rfl]
    rfl

/-- Slots that are added are newer than every mark. -/
theorem snapshots_grow (ho : a.Ordered) (slots : List Slot) :
    ({ a with slots := a.slots ++ slots } : Arena).snapshots = a.snapshots := by
  cases hm : a.marks with
  | nil => rw [snapshots, snapshots, hm, snapshotsFrom, snapshotsFrom]
  | cons mark outer =>
    have hlen : mark.length ≤ a.slots.length := ho.head_le hm
    rw [snapshots, snapshots, hm]
    refine snapshotsFrom_congr outer (restoredSlots_congr ?_ ?_ hlen)
    · intro i hi _
      exact List.getElem?_append_left (by omega)
    · rw [List.length_append]
      omega

/-! ## Opening and closing -/

theorem snapshots_open (a : Arena) :
    ({ a with marks := { length := a.size } :: a.marks } : Arena).snapshots =
      a.slots :: a.snapshots := by
  show snapshotsFrom a.slots _ = _
  rw [snapshotsFrom]
  show restoredSlots a.slots { length := a.slots.length } ::
    snapshotsFrom (restoredSlots a.slots { length := a.slots.length }) a.marks = _
  rw [restoredSlots_fresh, snapshots]

/-- **A completed session drops its copy**: the mark around it stands for the same as before. -/
theorem snapshots_commit (ho : a.Ordered) (hm : a.marks = mark :: outer) :
    a.snapshots = restoredSlots a.slots mark :: (a.commit mark outer).snapshots := by
  rw [snapshots_of_marks hm]
  congr 1
  cases outer with
  | nil => rfl
  | cons m more =>
    have hle : m.length ≤ mark.length := ho.outer_le hm List.mem_cons_self
    show _ = snapshotsFrom a.slots (inherit m mark :: more)
    exact (snapshotsFrom_congr more (restoredSlots_inherit a.slots hle)).symm

theorem snapshots_rollBack (hm : a.marks = mark :: outer) :
    a.snapshots = (a.rollBack mark outer).slots :: (a.rollBack mark outer).snapshots :=
  snapshots_of_marks hm

/-! ## The order of the marks -/

theorem touch_size (a : Arena) (h : Handle) : (a.touch h).size = a.size := by
  rw [size, slots_touch, size]

theorem setSlot_size (a : Arena) (h : Handle) (next : Slot) :
    ((a.touch h).setSlot h next).size = a.size := by
  rw [size, setSlot, List.length_set, slots_touch, size]

theorem commit_lengths (a : Arena) (mark : Mark) (outer : List Mark) :
    (a.commit mark outer).marks.map (·.length) = outer.map (·.length) := by
  cases outer <;> rfl

theorem commit_slots (a : Arena) (mark : Mark) (outer : List Mark) :
    (a.commit mark outer).slots = a.slots := by
  cases outer <;> rfl

theorem commit_schema (a : Arena) (mark : Mark) (outer : List Mark) :
    (a.commit mark outer).schema = a.schema := by
  cases outer <;> rfl

theorem Ordered.commit (ho : a.Ordered) (hm : a.marks = mark :: outer) :
    (a.commit mark outer).Ordered := by
  have hslots : (a.commit mark outer).size = a.size := by rw [size, commit_slots, size]
  rw [Ordered, hm] at ho
  rw [Ordered, commit_lengths, hslots]
  obtain ⟨hall, hrest⟩ := List.pairwise_cons.1 ho
  refine List.pairwise_cons.2 ⟨?_, (List.pairwise_cons.1 hrest).2⟩
  intro n hn
  exact hall n (List.mem_cons_of_mem _ hn)

theorem Ordered.rollBack (ho : a.Ordered) (hm : a.marks = mark :: outer) :
    (a.rollBack mark outer).Ordered := by
  have hsize : (a.rollBack mark outer).size = mark.length := restoredSlots_length (ho.head_le hm)
  rw [Ordered, hm] at ho
  rw [Ordered, hsize]
  exact (List.pairwise_cons.1 ho).2

theorem Ordered.build {b : Arena} (ho : a.Ordered) (step : BuildStep a b) : b.Ordered := by
  cases step with
  | unchanged => exact ho
  | saved there => exact ho.of_lengths (Nat.le_of_eq (touch_size a _).symm) (lengths_touch a _)
  | made allowed =>
    refine ho.of_lengths ?_ rfl
    show a.slots.length ≤ (a.slots ++ [_]).length
    rw [List.length_append]
    omega
  | @changed node _ next there change =>
    exact ho.of_lengths (Nat.le_of_eq (setSlot_size a node next).symm) (lengths_touch a node)

/-- **Step lemma for the order of the marks.** -/
theorem Ordered.step {b : Arena} (ho : a.Ordered) (step : Step a b) : b.Ordered := by
  cases step with
  | built step => exact ho.build step
  | opened =>
    refine List.pairwise_cons.2 ⟨?_, ho⟩
    intro n hn
    rcases List.mem_cons.1 hn with rfl | hmem
    · exact Nat.le_refl _
    · exact (List.pairwise_cons.1 ho).1 n hmem
  | committed hm => exact ho.commit hm
  | rolledBack hm => exact ho.rollBack hm

/-! ## What a step does to the copies -/

theorem BuildStep.snapshots {b : Arena} (step : BuildStep a b) (ho : a.Ordered) :
    b.snapshots = a.snapshots := by
  cases step with
  | unchanged => rfl
  | saved there => exact touch_snapshots there
  | made allowed => exact snapshots_grow ho _
  | changed there change => exact snapshots_change ho there _

theorem BuildStep.schema {b : Arena} (step : BuildStep a b) : b.schema = a.schema := by
  cases step with
  | unchanged => rfl
  | saved there => exact schema_touch a _
  | made allowed => rfl
  | changed there change => exact schema_touch a _

theorem Step.schema {b : Arena} (step : Step a b) : b.schema = a.schema := by
  cases step with
  | built step => exact step.schema
  | opened => rfl
  | committed hm => exact commit_schema a _ _
  | rolledBack hm => rfl

end Marks

end TreeProtocol.Arena
