import TreeProtocol.Proofs.Arena.Snapshots

/-!
# Invariants of slots, through every rollback

A session that is rolled back brings earlier slots back. So a property of slots that is to hold in
every state has to hold of the snapshots too, and this is all that has to be known about rollbacks:

* `Throughout` — the property holds of the slots and of all snapshots, and sessions keep this;
* `Lasting` — the property survives the making of a node and the change of a slot;
* `Lasting.throughout` — then it holds of the slots and of all snapshots in every state of a run;
* `saved_in_snapshot` — then it holds of the saved states too, for they are slots of a snapshot.
-/

namespace TreeProtocol.Arena

/-- The property holds of the slots and of the slots at the opening of every open session. -/
def Throughout (I : List Slot → Prop) (a : Arena) : Prop :=
  I a.slots ∧ ∀ copy ∈ a.snapshots, I copy

section Sessions

variable {I : List Slot → Prop} {a b : Arena} {mark : Mark} {outer : List Mark}

/-- A construction call leaves the snapshots alone. -/
theorem Throughout.built (hI : Throughout I a) (ho : a.Ordered) (step : BuildStep a b)
    (hb : I b.slots) : Throughout I b := by
  refine ⟨hb, ?_⟩
  rw [step.snapshots ho]
  exact hI.2

theorem Throughout.opened (hI : Throughout I a) :
    Throughout I { a with marks := { length := a.size } :: a.marks } := by
  refine ⟨hI.1, ?_⟩
  rw [snapshots_open]
  exact List.forall_mem_cons.2 hI

theorem Throughout.committed (hI : Throughout I a) (ho : a.Ordered) (hm : a.marks = mark :: outer) :
    Throughout I (a.commit mark outer) := by
  obtain ⟨hslots, hcopies⟩ := hI
  rw [snapshots_commit ho hm] at hcopies
  refine ⟨?_, (List.forall_mem_cons.1 hcopies).2⟩
  rw [commit_slots]
  exact hslots

theorem Throughout.rolledBack (hI : Throughout I a) (hm : a.marks = mark :: outer) :
    Throughout I (a.rollBack mark outer) := by
  obtain ⟨-, hcopies⟩ := hI
  rw [snapshots_rollBack hm] at hcopies
  exact List.forall_mem_cons.1 hcopies

/-- So does the closing of a session, however it ends. -/
theorem Throughout.close (hI : Throughout I a) (ho : a.Ordered)
    (ending : SessionEnd) : Throughout I (close ending a).state := by
  rw [Arena.close]
  cases hm : a.marks with
  | nil => exact hI
  | cons mark outer =>
    dsimp only
    split
    · exact hI.committed ho hm
    · exact hI.rolledBack hm

end Sessions

/-- The property holds of no slots, and construction keeps it. -/
structure Lasting (schema : Option Schema) (I : List Slot → Prop) : Prop where
  empty : I []
  made : ∀ {a : Arena} {kind : Kind} {attrs : Attrs}, a.schema = schema → I a.slots →
    a.checked (·.checkMake kind attrs) = .ok () → I (a.slots ++ [({ kind, attrs } : Slot)])
  changed : ∀ {a : Arena} {node : Handle} {slot next : Slot}, a.schema = schema → I a.slots →
    a.slot? node = some slot → SlotChange a slot next → I (a.slots.set node.index next)

variable {schema : Option Schema} {I : List Slot → Prop}

theorem Lasting.build (h : Lasting schema I) {a b : Arena} (hschema : a.schema = schema)
    (hI : I a.slots) (step : BuildStep a b) : I b.slots := by
  cases step with
  | unchanged => exact hI
  | saved there =>
    rw [slots_touch]
    exact hI
  | made allowed => exact h.made hschema hI allowed
  | @changed node slot next there change =>
    show I ((a.touch node).slots.set node.index next)
    rw [slots_touch]
    exact h.changed hschema hI there change

/-- **Step lemma for lasting properties.** -/
theorem Lasting.step (h : Lasting schema I) {a b : Arena} (hschema : a.schema = schema)
    (ho : a.Ordered) (hI : Throughout I a) (step : Step a b) : Throughout I b := by
  cases step with
  | built step => exact hI.built ho step (h.build hschema hI.1 step)
  | opened => exact hI.opened
  | committed hm => exact hI.committed ho hm
  | rolledBack hm => exact hI.rolledBack hm

/-- The state after a run of calls on a new arena. -/
def reached (schema : Option Schema) (calls : List (Call Handle)) : Arena :=
  (builder Lens.whole).after calls { schema }

/-- **Run lemma for steps**: what holds of a new arena and is kept by every step, holds in every
state that is reached. -/
theorem reached_invariant {P : Arena → Prop} (start : P { schema })
    (step : ∀ a b, P a → Step a b → P b) (calls : List (Call Handle)) : P (reached schema calls) :=
  Builder.after_invariant (fun c a h => step a _ h (step_of_call c a)) calls start

theorem reached_ordered (schema : Option Schema) (calls : List (Call Handle)) :
    (reached schema calls).Ordered :=
  reached_invariant (ordered_start schema) (fun _ _ h step => h.step step) calls

theorem after_schema (a : Arena) (calls : List (Call Handle)) :
    ((builder Lens.whole).after calls a).schema = a.schema := by
  induction calls generalizing a with
  | nil => rfl
  | cons c more ih => exact (ih _).trans (step_of_call c a).schema

/-- **Run lemma for lasting properties.** -/
theorem Lasting.throughout (h : Lasting schema I) (calls : List (Call Handle)) :
    Throughout I (reached schema calls) := by
  have start : Throughout I { schema } := ⟨h.empty, by intro copy hcopy; cases hcopy⟩
  have run := reached_invariant (P := fun a => a.schema = schema ∧ a.Ordered ∧ Throughout I a)
    ⟨rfl, ordered_start schema, start⟩
    (fun a b ⟨hschema, ho, hI⟩ step =>
      ⟨step.schema.trans hschema, ho.step step, h.step hschema ho hI step⟩) calls
  exact run.2.2

/-- A property of single slots lasts if new slots have it and changes keep it. -/
theorem Lasting.ofSlots {P : Slot → Prop}
    (made : ∀ {a : Arena} {kind : Kind} {attrs : Attrs}, a.schema = schema →
      a.checked (·.checkMake kind attrs) = .ok () → P { kind, attrs })
    (changed : ∀ {a : Arena} {slot next : Slot}, a.schema = schema → P slot →
      SlotChange a slot next → P next) :
    Lasting schema fun slots => ∀ slot ∈ slots, P slot where
  empty := by intro slot hslot; cases hslot
  made := by
    intro a kind attrs hschema hI allowed slot hslot
    rcases List.mem_append.1 hslot with hold | hnew
    · exact hI slot hold
    · rw [List.mem_singleton.1 hnew]
      exact made hschema allowed
  changed := by
    intro a node slot next hschema hI there change other hother
    rcases List.mem_or_eq_of_mem_set hother with hold | rfl
    · exact hI other hold
    · exact changed hschema (hI slot (List.mem_of_getElem? there)) change

/-! ## Saved states -/

/-- Every saved state is one of a node older than its mark. -/
def SavedBelow (a : Arena) : Prop :=
  ∀ m ∈ a.marks, ∀ i slot, m.saved.find? i = some slot → i < m.length

theorem SavedBelow.touch {a : Arena} (h : a.SavedBelow) {node : Handle} {slot : Slot}
    (there : a.slot? node = some slot) : (a.touch node).SavedBelow := by
  rcases touch_cases there with ⟨-, heq⟩ | ⟨_, _, -, -, heq⟩ | ⟨mark, outer, hm, hlt, heq⟩
  · rw [heq]
    exact h
  · rw [heq]
    exact h
  · rw [heq]
    rw [SavedBelow, hm] at h
    obtain ⟨hhead, hrest⟩ := List.forall_mem_cons.1 h
    refine List.forall_mem_cons.2 ⟨?_, hrest⟩
    intro i s hfind
    rw [KeyMap.find?_insertIfNew] at hfind
    by_cases hi : node.index = i
    · rw [← hi]
      exact hlt
    · rw [if_neg hi] at hfind
      exact hhead i s hfind

theorem SavedBelow.commit {a : Arena} (h : a.SavedBelow) {mark : Mark} {outer : List Mark}
    (hm : a.marks = mark :: outer) : (a.commit mark outer).SavedBelow := by
  rw [SavedBelow, hm] at h
  have hrest := (List.forall_mem_cons.1 h).2
  cases outer with
  | nil =>
    intro m hmem
    cases hmem
  | cons m more =>
    obtain ⟨hhead, hmore⟩ := List.forall_mem_cons.1 hrest
    refine List.forall_mem_cons.2 ⟨?_, hmore⟩
    intro i s hfind
    rw [inherit_find?] at hfind
    cases hown : m.saved.find? i with
    | some own => exact hhead i own hown
    | none =>
      rw [hown, Option.none_or] at hfind
      by_cases hi : i < m.length
      · exact hi
      · rw [if_neg hi] at hfind
        cases hfind

/-- **Step lemma for saved positions.** -/
theorem SavedBelow.step {a b : Arena} (h : a.SavedBelow) (step : Step a b) : b.SavedBelow := by
  cases step with
  | built step =>
    cases step with
    | unchanged => exact h
    | saved there => exact h.touch there
    | made allowed => exact h
    | changed there change => exact h.touch there
  | opened =>
    refine List.forall_mem_cons.2 ⟨?_, h⟩
    intro i s hfind
    cases hfind
  | committed hm => exact h.commit hm
  | rolledBack hm =>
    rw [SavedBelow, hm] at h
    exact (List.forall_mem_cons.1 h).2

theorem reached_savedBelow (schema : Option Schema) (calls : List (Call Handle)) :
    (reached schema calls).SavedBelow :=
  reached_invariant (by intro m hm; cases hm) (fun _ _ h step => h.step step) calls

theorem saved_in_snapshotFrom {marks : List Mark} {slots : List Slot}
    (ho : (slots.length :: marks.map (·.length)).Pairwise (· ≥ ·)) {m : Mark} (hm : m ∈ marks)
    {i : Nat} {slot : Slot} (hfind : m.saved.find? i = some slot) (hi : i < m.length) :
    ∃ copy ∈ snapshotsFrom slots marks, copy.length = m.length ∧ copy[i]? = some slot := by
  induction marks generalizing slots with
  | nil => cases hm
  | cons n outer ih =>
    rw [List.map_cons, List.pairwise_cons] at ho
    have hn : n.length ≤ slots.length := ho.1 _ List.mem_cons_self
    have hlen : (restoredSlots slots n).length = n.length := restoredSlots_length hn
    rcases List.mem_cons.1 hm with rfl | hmem
    · refine ⟨_, List.mem_cons_self, hlen, ?_⟩
      rw [restoredSlots_getElem?, if_pos hi, hfind, List.getElem?_eq_getElem (by omega)]
      rfl
    · have horder : ((restoredSlots slots n).length :: outer.map (·.length)).Pairwise (· ≥ ·) := by
        rw [hlen]
        exact ho.2
      obtain ⟨copy, hcopy, hspec⟩ := ih horder hmem
      exact ⟨copy, List.mem_cons_of_mem _ hcopy, hspec⟩

/-- **A saved state is the state at the opening of its session**: it is the slot of its node in a
snapshot as long as the mark. -/
theorem saved_in_snapshot {a : Arena} (ho : a.Ordered) (hs : a.SavedBelow) {m : Mark}
    (hm : m ∈ a.marks) {i : Nat} {slot : Slot} (hfind : m.saved.find? i = some slot) :
    ∃ copy ∈ a.snapshots, copy.length = m.length ∧ copy[i]? = some slot :=
  saved_in_snapshotFrom ho hm hfind (hs m hm i slot hfind)

end TreeProtocol.Arena
