import Mathlib.Logic.Function.Basic
import TreeProtocol.Proofs.Arena.History
import TreeProtocol.Proofs.Arena.Outcomes

/-!
# What handles denote

A handle is a position. A node that is taken back gives its position free, and the next node that is
made gets it, so a handle that was kept over a rollback may come to denote another node. What it
denotes is always the node of the last call that returned it.

* `Roster` — for every handle, what the last call that returned it was given;
* `Roster.Lists` — the slots have the kinds and attributes of the roster;
* `listed_call`, `listed_run` — one call keeps this in the arena and all its snapshots, and so does
  a run;
* `reused_handle` — a handle can denote another node than the one it was returned for;
* `handle_denotes` — what it denotes, in every state of every run.
-/

namespace TreeProtocol

/-- The kind and the attributes that the node was made with. -/
def Slot.header (slot : Slot) : Kind × Attrs := (slot.kind, slot.attrs)

namespace Arena

/-! ## Rosters -/

/-- For every handle, the kind and the attributes that the last call was given that returned it as a
new node. -/
abbrev Roster := Handle → Option (Kind × Attrs)

namespace Roster

/-- No handle was returned. -/
def blank : Roster := fun _ => none

/-- Notes a call with its outcome. -/
def note (r : Roster) : Call Handle → Outcome (Option Handle) → Roster
  | .make kind attrs, .done (some h) => Function.update r h (some (kind, attrs))
  | _, _ => r

/-- Notes a run of calls. -/
def noteAll (r : Roster) (b : Builder Arena Handle) : List (Call Handle) → Arena → Roster
  | [], _ => r
  | c :: more, a => (r.note c (c.on b a).outcome).noteAll b more (c.on b a).state

/-- The slots have the kinds and attributes of the roster. -/
def Lists (r : Roster) (slots : List Slot) : Prop :=
  ∀ i slot, slots[i]? = some slot → r ⟨i⟩ = some slot.header

variable {r : Roster} {slots : List Slot}

theorem lists_nil (r : Roster) : r.Lists [] := by
  intro i slot there
  simp at there

/-- A slot may change if its kind and its attributes stay. -/
theorem Lists.changed (h : r.Lists slots) {i : Nat} {slot next : Slot}
    (there : slots[i]? = some slot) (same : next.header = slot.header) :
    r.Lists (slots.set i next) := by
  intro j other hother
  rw [List.getElem?_set] at hother
  split at hother
  · rename_i heq
    split at hother
    · rw [← heq, h i slot there, ← Option.some.inj hother, same]
    · cases hother
  · exact h j other hother

/-- A position past the end may be given to a new node. -/
theorem Lists.older (h : r.Lists slots) {n : Nat} (hn : slots.length ≤ n) (node : Kind × Attrs) :
    Roster.Lists (Function.update r ⟨n⟩ (some node)) slots := by
  intro i slot there
  have hi : i < slots.length := (List.getElem?_eq_some_iff.1 there).1
  have hne : (⟨i⟩ : Handle) ≠ ⟨n⟩ := by
    intro heq
    have := congrArg Handle.index heq
    simp only at this
    omega
  rw [Function.update_of_ne hne]
  exact h i slot there

theorem Lists.made (h : r.Lists slots) (kind : Kind) (attrs : Attrs) :
    Roster.Lists (Function.update r ⟨slots.length⟩ (some (kind, attrs)))
      (slots ++ [({ kind, attrs } : Slot)]) := by
  intro i slot there
  by_cases hi : i < slots.length
  · rw [List.getElem?_append_left hi] at there
    exact h.older (Nat.le_refl _) (kind, attrs) i slot there
  · have hlast : i = slots.length := by
      have := (List.getElem?_eq_some_iff.1 there).1
      simp only [List.length_append, List.length_singleton] at this
      omega
    subst hlast
    rw [List.getElem?_concat_length] at there
    rw [Function.update_self, ← Option.some.inj there]
    rfl

end Roster

/-! ## One call -/

variable {a b : Arena} {r : Roster}

theorem SlotChange.header {slot next : Slot} (h : SlotChange a slot next) :
    next.header = slot.header := by
  cases h with
  | related => rfl
  | finished => rfl

/-- A construction call that adds no slot leaves kinds and attributes alone. -/
theorem Roster.Lists.built (h : r.Lists a.slots) (step : BuildStep a b) (hsize : b.size = a.size) :
    r.Lists b.slots := by
  cases step with
  | unchanged => exact h
  | saved there =>
    rw [slots_touch]
    exact h
  | made allowed =>
    have longer : a.slots.length + 1 = a.slots.length := by
      have := hsize
      simp only [size, List.length_append, List.length_singleton] at this
      exact this
    omega
  | @changed node slot next there change =>
    show r.Lists ((a.touch node).slots.set node.index next)
    rw [slots_touch]
    exact h.changed there change.header

theorem restoredSlots_le (slots : List Slot) (m : Mark) :
    (restoredSlots slots m).length ≤ slots.length := by
  have past : (restoredSlots slots m)[slots.length]? = none := by
    rw [restoredSlots_getElem?]
    split <;> simp
  exact List.getElem?_eq_none_iff.1 past

theorem close_size (a : Arena) (ending : SessionEnd) :
    (close ending a).state.size ≤ a.size := by
  rw [close]
  split
  · exact Nat.le_refl _
  · dsimp only
    split
    · rw [size, commit_slots, size]
    · exact restoredSlots_le _ _

theorem snapshotsFrom_le {slots copy : List Slot} {marks : List Mark}
    (h : copy ∈ snapshotsFrom slots marks) : copy.length ≤ slots.length := by
  induction marks generalizing slots with
  | nil => cases h
  | cons m outer ih =>
    have inner := restoredSlots_le slots m
    rcases List.mem_cons.1 h with rfl | hmem
    · exact inner
    · exact (ih hmem).trans inner

theorem Throughout.made (h : Throughout r.Lists a) (ho : a.Ordered) (kind : Kind) (attrs : Attrs) :
    Throughout (Roster.Lists (Function.update r ⟨a.size⟩ (some (kind, attrs))))
      { a with slots := a.slots ++ [{ kind, attrs }] } := by
  refine ⟨h.1.made kind attrs, ?_⟩
  rw [snapshots_grow ho]
  intro copy hcopy
  exact (h.2 copy hcopy).older (snapshotsFrom_le hcopy) (kind, attrs)

/-- **Step lemma.** The roster goes on listing the slots and all snapshots of them: a call that
returns a new node returns a position past the end of all of them. -/
theorem listed_call (h : Throughout r.Lists a) (ho : a.Ordered) (c : Call Handle) :
    Throughout (r.note c (c.on (builder Lens.whole) a).outcome).Lists
      (c.on (builder Lens.whole) a).state := by
  cases c with
  | make kind attrs =>
    rw [Call.on, Action.map_outcome, Action.map_state]
    show Throughout (r.note (.make kind attrs) ((make kind attrs a).outcome.map some)).Lists
      (make kind attrs a).state
    rcases make_cases a kind attrs with ⟨e, hfail⟩ | hdone
    · rw [hfail]
      exact h
    · rw [hdone]
      exact h.made ho kind attrs
  | relate relation left right args =>
    rw [Call.on, Action.map_state]
    have step := relate_step a relation left right args
    exact h.built ho step (h.1.built step (relate_size a relation left right args))
  | finish kind node =>
    rw [Call.on, Action.map_state]
    have step := finish_step a kind node
    exact h.built ho step (h.1.built step (finish_size a kind node))
  | prepare =>
    rw [Call.on, Action.map_state]
    exact h.opened
  | close ending =>
    rw [Call.on, Action.map_state]
    exact h.close ho ending

/-! ## Runs of calls -/

/-- **Run lemma.** Induction on the calls. -/
theorem listed_run (h : Throughout r.Lists a) (ho : a.Ordered) (calls : List (Call Handle)) :
    Throughout (r.noteAll (builder Lens.whole) calls a).Lists
      ((builder Lens.whole).after calls a) := by
  induction calls generalizing r a with
  | nil => exact h
  | cons c more ih => exact ih (listed_call h ho c) (ho.step (step_of_call c a))

/-- What the last call of a run was given that returned the handle as a new node, if any did. -/
def issued (calls : List (Call Handle)) (a : Arena) (h : Handle) : Option (Kind × Attrs) :=
  Roster.blank.noteAll (builder Lens.whole) calls a h

theorem Roster.note_or (r : Roster) (c : Call Handle) (o : Outcome (Option Handle)) (h : Handle) :
    r.note c o h = (blank.note c o h).or (r h) := by
  cases c with
  | make kind attrs =>
    cases o with
    | done node =>
      cases node with
      | none => rfl
      | some g =>
        show Function.update r g _ h = (Function.update blank g _ h).or (r h)
        by_cases heq : h = g
        · subst heq
          simp
        · simp [Function.update_of_ne heq, blank]
    | failed e => rfl
    | crashed => rfl
  | relate => rfl
  | finish => rfl
  | prepare => rfl
  | close => rfl

theorem Roster.noteAll_or (r : Roster) (calls : List (Call Handle)) (a : Arena) (h : Handle) :
    r.noteAll (builder Lens.whole) calls a h = (issued calls a h).or (r h) := by
  induction calls generalizing r a with
  | nil => rfl
  | cons c more ih =>
    rw [issued, noteAll, noteAll, ih, ih (blank.note _ _), note_or r, Option.or_assoc]

theorem issued_cons (c : Call Handle) (more : List (Call Handle)) (a : Arena) (h : Handle) :
    issued (c :: more) a h = (issued more (c.on (builder Lens.whole) a).state h).or
      (Roster.blank.note c (c.on (builder Lens.whole) a).outcome h) :=
  Roster.noteAll_or _ more _ h

theorem issued_append (xs ys : List (Call Handle)) (a : Arena) (h : Handle) :
    issued (xs ++ ys) a h =
      (issued ys ((builder Lens.whole).after xs a) h).or (issued xs a h) := by
  induction xs generalizing a with
  | nil => exact (Option.or_none).symm
  | cons c more ih =>
    rw [List.cons_append, issued_cons, ih, issued_cons, Option.or_assoc]
    rfl

/-- The roster of a run lists the slots in the state that is reached. -/
theorem reached_listed (schema : Option Schema) (calls : List (Call Handle)) :
    Roster.Lists (issued calls { schema }) (reached schema calls).slots := by
  have start : Throughout Roster.blank.Lists { schema } :=
    ⟨Roster.lists_nil _, fun copy hcopy => nomatch hcopy⟩
  exact (listed_run start (ordered_start schema) calls).1

/-- A call that does not return the handle leaves its position free if it was free. -/
theorem size_call_le {h : Handle} (hfree : a.size ≤ h.index) (c : Call Handle)
    (hnone : Roster.blank.note c (c.on (builder Lens.whole) a).outcome h = none) :
    (c.on (builder Lens.whole) a).state.size ≤ h.index := by
  cases c with
  | make kind attrs =>
    rw [Call.on, Action.map_outcome] at hnone
    rw [Call.on, Action.map_state]
    change Roster.blank.note (.make kind attrs) ((make kind attrs a).outcome.map some) h = none
      at hnone
    show (make kind attrs a).state.size ≤ h.index
    rcases make_cases a kind attrs with ⟨e, hfail⟩ | hdone
    · rw [hfail]
      exact hfree
    · rw [hdone] at hnone ⊢
      have hne : h ≠ ⟨a.size⟩ := by
        rintro rfl
        simp [Outcome.map, Roster.note] at hnone
      have : h.index ≠ a.size := fun heq => hne (by cases h; cases heq; rfl)
      have hlen : (a.slots ++ [({ kind, attrs } : Slot)]).length = a.size + 1 := by simp [size]
      show (a.slots ++ [({ kind, attrs } : Slot)]).length ≤ h.index
      omega
  | relate relation left right args =>
    rw [Call.on, Action.map_state]
    exact (relate_size a relation left right args).trans_le hfree
  | finish kind node =>
    rw [Call.on, Action.map_state]
    exact (finish_size a kind node).trans_le hfree
  | prepare =>
    rw [Call.on, Action.map_state]
    exact hfree
  | close ending =>
    rw [Call.on, Action.map_state]
    exact (close_size a ending).trans hfree

/-- A position that is not taken is returned by no call. -/
theorem note_taken {h : Handle} (htaken : h.index < a.size) (c : Call Handle) :
    Roster.blank.note c (c.on (builder Lens.whole) a).outcome h = none := by
  cases c with
  | make kind attrs =>
    rw [Call.on, Action.map_outcome]
    show Roster.blank.note (.make kind attrs) ((make kind attrs a).outcome.map some) h = none
    rcases make_cases a kind attrs with ⟨e, hfail⟩ | hdone
    · rw [hfail]
      rfl
    · rw [hdone]
      have hne : h ≠ ⟨a.size⟩ := by
        rintro rfl
        exact absurd htaken (Nat.lt_irrefl _)
      show Function.update Roster.blank ⟨a.size⟩ _ h = none
      rw [Function.update_of_ne hne]
      rfl
  | relate => rfl
  | finish => rfl
  | prepare => rfl
  | close => rfl

/-- As long as a position is taken, no call returns it. -/
theorem issued_eq_none {h : Handle} {calls : List (Call Handle)}
    (htaken : ∀ n, h.index < ((builder Lens.whole).after (calls.take n) a).size) :
    issued calls a h = none := by
  induction calls generalizing a with
  | nil => rfl
  | cons c more ih =>
    have hnow : h.index < a.size := htaken 0
    rw [issued_cons, note_taken hnow, ih fun n => htaken (n + 1)]
    rfl

/-- A position that is free stays free until a call returns it. -/
theorem size_after_le {h : Handle} {calls : List (Call Handle)} (hfree : a.size ≤ h.index)
    (hnone : issued calls a h = none) : ((builder Lens.whole).after calls a).size ≤ h.index := by
  induction calls generalizing a with
  | nil => exact hfree
  | cons c more ih =>
    rw [issued_cons, Option.or_eq_none_iff] at hnone
    exact ih (size_call_le hfree c hnone.2) hnone.1

/-! ## What a handle denotes -/

/-- Asked about the handle, the arena tells this kind and these attributes. -/
def Denotes (a : Arena) (h : Handle) (node : Kind × Attrs) : Prop :=
  a.view.kind h = .ok node.1 ∧ a.view.attrs h = .ok node.2

/-- Asked about the handle, the arena tells that it has no such node. -/
def Strange (a : Arena) (h : Handle) : Prop :=
  a.view.kind h = .error (Fault.strangeNode h.index) ∧
    a.view.attrs h = .error (Fault.strangeNode h.index)

theorem denotes_header {h : Handle} {slot : Slot} (there : a.slot? h = some slot) :
    a.Denotes h slot.header := by
  have found : a.slotOf h = .ok slot := slotOf_of_there there
  constructor
  · show (a.slotOf h).map (·.kind) = _
    rw [found]
    rfl
  · show (a.slotOf h).map (·.attrs) = _
    rw [found]
    rfl

theorem strange_iff {h : Handle} : a.Strange h ↔ a.size ≤ h.index := by
  constructor
  · intro strange
    by_contra hlt
    obtain ⟨slot, there⟩ := slot?_of_lt (Nat.lt_of_not_le hlt)
    have denotes := (denotes_header there).1
    rw [strange.1] at denotes
    cases denotes
  · intro hle
    have gone : a.slotOf h = .error (Fault.strangeNode h.index) := by
      have : a.slot? h = none := List.getElem?_eq_none hle
      rw [slotOf, this]
    constructor
    · show (a.slotOf h).map (·.kind) = _
      rw [gone]
      rfl
    · show (a.slotOf h).map (·.attrs) = _
      rw [gone]
      rfl

theorem denotes_or_strange (listed : r.Lists a.slots) {h : Handle} {node : Kind × Attrs}
    (hr : r h = some node) : a.Denotes h node ∨ a.Strange h := by
  by_cases hlt : h.index < a.size
  · obtain ⟨slot, there⟩ := slot?_of_lt hlt
    have header := listed h.index _ there
    rw [show r ⟨h.index⟩ = some node from hr] at header
    rw [Option.some.inj header]
    exact .inl (denotes_header there)
  · exact .inr (strange_iff.2 (Nat.le_of_not_lt hlt))

/-- A handle that is kept over a rollback **can denote another node** than the one that it was
returned for: the position is free again, and the next node gets it. -/
theorem reused_handle :
    ¬ ∀ (schema : Option Schema) (calls later : List (Call Handle)) (kind : Kind) (attrs : Attrs)
        (h : Handle), (make kind attrs (reached schema calls)).outcome = .done h →
        Denotes (reached schema (calls ++ .make kind attrs :: later)) h (kind, attrs) ∨
          Strange (reached schema (calls ++ .make kind attrs :: later)) h := by
  intro denotesForGood
  have other := denotesForGood none [.prepare] [.close .aborted, .make "final" ∅] "draft" ∅ ⟨0⟩ rfl
  rcases other with denotes | strange
  · have kinds : Except.ok "final" = (Except.ok "draft" : Except BuildError Kind) := denotes.1
    have same : "final" = "draft" := Except.ok.inj kinds
    exact absurd same (by decide)
  · have free := strange_iff.1 strange
    exact absurd free (by decide)

/-- **A handle denotes the node of the last call that returned it.** In every state after it was
returned for a node, it denotes this node, or the last one that it was returned for since, or none.
It denotes none exactly while its position is free. It was not returned again if its position was
never free since, and once it denotes none it does so until it is returned again. -/
theorem handle_denotes (schema : Option Schema) (calls later : List (Call Handle)) (kind : Kind)
    (attrs : Attrs) (h : Handle)
    (returned : (make kind attrs (reached schema calls)).outcome = .done h) :
    let new := reached schema (calls ++ [.make kind attrs])
    let now := reached schema (calls ++ .make kind attrs :: later)
    (now.Denotes h ((issued later new h).getD (kind, attrs)) ∨ now.Strange h) ∧
      (now.Strange h ↔ now.size ≤ h.index) ∧
      ((∀ n, h.index < (reached schema (calls ++ .make kind attrs :: later.take n)).size) →
        issued later new h = none) ∧
      ∀ more, now.Strange h → issued more now h = none →
        (reached schema (calls ++ .make kind attrs :: later ++ more)).Strange h := by
  intro new now
  have split : ∀ xs, calls ++ .make kind attrs :: xs = (calls ++ [.make kind attrs]) ++ xs := by
    intro xs
    rw [List.append_assoc, List.singleton_append]
  have runs : ∀ xs, reached schema (calls ++ .make kind attrs :: xs) =
      (builder Lens.whole).after xs new := by
    intro xs
    rw [split, reached, Builder.after_append]
    rfl
  refine ⟨?_, strange_iff, ?_, ?_⟩
  · have first : issued [.make kind attrs] (reached schema calls) h = some (kind, attrs) := by
      have outcome :
          ((Call.make kind attrs).on (builder Lens.whole) (reached schema calls)).outcome =
            .done (some h) := by
        rw [Call.on, Action.map_outcome]
        show (make kind attrs (reached schema calls)).outcome.map some = _
        rw [returned]
        rfl
      rw [issued_cons, outcome]
      show (none : Option (Kind × Attrs)).or (Function.update Roster.blank h _ h) = _
      simp
    have roster : issued (calls ++ .make kind attrs :: later) { schema } h =
        some ((issued later new h).getD (kind, attrs)) := by
      rw [split, issued_append, issued_append calls]
      show (issued later new h).or ((issued _ (reached schema calls) h).or _) = _
      rw [first]
      cases issued later new h <;> rfl
    exact denotes_or_strange (reached_listed schema _) roster
  · intro taken
    refine issued_eq_none fun n => ?_
    rw [← runs]
    exact taken n
  · intro more strange hnone
    have free := size_after_le (strange_iff.1 strange) hnone
    rw [strange_iff, reached, Builder.after_append]
    exact free

/-- Two drafts in a session that is taken back, of which one was made in a session inside it, and
then another node: the first handle is returned again, the second one is not. -/
theorem handle_denotes_drafts :
    (make "draft" ∅ (reached none [.prepare])).outcome = .done ⟨0⟩ ∧
      (make "note" ∅ (reached none [.prepare, .make "draft" ∅, .prepare])).outcome = .done ⟨1⟩ ∧
      Denotes (reached none [.prepare, .make "draft" ∅, .prepare, .make "note" ∅, .close .aborted,
        .close .aborted, .make "final" ∅]) ⟨0⟩ ("final", ∅) ∧
      Strange (reached none [.prepare, .make "draft" ∅, .prepare, .make "note" ∅, .close .aborted,
        .close .aborted, .make "final" ∅]) ⟨1⟩ := by
  have draft := handle_denotes none [.prepare] [.prepare, .make "note" ∅, .close .aborted,
    .close .aborted, .make "final" ∅] "draft" ∅ ⟨0⟩ rfl
  have note := handle_denotes none [.prepare, .make "draft" ∅, .prepare] [.close .aborted,
    .close .aborted, .make "final" ∅] "note" ∅ ⟨1⟩ rfl
  refine ⟨rfl, rfl, ?_, note.2.1.2 (by decide)⟩
  rcases draft.1 with denotes | strange
  · exact denotes
  · exact absurd (draft.2.1.1 strange) (by decide)

end Arena

end TreeProtocol
