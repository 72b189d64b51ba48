import TreeProtocol.Proofs.Arena.Unfolding

/-!
# Nodes that hold trees

A tree never changes, while the slot of a node changes in place. What keeps the two in step is that
finished slots do not change: a node holds a tree if it unfolds to it through finished right nodes
only.

* `Holds.frame` — a node keeps its tree if its own slot and all finished slots stay as they are;
* `Mirrors` — how a construction call on an arena ends, next to what the same call makes of trees;
* `make_mirrors`, `relate_mirrors`, `finish_mirrors` — the calls mirror those on trees, but for what
  the schema forbids.
-/

namespace TreeProtocol.Arena

variable {a b : Arena} {h left right : Handle} {slot next : Slot} {finished : Bool} {t u : Tree}

/-- The node holds the tree, being itself finished or not; its right nodes hold theirs and are
finished. -/
inductive Holds (a : Arena) : Bool → Handle → Tree → Prop
  | node {finished : Bool} {h : Handle} {slot : Slot} (tree : Handle → Tree)
      (there : a.slot? h = some slot) (flag : slot.finished = finished)
      (rights : ∀ b ∈ slot.bundles, ∀ r ∈ b.rights, Holds a true r.1 (tree r.1)) :
      Holds a finished h (slot.toTree tree)

theorem Holds.unfolds (hh : a.Holds finished h t) : a.Unfolds h t := by
  induction hh with
  | node tree there flag rights ih => exact .node tree there ih

theorem Holds.there (hh : a.Holds finished h t) :
    ∃ slot, a.slot? h = some slot ∧ slot.finished = finished := by
  cases hh with
  | node tree there flag rights => exact ⟨_, there, flag⟩

theorem Holds.lt (hh : a.Holds finished h t) : h.index < a.size := by
  obtain ⟨slot, there, -⟩ := hh.there
  exact slot?_lt there

theorem Holds.ne_of_open (hh : a.Holds true h t) {g : Handle} (there : a.slot? g = some slot)
    (unfinished : slot.finished = false) : h ≠ g := by
  rintro rfl
  obtain ⟨slot', there', finished⟩ := hh.there
  rw [Option.some.inj (there'.symm.trans there), unfinished] at finished
  cases finished

/-- Finished slots of the one arena are slots of the other. -/
def KeepsFinished (a b : Arena) : Prop :=
  ∀ h slot, a.slot? h = some slot → slot.finished = true → b.slot? h = some slot

/-- **A node keeps its tree** if its own slot and all finished slots stay as they are. -/
theorem Holds.frame (hh : a.Holds finished h t) (kept : KeepsFinished a b)
    (here : b.slot? h = a.slot? h) : b.Holds finished h t := by
  induction hh with
  | @node finished h slot tree there flag rights ih =>
    refine .node tree (here.trans there) flag fun c hc r hr => ih c hc r hr ?_
    obtain ⟨slot', there', finished'⟩ := (rights c hc r hr).there
    rw [there', kept r.1 slot' there' finished']

/-! ## Changing one slot -/

/-- Only the slot of one node may differ. -/
def SameBut (h : Handle) (a b : Arena) : Prop := ∀ g, g ≠ h → b.slot? g = a.slot? g

theorem slot?_of_slots (hs : b.slots = a.slots) (g : Handle) : b.slot? g = a.slot? g := by
  rw [slot?, slot?, hs]

theorem sameBut_setSlot (a : Arena) (h : Handle) (slot : Slot) :
    SameBut h a ((a.touch h).setSlot h slot) := by
  intro g hne
  have hindex : h.index ≠ g.index := fun heq => hne (by cases g; cases h; cases heq; rfl)
  rw [slot?, slot?, setSlot, slots_touch, List.getElem?_set_ne hindex]

theorem slot?_setSlot (hlt : h.index < a.size) (slot : Slot) :
    ((a.touch h).setSlot h slot).slot? h = some slot := by
  rw [slot?, setSlot, slots_touch]
  exact List.getElem?_set_self hlt

theorem SameBut.keepsFinished (same : SameBut h a b)
    (unfinished : ∀ slot, a.slot? h = some slot → slot.finished = false) : KeepsFinished a b := by
  intro g slot there finished
  by_cases heq : g = h
  · rw [heq] at there
    rw [unfinished slot there] at finished
    cases finished
  · rw [same g heq, there]

/-- An unfinished node may change its slot, if what the new one leads to is finished. -/
theorem holds_setSlot (there : a.slot? h = some slot) (unfinished : slot.finished = false)
    (next : Slot) {tree : Handle → Tree}
    (rights : ∀ b ∈ next.bundles, ∀ r ∈ b.rights, a.Holds true r.1 (tree r.1)) :
    ((a.touch h).setSlot h next).Holds next.finished h (next.toTree tree) := by
  have same := sameBut_setSlot a h next
  have kept := same.keepsFinished fun s hs => by
    rw [← Option.some.inj (there.symm.trans hs)]
    exact unfinished
  refine .node tree (slot?_setSlot (slot?_lt there) next) rfl fun b hb r hr => ?_
  have held := rights b hb r hr
  exact held.frame kept (same r.1 (held.ne_of_open there unfinished))

/-! ## The construction calls -/

/-- How a call ends that is to leave a tree in the slot of `h`, next to what comes of the same call
on trees. -/
inductive Mirrors (a : Arena) (h : Handle) (finished : Bool) (expected : Except BuildError Tree)
    (run : Ran Arena Handle) : Prop
  | forbidden {e : BuildError} (schema : a.schema ≠ none) (outcome : run.outcome = .failed e)
      (slots : run.state.slots = a.slots)
  | refused {e e' : BuildError} (refusal : expected = .error e) (outcome : run.outcome = .failed e')
      (cls : e'.cls = e.cls) (slots : run.state.slots = a.slots)
  | accepted {t : Tree} (result : expected = .ok t) (outcome : run.outcome = .done h)
      (holds : run.state.Holds finished h t) (others : SameBut h a run.state)

theorem schema_ne_none {check : Schema → Except BuildError Unit} {e : BuildError}
    (hc : a.checked check = .error e) : a.schema ≠ none := by
  intro hnone
  rw [checked_of_none hnone] at hc
  cases hc

theorem make_mirrors (a : Arena) (kind : Kind) (attrs : Attrs) :
    a.Mirrors ⟨a.size⟩ false (.ok (Tree.make kind attrs)) (make kind attrs a) := by
  rw [make]
  cases hc : a.checked (·.checkMake kind attrs) with
  | error e => exact .forbidden (schema_ne_none hc) rfl rfl
  | ok u =>
    refine .accepted rfl rfl ?_ ?_
    · show Holds _ false ⟨a.size⟩ (Slot.toTree (fun _ => default) { kind, attrs })
      exact .node _ (by simp [slot?, size]) rfl fun b hb => absurd hb List.not_mem_nil
    · intro g hne
      have hindex : g.index ≠ a.slots.length := fun heq => hne (by cases g; cases heq; rfl)
      by_cases hlt : g.index < a.slots.length
      · exact List.getElem?_append_left hlt
      · have hnone : a.slots[g.index]? = none := List.getElem?_eq_none (by omega)
        rw [slot?, slot?, hnone]
        exact List.getElem?_eq_none (by simp; omega)

/-- Nodes that can be related: one choice of trees serves both. -/
theorem Holds.together (hl : a.Holds false left t) (hr : a.Holds true right u) :
    ∃ slot tree, a.slot? left = some slot ∧ slot.finished = false ∧
      (∀ b ∈ slot.bundles, ∀ r ∈ b.rights, a.Holds true r.1 (tree r.1)) ∧ tree right = u ∧
      t = slot.toTree tree := by
  cases hl with
  | @node _ _ slot tree there flag rights =>
    have same : ∀ b ∈ slot.bundles, ∀ r ∈ b.rights,
        tree r.1 = Function.update tree right u r.1 := by
      intro b hb r hr'
      by_cases heq : r.1 = right
      · rw [heq, Function.update_self]
        have held := rights b hb r hr'
        rw [heq] at held
        exact held.unfolds.unique hr.unfolds
      · rw [Function.update_of_ne heq]
    refine ⟨slot, Function.update tree right u, there, flag, ?_, Function.update_self ..,
      Slot.toTree_congr same⟩
    intro b hb r hr'
    rw [← same b hb r hr']
    exact rights b hb r hr'

theorem relate_mirrors (hl : a.Holds false left t) (hr : a.Holds true right u)
    (relation : Relation) (args : Attrs) :
    a.Mirrors left false (Tree.relate relation t u args) (relate relation left right args a) := by
  obtain ⟨slot, tree, there, unfinished, rights, rfl, rfl⟩ := hl.together hr
  obtain ⟨rightSlot, rightThere, -⟩ := hr.there
  have related : Tree.relate relation (slot.toTree tree) (tree right) args =
      (Bundle.attach relation right args slot.attrs.bounds? slot.bundles).map fun bundles =>
        { slot with bundles }.toTree tree := by
    rw [Tree.relate, Slot.toTree]
    dsimp only
    rw [Bundle.attach_map]
    cases Bundle.attach relation right args slot.attrs.bounds? slot.bundles <;> rfl
  have hopen : ¬ slot.finished = true := by simp [unfinished]
  rw [relate, slotOf_of_there rightThere, slotOf_of_there there, related]
  dsimp only
  rw [relatedSlot, if_neg hopen, if_neg hopen]
  cases hc : a.checked (·.checkRelation slot.kind relation) with
  | error e => exact .forbidden (schema_ne_none hc) rfl (slots_touch a left)
  | ok v =>
    dsimp only
    cases hattach : Bundle.attach relation right args slot.attrs.bounds? slot.bundles with
    | error e => exact .refused rfl rfl rfl (slots_touch a left)
    | ok bundles =>
      dsimp only
      refine .accepted rfl rfl ?_ (sameBut_setSlot a left _)
      rw [← unfinished]
      refine holds_setSlot there unfinished { slot with bundles } fun b hb r hr' => ?_
      rcases (Bundle.attach_attached hattach).mem hb hr' with ⟨b', hb', hold⟩ | rfl
      · exact rights b' hb' r hold
      · exact hr

theorem finish_mirrors (hh : a.Holds false h t) (kind : Kind) :
    a.Mirrors h true (Tree.finish kind t) (finish kind h a) := by
  cases hh with
  | @node _ _ slot tree there unfinished rights =>
    have hopen : ¬ slot.finished = true := by simp [unfinished]
    rw [finish, slotOf_of_there there, Tree.finish, Slot.toTree]
    dsimp only
    rw [checkFinish]
    by_cases hkind : slot.kind = kind
    · rw [if_neg (not_not.2 hkind), if_neg hopen, if_pos hkind]
      cases hc : a.checked (·.checkFinish slot.kind slot.attrs (Bundle.count slot.bundles)) with
      | error e => exact .forbidden (schema_ne_none hc) rfl rfl
      | ok v =>
        have holds := holds_setSlot there unfinished { slot with finished := true } rights
        exact .accepted rfl rfl holds (sameBut_setSlot a h _)
    · rw [if_pos hkind, if_neg hkind]
      exact .refused rfl rfl rfl rfl

end TreeProtocol.Arena
