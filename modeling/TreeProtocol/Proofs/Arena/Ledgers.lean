import TreeProtocol.Proofs.Arena.Copies
import TreeProtocol.Proofs.Attachments

/-!
# Ledgers of an arena

A ledger lists, for every node of an arena, the attachments that are in force, in the order in which
they were made. It is kept by looking at calls and their outcomes only: a session that is not
completed takes the ledger back to what it was at its opening.

* `Ledger.Accords` — the bundles in all slots, and in all copies of them, are those of the ledger;
* `Accords.note` — one call keeps this, on an arena with full copies;
* `ledger_accords` — so it holds in every state that is reached;
* `representation` — the representation invariant, of trees and of the nodes of arenas.
-/

namespace TreeProtocol.Arena

/-- The attachments to every node, and for every open session the attachments at its opening,
innermost first. -/
structure Ledger where
  logs : List (List (Attachment Handle)) := []
  copies : List (List (List (Attachment Handle))) := []

namespace Ledger

/-- The ledger after the innermost session was taken back. -/
def takeBack (l : Ledger) : Ledger :=
  match l.copies with
  | [] => l
  | copy :: outer => ⟨copy, outer⟩

/-- Notes a call with its outcome. -/
def note (l : Ledger) : Call Handle → Outcome (Option Handle) → Ledger
  | .make .., .done _ => { l with logs := l.logs ++ [[]] }
  | .relate relation left right args, .done _ =>
    { l with logs := l.logs.modify left.index (· ++ [⟨relation, right, args⟩]) }
  | .prepare, .done _ => { l with copies := l.logs :: l.copies }
  | .close .completed, .done _ => { l with copies := l.copies.tail }
  | .close _, _ => l.takeBack
  | _, _ => l

/-- Notes a run of calls. -/
def noteAll (l : Ledger) (b : Builder Arena Handle) : List (Call Handle) → Arena → Ledger
  | [], _ => l
  | c :: more, a => (l.note c (c.on b a).outcome).noteAll b more (c.on b a).state

/-- The bundles of the slots are those of the logs. -/
def Lists (logs : List (List (Attachment Handle))) (slots : List Slot) : Prop :=
  slots.map (·.bundles) = logs.map Attachment.bundles

/-- The ledger lists the slots, and its copies list the copies of the slots. -/
structure Accords (l : Ledger) (c : CopyArena) : Prop where
  slots : Lists l.logs c.slots
  copies : List.Forall₂ Lists l.copies c.copies

/-! ## Logs and slots -/

section Lists

variable {logs : List (List (Attachment Handle))} {slots : List Slot} {h : Handle} {slot : Slot}

theorem Lists.there (hl : Lists logs slots) (there : slots[h.index]? = some slot) :
    ∃ log, logs[h.index]? = some log ∧ slot.bundles = Attachment.bundles log := by
  have same : (slots.map (·.bundles))[h.index]? = (logs.map Attachment.bundles)[h.index]? := by
    rw [hl]
  rw [List.getElem?_map, there, List.getElem?_map] at same
  obtain ⟨log, hlog, heq⟩ := Option.map_eq_some_iff.1 same.symm
  exact ⟨log, hlog, heq.symm⟩

theorem Lists.made (hl : Lists logs slots) (kind : Kind) (attrs : Attrs) :
    Lists (logs ++ [[]]) (slots ++ [({ kind, attrs } : Slot)]) := by
  rw [Lists, List.map_append, List.map_append, hl]
  rfl

/-- A slot that keeps its bundles may change. -/
theorem Lists.kept (hl : Lists logs slots) (there : slots[h.index]? = some slot) {next : Slot}
    (same : next.bundles = slot.bundles) : Lists logs (slots.set h.index next) := by
  rw [Lists, List.map_set, same, ← hl]
  refine List.ext_getElem? fun i => ?_
  rw [List.getElem?_set]
  split
  · rename_i heq
    rw [← heq, List.getElem?_map, there]
    simp [(List.getElem?_eq_some_iff.1 there).1]
  · rfl

theorem Lists.related (hl : Lists logs slots) (there : slots[h.index]? = some slot)
    {relation : Relation} {right : Handle} {args : Attrs} {next : Slot}
    (attached : Bundle.Attached relation right args slot.bundles next.bundles) :
    Lists (logs.modify h.index (· ++ [⟨relation, right, args⟩])) (slots.set h.index next) := by
  obtain ⟨log, hlog, heq⟩ := hl.there there
  rw [heq] at attached
  rw [Lists, List.map_set, Attachment.bundles_of_attached attached, hl, List.modify_eq_set_getElem?,
    hlog]
  exact List.map_set.symm

end Lists

theorem relatedSlot_attached {a : Arena} {relation : Relation} {left right : Handle}
    {slot next : Slot} {args : Attrs} (h : a.relatedSlot relation left slot right args = .ok next) :
    Bundle.Attached relation right args slot.bundles next.bundles := by
  rw [relatedSlot] at h
  split at h
  · cases h
  · split at h
    · cases h
    · split at h
      · cases h
      · rename_i bundles attached
        rw [← Except.ok.inj h]
        exact Bundle.attach_attached attached

/-! ## One call -/

variable {l : Ledger} {c : CopyArena}

theorem Accords.make (h : l.Accords c) (kind : Kind) (attrs : Attrs) :
    (l.note (.make kind attrs) ((CopyArena.make kind attrs c).outcome.map some)).Accords
      (CopyArena.make kind attrs c).state := by
  rw [CopyArena.make]
  cases c.base.checked (·.checkMake kind attrs) with
  | error e => exact h
  | ok u => exact ⟨h.slots.made kind attrs, h.copies⟩

theorem Accords.relate (h : l.Accords c) (relation : Relation) (left right : Handle)
    (args : Attrs) :
    (l.note (.relate relation left right args)
      ((CopyArena.relate relation left right args c).outcome.map some)).Accords
      (CopyArena.relate relation left right args c).state := by
  rw [CopyArena.relate]
  cases c.base.slotOf right with
  | error e => exact h
  | ok rightSlot =>
    dsimp only
    cases hleft : c.base.slotOf left with
    | error e => exact h
    | ok slot =>
      dsimp only
      cases hrelated : c.base.relatedSlot relation left slot right args with
      | error e => exact h
      | ok next =>
        exact ⟨h.slots.related (slotOf_eq_ok hleft) (relatedSlot_attached hrelated), h.copies⟩

theorem Accords.finish (h : l.Accords c) (kind : Kind) (node : Handle) :
    (l.note (.finish kind node) ((CopyArena.finish kind node c).outcome.map some)).Accords
      (CopyArena.finish kind node c).state := by
  rw [CopyArena.finish]
  cases hslot : c.base.slotOf node with
  | error e => exact h
  | ok slot =>
    dsimp only
    cases c.base.checkFinish kind node slot with
    | error e => exact h
    | ok u => exact ⟨h.slots.kept (slotOf_eq_ok hslot) rfl, h.copies⟩

theorem Accords.close (h : l.Accords c) (ending : SessionEnd) :
    (l.note (.close ending) ((CopyArena.close ending c).outcome.map fun _ => none)).Accords
      (CopyArena.close ending c).state := by
  obtain ⟨slots, copies, schema⟩ := c
  obtain ⟨logs, ledgers⟩ := l
  obtain ⟨here, stacked⟩ := h
  rw [CopyArena.close]
  cases stacked with
  | nil =>
    cases ending with
    | completed => exact ⟨here, .nil⟩
    | aborted => exact ⟨here, .nil⟩
  | @cons innermost copy outerLedgers outer first more =>
    dsimp only
    cases ending with
    | aborted => exact ⟨first, more⟩
    | completed =>
      dsimp only
      split
      · exact ⟨here, more⟩
      · exact ⟨first, more⟩

/-- **Step lemma for ledgers.** What is noted of a call accords with the arena after it. -/
theorem Accords.note (h : l.Accords c) (call : Call Handle) :
    (l.note call (call.on CopyArena.builder c).outcome).Accords
      (call.on CopyArena.builder c).state := by
  cases call with
  | make kind attrs =>
    rw [Call.on, Action.map_outcome, Action.map_state]
    exact h.make kind attrs
  | relate relation left right args =>
    rw [Call.on, Action.map_outcome, Action.map_state]
    exact h.relate relation left right args
  | finish kind node =>
    rw [Call.on, Action.map_outcome, Action.map_state]
    exact h.finish kind node
  | prepare => exact ⟨h.slots, .cons h.slots h.copies⟩
  | close ending =>
    rw [Call.on, Action.map_outcome, Action.map_state]
    exact h.close ending

/-- **Run lemma for ledgers**, on an arena with marks: its snapshots are the copies. -/
theorem Accords.noteAll {a : Arena} (ho : a.Ordered) (h : l.Accords a.copied)
    (calls : List (Call Handle)) :
    (l.noteAll (builder Lens.whole) calls a).Accords
      ((builder Lens.whole).after calls a).copied := by
  induction calls generalizing l a with
  | nil => exact h
  | cons call more ih =>
    obtain ⟨outcome, ordered, copied⟩ := simulates_copied call a a.copied ⟨ho, rfl⟩
    refine ih ordered ?_
    rw [outcome, copied]
    exact h.note call

end Ledger

/-- The ledger of a run of calls on a new arena. -/
def ledger (schema : Option Schema) (calls : List (Call Handle)) : Ledger :=
  Ledger.noteAll {} (builder Lens.whole) calls { schema }

theorem ledger_accords (schema : Option Schema) (calls : List (Call Handle)) :
    (ledger schema calls).Accords (reached schema calls).copied := by
  have start : Ledger.Accords {} (Arena.copied { schema }) := ⟨rfl, .nil⟩
  exact start.noteAll (ordered_start schema) calls

/-- A node of an arena that is reached has the bundles of its attachments. -/
theorem reached_represents (schema : Option Schema) (calls : List (Call Handle)) {h : Handle}
    {slot : Slot} (there : (reached schema calls).slot? h = some slot) :
    ∃ log, (ledger schema calls).logs[h.index]? = some log ∧
      (reached schema calls).view.Represents h slot.bundles log := by
  obtain ⟨log, hlog, same⟩ := (ledger_accords schema calls).slots.there there
  have wellFormed := reached_wellFormed schema calls slot (List.mem_of_getElem? there)
  have relations := relations_eq there
  have related := fun b => related_eq (b := b) there wellFormed.names
  refine ⟨log, hlog, ?_⟩
  rw [same] at wellFormed relations related ⊢
  exact represents_of_wellFormed wellFormed relations related

end Arena

/-- **The representation invariant.** A tree that can be obtained and every tree inside it, and
every node of an arena in every state that is reached, has the bundles of its attachments: with
distinct relation names, as many right nodes as the cardinality says, keys that are there and
differ, and right nodes and relation attributes handed out in the order of attachment. For a node of
an arena these are the attachments that the calls made and that no session took back. -/
theorem representation :
    (∀ t u : Tree, t.Obtained → Relation.ReflTransGen Tree.RightOf u t →
      ∃ log, Tree.Grown log u ∧ Tree.view.Represents u u.bundles log) ∧
    ∀ (schema : Option Schema) (calls : List (Call Handle)) (h : Handle) (slot : Slot),
      (Arena.reached schema calls).slot? h = some slot →
      ∃ log, (Arena.ledger schema calls).logs[h.index]? = some log ∧
        (Arena.reached schema calls).view.Represents h slot.bundles log := by
  constructor
  · intro t u obtained inside
    exact (obtained.inside inside).represents
  · intro schema calls h slot there
    exact Arena.reached_represents schema calls there

/-- The relation attributes of a row. -/
def rowArgs (id : String) : Attrs := (∅ : Attrs).push "id" (.text id)

/-- The rows of a table, told apart by their `id`. -/
def rows : Relation := ⟨"rows", .keyed "id"⟩

/-- A table with one row. -/
def oneRow : Tree := ⟨"table", ∅, [⟨rows, [(Tree.make "row" ∅, rowArgs "a")]⟩]⟩

/-- A table that gets the row `a`, the row `b` in a session that is aborted, the row `c`, and again
the row `a`, which is refused. -/
def tableCalls : List (Call Handle) :=
  [.make "row" ∅, .make "table" ∅, .relate rows ⟨1⟩ ⟨0⟩ (rowArgs "a"), .prepare,
    .relate rows ⟨1⟩ ⟨0⟩ (rowArgs "b"), .close .aborted, .relate rows ⟨1⟩ ⟨0⟩ (rowArgs "c"),
    .relate rows ⟨1⟩ ⟨0⟩ (rowArgs "a")]

/-- The attachments to the table that are in force in the end. -/
def tableLog : List (Attachment Handle) := [⟨rows, ⟨0⟩, rowArgs "a"⟩, ⟨rows, ⟨0⟩, rowArgs "c"⟩]

theorem representation_table :
    (oneRow.Obtained ∧ ∃ log, Tree.Grown log oneRow ∧
      Tree.view.Represents oneRow oneRow.bundles log) ∧
    (Arena.ledger none tableCalls).logs[1]? = some tableLog ∧
      (Arena.reached none tableCalls).view.Represents ⟨1⟩
        [⟨rows, [(⟨0⟩, rowArgs "a"), (⟨0⟩, rowArgs "c")]⟩] tableLog := by
  obtain ⟨ofTrees, ofNodes⟩ := representation
  have attached :
      Tree.relate rows (Tree.make "table" ∅) (Tree.make "row" ∅) (rowArgs "a") = .ok oneRow := rfl
  have obtained : oneRow.Obtained :=
    (Tree.obtained_make "table" ∅).relate (Tree.obtained_make "row" ∅) attached
  have noted : (Arena.ledger none tableCalls).logs[1]? = some tableLog := rfl
  refine ⟨⟨obtained, ofTrees oneRow oneRow obtained .refl⟩, noted, ?_⟩
  obtain ⟨log, hlog, represents⟩ := ofNodes none tableCalls ⟨1⟩
    { kind := "table", attrs := ∅, bundles := [⟨rows, [(⟨0⟩, rowArgs "a"), (⟨0⟩, rowArgs "c")]⟩] }
    rfl
  obtain rfl := Option.some.inj (noted.symm.trans hlog)
  exact represents

end TreeProtocol
