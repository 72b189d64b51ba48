import TreeProtocol.Proofs.Arena.History
import TreeProtocol.Proofs.Bundles

/-!
# Conformance to the schema

Every node of an arena with a schema looks as the schema says, in every state that is reached: its
kind is registered and its attributes pass the check for making a node, its relations are declared
with their cardinalities, and if it is finished, each `one` relation of its kind has exactly one
right node.

The check for finishing a node only asks whether a relation is empty. That there is not more than
one right node follows from the bundles being well-formed (`conforms_lasting`), since a relation is
established with the cardinality that is declared for it.
-/

namespace TreeProtocol

/-- The relations of the slot are as the specification of its kind says. -/
structure KindSpec.Describes (spec : KindSpec) (slot : Slot) : Prop where
  declared : ∀ b ∈ slot.bundles,
    spec.relations.find? b.relation.name = some b.relation.cardinality
  filled : slot.finished = true → ∀ name, spec.relations.find? name = some .one →
    (Bundle.rightsUnder slot.bundles name).length = 1

/-- The slot is as the schema says. -/
def Schema.Conforms (s : Schema) (slot : Slot) : Prop :=
  s.checkMake slot.kind slot.attrs = .ok () ∧
    ∃ spec, s.get? slot.kind = some spec ∧ spec.Describes slot

namespace Schema

variable {s : Schema} {kind : Kind}

/-! ## What the checks let through -/

theorem specOf_eq_ok {attrs : Attrs} {spec : KindSpec} (h : s.specOf kind attrs = .ok spec) :
    s.get? kind = some spec := by
  rw [specOf] at h
  split at h
  · rename_i found hfound
    rw [hfound, Except.ok.inj h]
  · exact nomatch h

theorem checkMake_ok {attrs : Attrs} (h : s.checkMake kind attrs = .ok ()) :
    ∃ spec, s.get? kind = some spec := by
  rw [checkMake] at h
  split at h
  · exact nomatch h
  · rename_i spec hspec
    exact ⟨spec, specOf_eq_ok hspec⟩

theorem checkRelation_ok {relation : Relation} {spec : KindSpec} (hspec : s.get? kind = some spec)
    (h : s.checkRelation kind relation = .ok ()) :
    spec.relations.find? relation.name = some relation.cardinality := by
  rw [checkRelation, specOf, hspec] at h
  dsimp only at h
  split at h
  · exact nomatch h
  · rename_i declared hdeclared
    split at h
    · rename_i heq
      rw [hdeclared, heq]
    · exact nomatch h

theorem mem_obligations {spec : KindSpec} {name : String}
    (h : spec.relations.find? name = some .one) : name ∈ spec.obligations := by
  have hmem := (KeyMap.find?_eq_some_iff _ _ _).1 h
  exact List.mem_map.2 ⟨_, List.mem_filter.2 ⟨hmem, rfl⟩, rfl⟩

theorem checkFinish_ok {attrs : Attrs} {count : String → Nat} {spec : KindSpec}
    (hspec : s.get? kind = some spec) (h : s.checkFinish kind attrs count = .ok ())
    {name : String} (hname : spec.relations.find? name = some .one) : count name ≠ 0 := by
  rw [checkFinish, specOf, hspec] at h
  dsimp only at h
  split at h
  · exact nomatch h
  · rename_i hnone
    intro hzero
    have := List.find?_eq_none.1 hnone name (mem_obligations hname)
    rw [hzero] at this
    exact this rfl

end Schema

/-! ## Slots -/

/-- A relation for one right node that is not empty has exactly one. -/
theorem Bundle.rightsUnder_one {N : Type} {bundles : List (Bundle N)} (h : WellFormed bundles)
    {name : String} (hone : ∀ b ∈ bundles, b.relation.name = name → b.relation.cardinality = .one)
    (hcount : count bundles name ≠ 0) : (rightsUnder bundles name).length = 1 := by
  rw [h.rightsUnder_length]
  rw [count] at hcount ⊢
  cases hfind : find? bundles name with
  | none =>
    rw [hfind] at hcount
    exact absurd rfl hcount
  | some b =>
    rw [hfind] at hcount
    obtain ⟨hmem, hname⟩ := find?_mem hfind
    have hle := Relation.acceptAll_single (.inl (hone b hmem hname)) (h.accepted b hmem)
    rw [List.length_map] at hle
    show b.rights.length = 1
    have hne : b.rights.length ≠ 0 := hcount
    omega

namespace Arena

/-- What construction keeps of a slot, of which conformance is the part that a schema speaks of. -/
def Sound (schema : Schema) (slot : Slot) : Prop :=
  schema.Conforms slot ∧ Bundle.WellFormed slot.bundles

/-- A new node conforms. -/
theorem sound_fresh {schema : Schema} {kind : Kind} {attrs : Attrs}
    (h : schema.checkMake kind attrs = .ok ()) : Sound schema { kind, attrs } := by
  obtain ⟨spec, hspec⟩ := Schema.checkMake_ok h
  refine ⟨⟨h, spec, hspec, ?_, ?_⟩, Bundle.wellFormed_nil⟩
  · intro b hb
    cases hb
  · intro hfinished
    cases hfinished

/-- **A change keeps conformance.** -/
theorem SlotChange.sound {a : Arena} {schema : Schema} (hschema : a.schema = some schema)
    {slot next : Slot} (change : SlotChange a slot next) (h : Sound schema slot) :
    Sound schema next := by
  obtain ⟨⟨hmake, spec, hspec, hdeclared, hfilled⟩, hwell⟩ := h
  cases change with
  | related unfinished there allowed attached =>
    have hattached := Bundle.attach_attached attached
    rw [checked_of_schema hschema] at allowed
    have hrelation := Schema.checkRelation_ok hspec allowed
    refine ⟨⟨hmake, spec, hspec, ?_, ?_⟩, hattached.wellFormed hwell⟩
    · intro b hb
      rcases hattached.relation_mem hb with ⟨b', hb', heq⟩ | heq
      · rw [← heq]
        exact hdeclared b' hb'
      · rw [heq]
        exact hrelation
    · -- The node is still unfinished, so nothing has to be filled yet.
      intro hfinished
      rw [unfinished] at hfinished
      cases hfinished
  | finished unfinished complete =>
    rw [checked_of_schema hschema] at complete
    refine ⟨⟨hmake, spec, hspec, hdeclared, ?_⟩, hwell⟩
    intro _ name hname
    refine Bundle.rightsUnder_one hwell ?_ (Schema.checkFinish_ok hspec complete hname)
    intro b hb heq
    have hb' := hdeclared b hb
    rw [heq, hname] at hb'
    exact (Option.some.inj hb').symm

theorem conforms_lasting (schema : Schema) :
    Lasting (some schema) fun slots => ∀ slot ∈ slots, Sound schema slot :=
  Lasting.ofSlots
    (fun hschema allowed => sound_fresh ((checked_of_schema hschema _).symm.trans allowed))
    (fun hschema h change => change.sound hschema h)

/-- **Every node conforms to the schema** of its arena, in every state that is reached. -/
theorem reached_conforms (schema : Schema) (calls : List (Call Handle)) (slot : Slot)
    (h : slot ∈ ((builder Lens.whole).after calls (withSchema schema)).slots) :
    schema.Conforms slot :=
  (((conforms_lasting schema).throughout calls).1 slot h).1

/-- The schema of chains: an `operator` has exactly one `next`, a `literal` has no relations. -/
def chainSchema : Schema :=
  (Schema.empty.register "literal" {}).register "operator" (KindSpec.declare {} "next" .one)

/-- Such a chain, the last node of which was first related in a session that was aborted. -/
def chainCalls : List (Call Handle) :=
  [.make "literal" ∅, .finish "literal" ⟨0⟩, .make "operator" ∅, .prepare,
    .relate ⟨"next", .one⟩ ⟨1⟩ ⟨0⟩ ∅, .close .aborted, .relate ⟨"next", .one⟩ ⟨1⟩ ⟨0⟩ ∅,
    .finish "operator" ⟨1⟩]

def chainEnd : Slot :=
  { kind := "operator", attrs := ∅, bundles := [⟨⟨"next", .one⟩, [(⟨0⟩, ∅)]⟩], finished := true }

theorem reached_conforms_chain :
    chainEnd ∈ ((builder Lens.whole).after chainCalls (withSchema chainSchema)).slots ∧
      chainSchema.Conforms chainEnd := by
  have hslots : ((builder Lens.whole).after chainCalls (withSchema chainSchema)).slots =
      [{ kind := "literal", attrs := ∅, finished := true }, chainEnd] := by rfl
  have hmem : chainEnd ∈
      ((builder Lens.whole).after chainCalls (withSchema chainSchema)).slots := by
    rw [hslots]
    exact List.mem_cons_of_mem _ List.mem_cons_self
  exact ⟨hmem, reached_conforms chainSchema chainCalls chainEnd hmem⟩

end Arena

end TreeProtocol
