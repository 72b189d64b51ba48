import TreeProtocol.Proofs.Arena.Conformance
import TreeProtocol.Schema.Check

/-!
# How the checks against a schema end

A check looks at one thing after the other and reports the first violation. Each check is opened
here once, into the ways in which it can end, with everything that is known in each case:

* `KindSpec.Fits` — what a specification asks of the attributes of a node;
* `checkMake_ends`, `checkRelation_ends`, `checkFinish_ends` — the ways in which the checks end;
* `make_checked` — the check for making a node decides `Fits`, and the class of its error tells
  whether the kind was known; so the input range of a node that was made is always an ordered one.
-/

namespace TreeProtocol

theorem Attrs.contains_iff {attrs : Attrs} {keyword : String} :
    attrs.contains keyword = true ↔ keyword ∈ attrs.keywords := by
  rw [contains, get?, Option.isSome_map, List.find?_isSome, keywords, List.mem_map]
  simp

/-- What a specification asks of the attributes of a node. The first value under the bounds keyword
is an ordered range, if there is a value; all required keywords are there; and a kind that is not
open accepts no keywords but these, the optional ones, and that of the bounds. -/
structure KindSpec.Fits (spec : KindSpec) (attrs : Attrs) : Prop where
  bounds : ∀ v, attrs.get? Attrs.boundsKeyword = some v →
    ∃ span, v = .bounds span ∧ span.start ≤ span.stop
  required : ∀ keyword ∈ spec.required, keyword ∈ attrs.keywords
  accepted : spec.isOpen = false → ∀ keyword ∈ attrs.keywords,
    keyword = Attrs.boundsKeyword ∨ keyword ∈ spec.required ∨ keyword ∈ spec.optional

theorem KindSpec.accepts_iff {spec : KindSpec} {keyword : String} :
    spec.accepts keyword = true ↔ (spec.isOpen = false →
      keyword = Attrs.boundsKeyword ∨ keyword ∈ spec.required ∨ keyword ∈ spec.optional) := by
  rw [accepts, named]
  cases spec.isOpen with
  | true => simp
  | false => simp

/-- The input range of the attributes, if they have one, is ordered. -/
def Attrs.Ordered (attrs : Attrs) : Prop :=
  attrs.bounds? = none ∨ ∃ span, attrs.bounds? = some span ∧ span.start ≤ span.stop

theorem KindSpec.Fits.ordered {spec : KindSpec} {attrs : Attrs} (fits : spec.Fits attrs) :
    attrs.Ordered := by
  rw [Attrs.Ordered, Attrs.bounds?]
  cases hget : attrs.get? Attrs.boundsKeyword with
  | none => exact .inl rfl
  | some v =>
    obtain ⟨span, rfl, ordered⟩ := fits.bounds v hget
    exact .inr ⟨span, rfl, ordered⟩

namespace Schema

variable {s : Schema} {kind : Kind} {attrs : Attrs} {spec : KindSpec} {relation : Relation}

/-- Attributes with an ordered range have no bad value under the bounds keyword. -/
theorem badBounds?_of_ordered {span : Span} (bounds : attrs.bounds? = some span)
    (ordered : span.start ≤ span.stop) : badBounds? attrs = none := by
  rw [Attrs.bounds?, Option.bind_eq_some_iff] at bounds
  obtain ⟨v, hget, hspan⟩ := bounds
  refine (badBounds?_eq_none_iff attrs).2 fun w hw => ?_
  obtain rfl : v = w := Option.some.inj (hget.symm.trans hw)
  cases v with
  | bounds range =>
    obtain rfl := Option.some.inj hspan
    exact ⟨range, rfl, decide_eq_true ordered⟩
  | _ => cases hspan

/-- The check for making a node looks for three things; what fits has none of them. -/
theorem fits_iff : spec.Fits attrs ↔ badBounds? attrs = none ∧
    spec.required.find? (!attrs.contains ·) = none ∧
    attrs.keywords.find? (!spec.accepts ·) = none := by
  rw [badBounds?_eq_none_iff, List.find?_eq_none, List.find?_eq_none]
  constructor
  · intro fits
    refine ⟨fun v hget => ?_, fun keyword hkeyword => ?_, fun keyword hkeyword => ?_⟩
    · obtain ⟨span, hv, ordered⟩ := fits.bounds v hget
      exact ⟨span, hv, decide_eq_true ordered⟩
    · simpa using Attrs.contains_iff.2 (fits.required keyword hkeyword)
    · have accepted := KindSpec.accepts_iff.2 fun closed => fits.accepted closed keyword hkeyword
      simpa using accepted
  · rintro ⟨range, required, accepted⟩
    refine ⟨fun v hget => ?_, fun keyword hkeyword => ?_, fun closed keyword hkeyword => ?_⟩
    · obtain ⟨span, hv, ordered⟩ := range v hget
      exact ⟨span, hv, of_decide_eq_true ordered⟩
    · exact Attrs.contains_iff.1 (by simpa using required keyword hkeyword)
    · exact KindSpec.accepts_iff.1 (by simpa using accepted keyword hkeyword) closed

/-! ## The ways in which the checks end -/

/-- How the check for making a node ends. -/
inductive MakeEnds (s : Schema) (kind : Kind) (attrs : Attrs) : Except BuildError Unit → Prop
  | unregistered (unknown : s.get? kind = none) :
      MakeEnds s kind attrs (.error (.located (.unregisteredKind kind s.kindNames) attrs.bounds?))
  | malformed {spec : KindSpec} {v : Value} (known : s.get? kind = some spec)
      (bad : badBounds? attrs = some v) :
      MakeEnds s kind attrs (.error (Fault.malformedBounds kind v))
  | missing {spec : KindSpec} {keyword : String} (known : s.get? kind = some spec)
      (range : badBounds? attrs = none) (required : keyword ∈ spec.required)
      (absent : keyword ∉ attrs.keywords) :
      MakeEnds s kind attrs (.error (.located (.missingAttr kind keyword) attrs.bounds?))
  | unaccepted {spec : KindSpec} {keyword : String} (known : s.get? kind = some spec)
      (range : badBounds? attrs = none) (there : keyword ∈ attrs.keywords)
      (foreign : spec.accepts keyword = false) :
      MakeEnds s kind attrs
        (.error (.located (.unacceptedAttr kind keyword spec.named) attrs.bounds?))
  | fits {spec : KindSpec} (known : s.get? kind = some spec) (fits : spec.Fits attrs) :
      MakeEnds s kind attrs (.ok ())

/-- **How the check for making a node ends**, whatever the attributes. -/
theorem checkMake_ends (s : Schema) (kind : Kind) (attrs : Attrs) :
    MakeEnds s kind attrs (s.checkMake kind attrs) := by
  rw [checkMake, specOf]
  cases known : s.get? kind with
  | none => exact .unregistered known
  | some spec =>
    dsimp only
    cases range : badBounds? attrs with
    | some v => exact .malformed known range
    | none =>
      dsimp only
      cases required : spec.required.find? (!attrs.contains ·) with
      | some keyword =>
        have absent := List.find?_some required
        refine .missing known range (List.mem_of_find?_eq_some required) ?_
        rw [← Attrs.contains_iff]
        simpa using absent
      | none =>
        dsimp only
        cases accepted : attrs.keywords.find? (!spec.accepts ·) with
        | some keyword =>
          have foreign := List.find?_some accepted
          refine .unaccepted known range (List.mem_of_find?_eq_some accepted) ?_
          simpa using foreign
        | none => exact .fits known (fits_iff.2 ⟨range, required, accepted⟩)

/-- How the check for establishing a relation ends. -/
inductive RelationEnds (s : Schema) (kind : Kind) (relation : Relation) :
    Except BuildError Unit → Prop
  | unregistered (unknown : s.get? kind = none) :
      RelationEnds s kind relation (.error (.located (.unregisteredKind kind s.kindNames) none))
  | undeclared {spec : KindSpec} (known : s.get? kind = some spec)
      (absent : spec.relations.find? relation.name = none) :
      RelationEnds s kind relation (.error (Fault.undeclaredRelation kind relation.name))
  | otherwise {spec : KindSpec} {declared : Cardinality} (known : s.get? kind = some spec)
      (there : spec.relations.find? relation.name = some declared)
      (other : declared ≠ relation.cardinality) :
      RelationEnds s kind relation (.error (Fault.otherwiseDeclared kind relation declared))
  | declared {spec : KindSpec} (known : s.get? kind = some spec)
      (there : spec.relations.find? relation.name = some relation.cardinality) :
      RelationEnds s kind relation (.ok ())

/-- **How the check for establishing a relation ends.** -/
theorem checkRelation_ends (s : Schema) (kind : Kind) (relation : Relation) :
    RelationEnds s kind relation (s.checkRelation kind relation) := by
  rw [checkRelation, specOf]
  cases known : s.get? kind with
  | none => exact .unregistered known
  | some spec =>
    dsimp only
    cases there : spec.relations.find? relation.name with
    | none => exact .undeclared known there
    | some declared =>
      dsimp only
      by_cases same : declared = relation.cardinality
      · rw [if_pos same]
        exact .declared known (same ▸ there)
      · rw [if_neg same]
        exact .otherwise known there same

/-- How the check for finishing a node ends. -/
inductive FinishEnds (s : Schema) (kind : Kind) (attrs : Attrs) (count : String → Nat) :
    Except BuildError Unit → Prop
  | unregistered (unknown : s.get? kind = none) :
      FinishEnds s kind attrs count
        (.error (.located (.unregisteredKind kind s.kindNames) attrs.bounds?))
  | unfilled {spec : KindSpec} {name : String} (known : s.get? kind = some spec)
      (obligation : name ∈ spec.obligations) (none : count name = 0) :
      FinishEnds s kind attrs count (.error (.located (.unfilledRelation kind name) attrs.bounds?))
  | filled {spec : KindSpec} (known : s.get? kind = some spec)
      (all : ∀ name ∈ spec.obligations, count name ≠ 0) : FinishEnds s kind attrs count (.ok ())

/-- **How the check for finishing a node ends.** -/
theorem checkFinish_ends (s : Schema) (kind : Kind) (attrs : Attrs) (count : String → Nat) :
    FinishEnds s kind attrs count (s.checkFinish kind attrs count) := by
  rw [checkFinish, specOf]
  cases known : s.get? kind with
  | none => exact .unregistered known
  | some spec =>
    dsimp only
    cases first : spec.obligations.find? (count · == 0) with
    | some name =>
      have none := List.find?_some first
      exact .unfilled known (List.mem_of_find?_eq_some first) (by simpa using none)
    | none =>
      refine .filled known fun name hname => ?_
      simpa using List.find?_eq_none.1 first name hname

/-! ## Making a node -/

theorem checkMake_eq_ok_iff :
    s.checkMake kind attrs = .ok () ↔ ∃ spec, s.get? kind = some spec ∧ spec.Fits attrs := by
  constructor
  · intro h
    have ends := checkMake_ends s kind attrs
    rw [h] at ends
    cases ends with
    | fits known fits => exact ⟨_, known, fits⟩
  · rintro ⟨spec, known, fits⟩
    obtain ⟨range, required, accepted⟩ := fits_iff.1 fits
    rw [checkMake, specOf, known]
    dsimp only
    rw [range, required, accepted]

/-- **What may be made.** The check for making a node is passed exactly if the kind is registered
and the attributes fit its specification. It fails for an unknown kind exactly if the kind is not
registered, and in every other case for invalid attributes. So the input range that attributes have
when they pass is ordered, and in every state that an arena with the schema reaches all nodes have
such attributes. -/
theorem make_checked (s : Schema) (kind : Kind) (attrs : Attrs) :
    (s.checkMake kind attrs = .ok () ↔ ∃ spec, s.get? kind = some spec ∧ spec.Fits attrs) ∧
    ((∃ e, s.checkMake kind attrs = .error e ∧ e.cls = .unknownKind) ↔ s.get? kind = none) ∧
    (∀ e, s.checkMake kind attrs = .error e → s.get? kind ≠ none → e.cls = .invalidAttrs) ∧
    (s.checkMake kind attrs = .ok () → attrs.Ordered) ∧
    ∀ (calls : List (Call Handle)) (slot : Slot),
      slot ∈ ((Arena.builder Lens.whole).after calls (Arena.withSchema s)).slots →
        slot.attrs.Ordered := by
  have ordered : ∀ {kind attrs}, s.checkMake kind attrs = .ok () → attrs.Ordered := by
    intro kind attrs h
    obtain ⟨spec, -, fits⟩ := checkMake_eq_ok_iff.1 h
    exact fits.ordered
  refine ⟨checkMake_eq_ok_iff, ?_, ?_, ordered, ?_⟩
  · constructor
    · rintro ⟨e, he, hcls⟩
      have ends := checkMake_ends s kind attrs
      rw [he] at ends
      cases ends with
      | unregistered unknown => exact unknown
      | malformed => cases hcls
      | missing => cases hcls
      | unaccepted => cases hcls
    · intro unknown
      refine ⟨.located (.unregisteredKind kind s.kindNames) attrs.bounds?, ?_, rfl⟩
      rw [checkMake, specOf, unknown]
  · intro e he known
    have ends := checkMake_ends s kind attrs
    rw [he] at ends
    cases ends with
    | unregistered unknown => exact absurd unknown known
    | malformed => rfl
    | missing => rfl
    | unaccepted => rfl
  · intro calls slot hslot
    obtain ⟨⟨passed, -⟩, -⟩ := ((Arena.conforms_lasting s).throughout calls).1 slot hslot
    exact ordered passed

/-- A schema of one kind: a literal has a value and an input range, and may have a note. -/
def rangedLiterals : Schema :=
  Schema.empty.register "literal" (({} : KindSpec).require "value" |>.require "bounds"
    |>.allow "note")

/-- Attributes with two notes and two input ranges, of which the second one is not ordered. -/
def twiceRanged : Attrs :=
  ((∅ : Attrs).pushBounds ⟨2, 5⟩).push "note" .nil |>.push "value" .nil |>.push "note" .nil
    |>.pushBounds ⟨5, 2⟩

/-- They pass, since the first range counts; turned around they do not, nor for another kind. -/
theorem make_checked_twiceRanged :
    rangedLiterals.checkMake "literal" twiceRanged = .ok () ∧
      (∃ e, rangedLiterals.checkMake "operator" twiceRanged = .error e ∧ e.cls = .unknownKind) ∧
      ∀ e, rangedLiterals.checkMake "literal" ⟨twiceRanged.pairs.reverse⟩ = .error e →
        e.cls = .invalidAttrs := by
  obtain ⟨passes, -⟩ := make_checked rangedLiterals "literal" twiceRanged
  obtain ⟨-, unknown, -⟩ := make_checked rangedLiterals "operator" twiceRanged
  obtain ⟨-, -, invalid, -⟩ := make_checked rangedLiterals "literal" ⟨twiceRanged.pairs.reverse⟩
  refine ⟨passes.2 ⟨_, rfl, ?_, ?_, ?_⟩, unknown.2 rfl, fun e he => invalid e he (by decide)⟩
  · rintro v hv
    cases hv
    exact ⟨⟨2, 5⟩, rfl, by decide⟩
  · decide
  · decide

end Schema

end TreeProtocol
