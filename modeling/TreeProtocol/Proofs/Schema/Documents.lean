import Mathlib.Data.List.Forall2
import TreeProtocol.Proofs.Cardinality
import TreeProtocol.Proofs.KeyMap
import TreeProtocol.Schema.Json

/-!
# Schemas that are written and read

A schema is a map of specifications, and each of these has a map of cardinalities. Lists of texts
and truth values read back as they were written, so all depends on the cardinalities.

* `Json.map?_entries_eq_some_iff`: a map reads back exactly if each of its values does.
* `Json.of_map?`: what has been read as a map has only values that were read.
* `schema_documents`: a schema reads back exactly if its keys are neither empty nor padded, and a
  schema that was read always does, whatever the document looked like.
-/

namespace TreeProtocol

/-- Reading a list item by item yields the list of what each item is read as. -/
theorem mapM_eq_some_iff {α β : Type} {f : α → Option β} {xs : List α} {ys : List β} :
    xs.mapM f = some ys ↔ List.Forall₂ (fun x y => f x = some y) xs ys := by
  induction xs generalizing ys with
  | nil =>
    cases ys with
    | nil => simp
    | cons y ys => simp
  | cons x xs ih =>
    cases ys with
    | nil => simp [List.mapM_cons, Option.bind_eq_some_iff]
    | cons y ys =>
      rw [List.forall₂_cons, ← ih]
      simp only [List.mapM_cons, Option.bind_eq_bind, Option.bind_eq_some_iff, Option.pure_def,
        Option.some.injEq, List.cons.injEq]
      constructor
      · rintro ⟨y', hy, ys', hys, rfl, rfl⟩
        exact ⟨hy, hys⟩
      · rintro ⟨hy, hys⟩
        exact ⟨y, hy, ys, hys, rfl, rfl⟩

/-- Each item of the second of two matching lists has its partner in the first. -/
theorem exists_left_of_mem {α β : Type} {R : α → β → Prop} {xs : List α} {ys : List β}
    (h : List.Forall₂ R xs ys) {y : β} (hy : y ∈ ys) : ∃ x, R x y := by
  induction h with
  | nil => exact absurd hy List.not_mem_nil
  | cons hxy _ ih =>
    rcases List.mem_cons.1 hy with rfl | hy
    · exact ⟨_, hxy⟩
    · exact ih hy

namespace Json

variable {α : Type} {decode : Json → Option α}

theorem texts?_array (xs : List String) : texts? (.array (xs.map .text)) = some xs := by
  have hitems : List.Forall₂ (fun j s => text? j = some s) (xs.map .text) xs := by
    rw [List.forall₂_map_left_iff, List.forall₂_same]
    exact fun s _ => rfl
  exact mapM_eq_some_iff.2 hitems

/-- A member is read as the entry that keeps its key. -/
def readMember (decode : Json → Option α) (m : String × Json) : Option (String × α) :=
  (decode m.2).map (m.1, ·)

theorem readMember_eq_some_iff {m : String × Json} {e : String × α} :
    readMember decode m = some e ↔ m.1 = e.1 ∧ decode m.2 = some e.2 := by
  obtain ⟨key, value⟩ := e
  rw [readMember, Option.map_eq_some_iff]
  constructor
  · rintro ⟨v, hv, heq⟩
    cases heq
    exact ⟨rfl, hv⟩
  · rintro ⟨hkey, hvalue⟩
    exact ⟨value, hvalue, by rw [hkey]⟩

theorem map?_object_eq_some_iff {members : List (String × Json)} {m : KeyMap String α} :
    map? decode (.object members) = some m ↔
      ∃ es, List.Forall₂ (fun m e => readMember decode m = some e) members es ∧
        KeyMap.ofList es = m := by
  show (members.mapM (readMember decode)).map KeyMap.ofList = some m ↔ _
  rw [Option.map_eq_some_iff]
  simp only [mapM_eq_some_iff]

/-- The keys of the members are the keys of what is read. -/
theorem keys_eq_of_entries {members : List (String × Json)} {es : List (String × α)}
    (h : List.Forall₂ (fun m e => readMember decode m = some e) members es) :
    members.map (·.1) = es.map (·.1) := by
  rw [← List.forall₂_eq_eq_eq, List.forall₂_map_left_iff, List.forall₂_map_right_iff]
  exact h.imp fun m e he => (readMember_eq_some_iff.1 he).1

/-- **A map reads back exactly if each of its values does.** The members of its document come in
the order of the keys, so no member counts less than another. -/
theorem map?_entries_eq_some_iff (decode : Json → Option α) (encode : α → Json)
    (m : KeyMap String α) :
    map? decode (.object (m.entries.map fun e => (e.1, encode e.2))) = some m ↔
      ∀ e ∈ m.entries, decode (encode e.2) = some e.2 := by
  have hsame : List.Forall₂ (fun m e => readMember decode m = some e)
        (m.entries.map fun e => (e.1, encode e.2)) m.entries ↔
      ∀ e ∈ m.entries, decode (encode e.2) = some e.2 := by
    rw [List.forall₂_map_left_iff, List.forall₂_same]
    simp only [readMember_eq_some_iff, true_and]
  rw [map?_object_eq_some_iff, ← hsame]
  constructor
  · rintro ⟨es, hes, rfl⟩
    -- what is read has the keys of the map, so it is in order and nothing in it is dropped
    have hkeys : (KeyMap.ofList es).keys = es.map (·.1) := by
      rw [← keys_eq_of_entries hes, List.map_map]
      rfl
    have hsorted : (es.map (·.1)).Pairwise fun a b => compare a b = .lt := by
      rw [← hkeys]
      exact KeyMap.keys_pairwise _
    have hentries : (KeyMap.ofList es).entries = es :=
      KeyMap.entries_ofList (List.pairwise_map.1 hsorted)
    rw [hentries] at hes ⊢
    exact hes
  · intro h
    exact ⟨m.entries, h, KeyMap.ofList_entries m⟩

/-- The same for a record around the map, if different maps make different records. -/
theorem map_map?_eq_some_iff {β : Type} (decode : Json → Option α) (encode : α → Json)
    {wrap : KeyMap String α → β} (inj : Function.Injective wrap) (m : KeyMap String α) :
    (map? decode (.object (m.entries.map fun e => (e.1, encode e.2)))).map wrap = some (wrap m) ↔
      ∀ e ∈ m.entries, decode (encode e.2) = some e.2 := by
  rw [← map?_entries_eq_some_iff, Option.map_eq_some_iff]
  constructor
  · rintro ⟨read, hread, heq⟩
    rw [hread, inj heq]
  · intro hread
    exact ⟨m, hread, rfl⟩

/-- **What has been read as a map has only values that were read.** -/
theorem of_map? {j : Json} {m : KeyMap String α} (h : map? decode j = some m) {e : String × α}
    (he : e ∈ m.entries) : ∃ value, decode value = some e.2 := by
  cases j with
  | object members =>
    obtain ⟨es, hes, rfl⟩ := map?_object_eq_some_iff.1 h
    have hmem : e ∈ es := KeyMap.mem_of_mem_ofList he
    obtain ⟨member, hread⟩ := exists_left_of_mem hes hmem
    exact ⟨member.2, (readMember_eq_some_iff.1 hread).2⟩
  | _ => cases h

/-- The same for a map that may be missing, and has no values then. -/
theorem of_defaulted_map? {field : Option Json} {m : KeyMap String α}
    (h : Record.defaulted ∅ (map? decode) field = some m) {e : String × α} (he : e ∈ m.entries) :
    ∃ value, decode value = some e.2 := by
  cases field with
  | none =>
    have hm : (∅ : KeyMap String α) = m := Option.some.inj h
    rw [← hm] at he
    exact absurd he List.not_mem_nil
  | some j => exact of_map? h he

end Json

namespace Cardinality

theorem ofJson?_toJson_eq_some_iff (c : Cardinality) : ofJson? c.toJson = some c ↔ c.Canonical :=
  parse?_text_eq_some_iff c

theorem canonical_of_ofJson? {j : Json} {c : Cardinality} (h : ofJson? j = some c) :
    c.Canonical := by
  obtain ⟨s, -, hs⟩ := Option.bind_eq_some_iff.1 h
  exact canonical_of_parse? hs

end Cardinality

namespace KindSpec

/-- Every cardinality of the specification is one that its own text stands for. -/
def Canonical (s : KindSpec) : Prop := ∀ e ∈ s.relations.entries, e.2.Canonical

/-- What the document of a specification is read as depends on its relations alone. -/
theorem ofJson?_toJson (s : KindSpec) :
    ofJson? s.toJson =
      (Json.map? Cardinality.ofJson?
        (.object (s.relations.entries.map fun e => (e.1, e.2.toJson)))).map
          fun relations => { s with relations } := by
  have hfields : s.toJson.fields? ["required", "optional", "open", "relations"] =
      some [some (.array (s.required.map .text)), some (.array (s.optional.map .text)),
        some (.bool s.isOpen),
        some (.object (s.relations.entries.map fun e => (e.1, e.2.toJson)))] := rfl
  rw [ofJson?, hfields]
  simp only [Option.bind_eq_bind, Option.bind_some, Record.defaulted, Json.texts?_array,
    Json.bool?, Option.map_eq_bind]
  rfl

/-- **A specification reads back exactly if its cardinalities do.** -/
theorem ofJson?_toJson_eq_some_iff (s : KindSpec) : ofJson? s.toJson = some s ↔ s.Canonical := by
  have inj : Function.Injective fun relations => { s with relations } :=
    fun _ _ heq => congrArg relations heq
  have hmap :=
    Json.map_map?_eq_some_iff Cardinality.ofJson? Cardinality.toJson inj s.relations
  simp only [Cardinality.ofJson?_toJson_eq_some_iff] at hmap
  rw [ofJson?_toJson]
  exact hmap

/-- **A specification that was read has cardinalities that read back.** -/
theorem canonical_of_ofJson? {j : Json} {s : KindSpec} (h : ofJson? j = some s) :
    s.Canonical := by
  rw [ofJson?] at h
  obtain ⟨fields, -, h⟩ := Option.bind_eq_some_iff.1 h
  split at h
  · rename_i required optional isOpen relations
    simp only [Option.bind_eq_bind, Option.bind_eq_some_iff, Option.some.injEq] at h
    obtain ⟨_, -, _, -, _, -, read, hread, rfl⟩ := h
    intro e he
    obtain ⟨value, hvalue⟩ := Json.of_defaulted_map? hread he
    exact Cardinality.canonical_of_ofJson? hvalue
  · cases h

end KindSpec

namespace Schema

/-- Every cardinality of the schema is one that its own text stands for. -/
def Canonical (s : Schema) : Prop := ∀ e ∈ s.kinds.entries, e.2.Canonical

theorem canonical_iff (s : Schema) :
    s.Canonical ↔ ∀ kind spec name key, s.get? kind = some spec →
      spec.relations.find? name = some (.keyed key) → key ≠ "" ∧ Text.Bare key.toList := by
  simp only [get?, KeyMap.find?_eq_some_iff]
  constructor
  · intro h kind spec name key hspec hkey
    exact h (kind, spec) hspec (name, .keyed key) hkey
  · intro h e he r hr
    obtain ⟨name, c⟩ := r
    cases c with
    | keyed key => exact h e.1 e.2 name key he hr
    | _ => trivial

theorem ofJson?_toJson (s : Schema) :
    ofJson? s.toJson =
      (Json.map? KindSpec.ofJson?
        (.object (s.kinds.entries.map fun e => (e.1, e.2.toJson)))).map Schema.mk := by
  have hfields : s.toJson.fields? ["kinds"] =
      some [some (.object (s.kinds.entries.map fun e => (e.1, e.2.toJson)))] := rfl
  rw [ofJson?, hfields]
  simp only [Option.bind_eq_bind, Option.bind_some, Record.defaulted, Option.map_eq_bind]
  rfl

/-- **A schema reads back exactly if it is canonical.** -/
theorem ofJson?_toJson_eq_some_iff (s : Schema) : ofJson? s.toJson = some s ↔ s.Canonical := by
  have inj : Function.Injective Schema.mk := fun _ _ heq => congrArg kinds heq
  have hmap := Json.map_map?_eq_some_iff KindSpec.ofJson? KindSpec.toJson inj s.kinds
  simp only [KindSpec.ofJson?_toJson_eq_some_iff] at hmap
  rw [ofJson?_toJson]
  exact hmap

/-- **A schema that was read is canonical.** -/
theorem canonical_of_ofJson? {j : Json} {s : Schema} (h : ofJson? j = some s) : s.Canonical := by
  rw [ofJson?] at h
  obtain ⟨fields, -, h⟩ := Option.bind_eq_some_iff.1 h
  split at h
  · rename_i kinds
    simp only [Option.bind_eq_bind, Option.bind_eq_some_iff, Option.some.injEq] at h
    obtain ⟨read, hread, rfl⟩ := h
    intro e he
    obtain ⟨value, hvalue⟩ := Json.of_defaulted_map? hread he
    exact KindSpec.canonical_of_ofJson? hvalue
  · cases h

/-- **Schemas and their documents.** A schema reads back from its document exactly if the key of
every keyed cardinality in it is not empty and has no blank at its ends. A schema that was read
from any document, whatever the document leaves out, repeats or writes in another form, reads back
from its own. -/
theorem schema_documents :
    (∀ s : Schema, ofJson? s.toJson = some s ↔
        ∀ kind spec name key, s.get? kind = some spec →
          spec.relations.find? name = some (.keyed key) → key ≠ "" ∧ Text.Bare key.toList) ∧
      ∀ (j : Json) (s : Schema), ofJson? j = some s → ofJson? s.toJson = some s := by
  constructor
  · intro s
    rw [ofJson?_toJson_eq_some_iff, canonical_iff]
  · intro j s h
    exact (ofJson?_toJson_eq_some_iff s).2 (canonical_of_ofJson? h)

/-- A kind is given twice, the second time with the specification as an array, a short form and
blanks in the cardinalities. -/
def looseDocument : Json :=
  .object [
    ("note", .null),
    ("kinds", .object [
      ("pair", .object [("open", .bool true)]),
      ("pair", .array [
        .array [.text "size"], .array [], .bool false,
        .object [("left", .text " 1"), ("items", .text "keyed(\u3000id )\n")]])])]

/-- The kind of pairs, with items that are told apart by a keyword. -/
def pairsBy (key : String) : Schema :=
  empty.register "pair"
    ((({} : KindSpec).require "size").declare "left" .one |>.declare "items" (.keyed key))

theorem schema_documents_pairs :
    ofJson? looseDocument = some (pairsBy "id") ∧
      ofJson? (pairsBy "id").toJson = some (pairsBy "id") ∧
      ofJson? (pairsBy " id").toJson ≠ some (pairsBy " id") := by
  have hread : ofJson? looseDocument = some (pairsBy "id") := by decide +kernel
  refine ⟨hread, schema_documents.2 looseDocument (pairsBy "id") hread, ?_⟩
  intro hback
  have hkey := (schema_documents.1 (pairsBy " id")).1 hback "pair" _ "items" " id" rfl rfl
  exact absurd hkey.2 (by decide +kernel)

end Schema

end TreeProtocol
