import TreeProtocol.Proofs.Bundles

/-!
# Bundles under a change of nodes

Which right nodes a relation admits depends on relations and attributes only, never on what the
nodes are. So replacing every right node by its image commutes with all that is done to bundles:

* `attach_map` — attaching the image of a node to the images of bundles;
* `relations_map`, `names_map` — the relations stay, and so do their names;
* `wellFormed_map` — the representation invariant.
-/

namespace TreeProtocol.Bundle

variable {N M K : Type}

/-- The bundle with every right node replaced by its image. -/
def map (f : N → M) (b : Bundle N) : Bundle M := ⟨b.relation, b.rights.map fun r => (f r.1, r.2)⟩

@[simp] theorem map_relation (f : N → M) (b : Bundle N) : (b.map f).relation = b.relation := rfl

@[simp] theorem map_rights (f : N → M) (b : Bundle N) :
    (b.map f).rights = b.rights.map fun r => (f r.1, r.2) := rfl

@[simp] theorem map_args (f : N → M) (b : Bundle N) :
    (b.map f).rights.map (·.2) = b.rights.map (·.2) := by
  rw [map_rights, List.map_map]
  rfl

@[simp] theorem map_id : (map id : Bundle N → Bundle N) = id := by
  funext b
  cases b
  simp [map]

theorem map_congr {f g : N → M} {b : Bundle N} (h : ∀ r ∈ b.rights, f r.1 = g r.1) :
    b.map f = b.map g := by
  rw [map, map]
  congr 1
  refine List.map_congr_left fun r hr => ?_
  rw [h r hr]

theorem map_congr_all {f g : N → M} {bundles : List (Bundle N)}
    (h : ∀ b ∈ bundles, ∀ r ∈ b.rights, f r.1 = g r.1) :
    bundles.map (map f) = bundles.map (map g) :=
  List.map_congr_left fun b hb => map_congr (h b hb)

@[simp] theorem relations_map (f : N → M) (bundles : List (Bundle N)) :
    relations (bundles.map (map f)) = relations bundles := by
  rw [relations, relations, List.map_map]
  rfl

@[simp] theorem names_map (f : N → M) (bundles : List (Bundle N)) :
    (bundles.map (map f)).map (·.relation.name) = bundles.map (·.relation.name) := by
  rw [List.map_map]
  rfl

/-! ## Attaching -/

theorem start_map (f : N → M) (relation : Relation) (right : N) (args : Attrs) :
    start relation (f right) args = (start relation right args).map (map f) := by
  rw [start, start]
  cases relation.accept [] args <;> rfl

theorem extend_map (f : N → M) (b : Bundle N) (relation : Relation) (right : N) (args : Attrs)
    (span : Option Span) :
    (b.map f).extend relation (f right) args span =
      (b.extend relation right args span).map (map f) := by
  rw [extend, extend, map_relation, map_args]
  split
  · cases relation.accept (b.rights.map (·.2)) args with
    | error e => rfl
    | ok u => simp [map, Except.map]
  · rfl

/-- **Attaching does not look at nodes.** -/
theorem attach_map (f : N → M) (relation : Relation) (right : N) (args : Attrs)
    (span : Option Span) (bundles : List (Bundle N)) :
    attach relation (f right) args span (bundles.map (map f)) =
      (attach relation right args span bundles).map (List.map (map f)) := by
  induction bundles with
  | nil =>
    rw [List.map_nil, attach, attach, start_map]
    cases start relation right args <;> rfl
  | cons b more ih =>
    rw [List.map_cons, attach, attach, map_relation]
    split
    · rw [extend_map]
      cases b.extend relation right args span <;> rfl
    · rw [ih]
      cases attach relation right args span more <;> rfl

theorem wellFormed_map (f : N → M) {bundles : List (Bundle N)} :
    WellFormed (bundles.map (map f)) ↔ WellFormed bundles := by
  constructor
  · intro h
    refine ⟨?_, ?_, ?_⟩
    · rw [← names_map f]
      exact h.names
    · intro b hb hnil
      exact h.filled (b.map f) (List.mem_map_of_mem hb) (by rw [map_rights, hnil, List.map_nil])
    · intro b hb
      rw [← map_args f]
      exact h.accepted (b.map f) (List.mem_map_of_mem hb)
  · intro h
    refine ⟨?_, ?_, ?_⟩
    · rw [names_map]
      exact h.names
    · rw [List.forall_mem_map]
      intro b hb hnil
      exact h.filled b hb (List.map_eq_nil_iff.1 hnil)
    · rw [List.forall_mem_map]
      intro b hb
      rw [map_args, map_relation]
      exact h.accepted b hb

end TreeProtocol.Bundle
