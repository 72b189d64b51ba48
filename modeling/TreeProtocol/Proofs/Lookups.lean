import TreeProtocol.Proofs.Bundles

/-!
# What a look-up finds

A node finds the right nodes of a relation by its name, in the first bundle of that name. Attaching
is decided by this bundle alone, whatever else the node holds:

* `Bundle.Under` — what the relation finds under its name;
* `Attached.lookup` — an accepted right node comes last under the name of its relation;
* `Attached.find?_of_ne` — and nothing changes under other names;
* `Under.attached`, `Under.refused` — the right node is attached exactly if it is accepted.
-/

namespace TreeProtocol.Bundle

variable {N : Type} {relation : Relation} {right : N} {args : Attrs}
  {bundles next : List (Bundle N)} {existing : List Attrs} {name : String}

/-! ## Bundles in front -/

theorem find?_eq_none_iff : find? bundles name = none ↔ ∀ b ∈ bundles, b.relation.name ≠ name := by
  rw [find?, List.find?_eq_none]
  simp

theorem find?_append (xs ys : List (Bundle N)) (name : String) :
    find? (xs ++ ys) name = (find? xs name).or (find? ys name) :=
  List.find?_append

theorem find?_append_of_ne {before : List (Bundle N)}
    (others : ∀ b ∈ before, b.relation.name ≠ name) (rest : List (Bundle N)) :
    find? (before ++ rest) name = find? rest name := by
  rw [find?_append, find?_eq_none_iff.2 others, Option.none_or]

theorem find?_cons_self {b : Bundle N} (h : b.relation.name = name) (more : List (Bundle N)) :
    find? (b :: more) name = some b := by
  rw [find?, List.find?_cons_of_pos]
  simpa using h

theorem find?_cons_of_ne {b : Bundle N} (h : b.relation.name ≠ name) (more : List (Bundle N)) :
    find? (b :: more) name = find? more name := by
  rw [find?, List.find?_cons_of_neg]
  · rfl
  · simpa using h

/-- A bundle that is found stands behind bundles of other names. -/
theorem find?_eq_some_split {b : Bundle N} (h : find? bundles name = some b) :
    b.relation.name = name ∧ ∃ before after, bundles = before ++ b :: after ∧
      ∀ c ∈ before, c.relation.name ≠ name := by
  obtain ⟨hname, before, after, hsplit, others⟩ := List.find?_eq_some_iff_append.1 h
  exact ⟨by simpa using hname, before, after, hsplit, fun c hc => by simpa using others c hc⟩

/-! ## What the relation finds -/

/-- What the relation finds under its name: nothing, or what was attached under this very relation,
with these attributes. -/
inductive Under (relation : Relation) (bundles : List (Bundle N)) : List Attrs → Prop
  | nothing (new : find? bundles relation.name = none) : Under relation bundles []
  | bundle {rights : List (N × Attrs)}
      (found : find? bundles relation.name = some ⟨relation, rights⟩) :
      Under relation bundles (rights.map (·.2))

theorem Under.unique {other : List Attrs} (h : Under relation bundles existing)
    (k : Under relation bundles other) : existing = other := by
  cases h with
  | nothing new =>
    cases k with
    | nothing => rfl
    | bundle found => exact nomatch new.symm.trans found
  | bundle found =>
    cases k with
    | nothing new => exact nomatch found.symm.trans new
    | bundle found' => cases found.symm.trans found'; rfl

/-- **Looking up what was attached.** The right node comes last under the name of its relation,
which is listed as before, or last if there was nothing under its name. -/
theorem Attached.lookup (h : Attached relation right args bundles next) :
    (∃ rights, find? bundles relation.name = some ⟨relation, rights⟩ ∧
      relation.accept (rights.map (·.2)) args = .ok () ∧
      relations next = relations bundles ∧
      find? next relation.name = some ⟨relation, rights ++ [(right, args)]⟩) ∨
    (find? bundles relation.name = none ∧ relation.accept [] args = .ok () ∧
      relations next = relations bundles ++ [relation] ∧
      find? next relation.name = some ⟨relation, [(right, args)]⟩) := by
  cases h with
  | @joined before after rights others accepted =>
    refine .inl ⟨rights, ?_, accepted, ?_, ?_⟩
    · rw [find?_append_of_ne others, find?_cons_self rfl]
    · rw [relations, relations, List.map_append, List.map_append, List.map_cons, List.map_cons]
    · rw [find?_append_of_ne others, find?_cons_self rfl]
  | started others accepted =>
    refine .inr ⟨find?_eq_none_iff.2 others, accepted, ?_, ?_⟩
    · rw [relations, relations, List.map_append]
      rfl
    · rw [find?_append_of_ne others, find?_cons_self rfl]

/-- **Other names** find what they found before. -/
theorem Attached.find?_of_ne (h : Attached relation right args bundles next)
    (hne : relation.name ≠ name) : find? next name = find? bundles name := by
  cases h with
  | @joined before after rights others accepted =>
    rw [find?_append, find?_append, find?_cons_of_ne hne, find?_cons_of_ne hne]
  | started others accepted =>
    rw [find?_append, find?_cons_of_ne hne]
    exact Option.or_none

theorem Attached.under (h : Attached relation right args bundles next) :
    ∃ existing, Under relation bundles existing ∧ relation.accept existing args = .ok () ∧
      Under relation next (existing ++ [args]) := by
  rcases h.lookup with ⟨rights, found, accepted, -, last⟩ | ⟨new, accepted, -, first⟩
  · refine ⟨_, .bundle found, accepted, ?_⟩
    have hunder := Under.bundle last
    rwa [List.map_append] at hunder
  · exact ⟨[], .nothing new, accepted, .bundle first⟩

/-! ## Whether a right node is attached -/

/-- **What is accepted is attached.** -/
theorem Under.attached (h : Under relation bundles existing)
    (accepted : relation.accept existing args = .ok ()) (right : N) :
    ∃ next, Attached relation right args bundles next := by
  cases h with
  | nothing new => exact ⟨_, .started (find?_eq_none_iff.1 new) accepted⟩
  | bundle found =>
    obtain ⟨-, before, after, rfl, others⟩ := find?_eq_some_split found
    exact ⟨_, .joined others accepted⟩

/-- **What is refused is not attached**, and the error says why. -/
theorem Under.refused {e : BuildError} (h : Under relation bundles existing)
    (refused : relation.accept existing args = .error e) (right : N) (span : Option Span) :
    attach relation right args span bundles = .error e := by
  cases h with
  | nothing new =>
    rw [attach_of_new (find?_eq_none_iff.1 new), start, refused]
    rfl
  | bundle found =>
    obtain ⟨-, before, after, rfl, others⟩ := find?_eq_some_split found
    rw [attach_of_there others rfl, extend, if_pos rfl, refused]
    rfl

end TreeProtocol.Bundle
