import TreeProtocol.Proofs.Trees

/-!
# Normal forms of descriptions

A description of a tree is itself written as a tree, but freely: a relation may come up several
times, in any order, and without right nodes. In its normal form every relation is there once, at
the place of its first bundle that is not empty, with the right nodes of all bundles of its name.

* `gathered` — the bundles of a node in normal form;
* `eq_gathered_of_attached` — attaching one more right node to gathered bundles is the same as
  gathering one more bundle with this right node;
* `gathered_push`, `gathered_empty` — so a bundle can be gathered right node by right node;
* `Tree.normal` — the normal form of a description, all the way down.
-/

namespace TreeProtocol

/-! ## First of each name -/

namespace Relation

/-- The relations that are the first of their name, in order. -/
def firstNamed : List Relation → List Relation
  | [] => []
  | r :: more => r :: (firstNamed more).filter (·.name != r.name)

theorem name_mem_firstNamed {rs : List Relation} {name : String} :
    (∃ r ∈ firstNamed rs, r.name = name) ↔ ∃ r ∈ rs, r.name = name := by
  induction rs with
  | nil => rfl
  | cons q more ih =>
    rw [firstNamed]
    by_cases hq : q.name = name
    · simp [hq]
    · simp only [List.mem_cons, exists_eq_or_imp, hq, false_or, ← ih, List.mem_filter]
      constructor
      · rintro ⟨r, ⟨hr, -⟩, hname⟩
        exact ⟨r, hr, hname⟩
      · rintro ⟨r, hr, rfl⟩
        exact ⟨r, ⟨hr, by simpa using Ne.symm hq⟩, rfl⟩

theorem firstNamed_nodup (rs : List Relation) : ((firstNamed rs).map (·.name)).Nodup := by
  induction rs with
  | nil => exact List.nodup_nil
  | cons q more ih =>
    rw [firstNamed, List.map_cons, List.nodup_cons]
    constructor
    · simp
    · exact ih.sublist (List.filter_sublist.map _)

theorem firstNamed_new {rs : List Relation} {r : Relation} (h : ∀ q ∈ rs, q.name ≠ r.name) :
    firstNamed (rs ++ [r]) = firstNamed rs ++ [r] := by
  induction rs with
  | nil => rfl
  | cons q more ih =>
    obtain ⟨hq, hmore⟩ := List.forall_mem_cons.1 h
    have hkeep : [r].filter (·.name != q.name) = [r] := by simp [hq.symm]
    rw [List.cons_append, firstNamed, firstNamed, ih hmore, List.filter_append, hkeep,
      List.cons_append]

theorem firstNamed_known {rs : List Relation} {r : Relation} (h : ∃ q ∈ rs, q.name = r.name) :
    firstNamed (rs ++ [r]) = firstNamed rs := by
  induction rs with
  | nil =>
    obtain ⟨q, hq, -⟩ := h
    cases hq
  | cons q more ih =>
    rw [List.cons_append, firstNamed, firstNamed]
    by_cases hmore : ∃ p ∈ more, p.name = r.name
    · rw [ih hmore]
    · have hq : q.name = r.name := by
        obtain ⟨p, hp, heq⟩ := h
        rcases List.mem_cons.1 hp with rfl | hp'
        · exact heq
        · exact absurd ⟨p, hp', heq⟩ hmore
      have hnew : ∀ p ∈ more, p.name ≠ r.name := fun p hp heq => hmore ⟨p, hp, heq⟩
      have hdrop : [r].filter (·.name != q.name) = [] := by simp [hq]
      rw [firstNamed_new hnew, List.filter_append, hdrop, List.append_nil]

end Relation

namespace Bundle

variable {N : Type} {bundles : List (Bundle N)}

/-! ## Gathered bundles -/

/-- The relations that have right nodes, each once, in the order of their first right nodes. -/
def established (bundles : List (Bundle N)) : List Relation :=
  Relation.firstNamed (relations (bundles.filter (!·.isEmpty)))

/-- The bundles in normal form. -/
def gathered (bundles : List (Bundle N)) : List (Bundle N) :=
  (established bundles).map fun r => ⟨r, rightsUnder bundles r.name⟩

theorem rightsUnder_append (bundles : List (Bundle N)) (b : Bundle N) (name : String) :
    rightsUnder (bundles ++ [b]) name =
      rightsUnder bundles name ++ if b.relation.name = name then b.rights else [] := by
  rw [rightsUnder, rightsUnder, List.filter_append, List.flatMap_append]
  by_cases h : b.relation.name = name <;> simp [h]

theorem rightsUnder_eq_nil {name : String} (h : ∀ r ∈ established bundles, r.name ≠ name) :
    rightsUnder bundles name = [] := by
  rw [rightsUnder, List.flatMap_eq_nil_iff]
  intro b hb
  obtain ⟨hmem, hname⟩ := List.mem_filter.1 hb
  by_cases hempty : b.rights = []
  · exact hempty
  · have hrelation : b.relation ∈ relations (bundles.filter (!·.isEmpty)) := by
      refine List.mem_map_of_mem (List.mem_filter.2 ⟨hmem, ?_⟩)
      simpa [isEmpty] using hempty
    obtain ⟨r, hr, heq⟩ := Relation.name_mem_firstNamed.2 ⟨_, hrelation, eq_of_beq hname⟩
    exact absurd heq (h r hr)

theorem established_append (bundles : List (Bundle N)) (b : Bundle N) :
    established (bundles ++ [b]) = Relation.firstNamed
      (relations (bundles.filter (!·.isEmpty)) ++ if b.isEmpty then [] else [b.relation]) := by
  rw [established, List.filter_append, relations, List.map_append]
  cases hempty : b.isEmpty <;> simp [hempty, relations]

theorem established_append_known {b : Bundle N}
    (h : ∃ r ∈ established bundles, r.name = b.relation.name) :
    established (bundles ++ [b]) = established bundles := by
  rw [established_append]
  cases b.isEmpty with
  | true => rw [if_pos rfl, List.append_nil, established]
  | false =>
    rw [if_neg Bool.false_ne_true, established]
    exact Relation.firstNamed_known (Relation.name_mem_firstNamed.1 h)

theorem established_append_new {b : Bundle N} (hempty : b.isEmpty = false)
    (h : ∀ r ∈ established bundles, r.name ≠ b.relation.name) :
    established (bundles ++ [b]) = established bundles ++ [b.relation] := by
  rw [established_append, hempty, if_neg Bool.false_ne_true]
  refine Relation.firstNamed_new fun q hq heq => ?_
  obtain ⟨r, hr, hname⟩ := Relation.name_mem_firstNamed.2 ⟨q, hq, heq⟩
  exact h r hr hname

theorem gathered_nodup (bundles : List (Bundle N)) :
    ((gathered bundles).map (·.relation.name)).Nodup := by
  rw [gathered, List.map_map]
  exact Relation.firstNamed_nodup _

/-- A right node of an established relation is added to its bundle. -/
theorem gathered_append_known {relation : Relation} {right : N × Attrs}
    (h : ∃ r ∈ established bundles, r.name = relation.name) :
    gathered (bundles ++ [⟨relation, [right]⟩]) = (gathered bundles).map fun b =>
      ⟨b.relation, b.rights ++ if relation.name = b.relation.name then [right] else []⟩ := by
  have same : established (bundles ++ [⟨relation, [right]⟩]) = established bundles :=
    established_append_known h
  rw [gathered, same, gathered, List.map_map]
  exact List.map_congr_left fun r _ => by rw [rightsUnder_append]; rfl

theorem gathered_append_new {relation : Relation} {right : N × Attrs}
    (h : ∀ r ∈ established bundles, r.name ≠ relation.name) :
    gathered (bundles ++ [⟨relation, [right]⟩]) = gathered bundles ++ [⟨relation, [right]⟩] := by
  have more : established (bundles ++ [⟨relation, [right]⟩]) = established bundles ++ [relation] :=
    established_append_new rfl h
  rw [gathered, more, List.map_append, List.map_singleton, rightsUnder_append, if_pos rfl,
    rightsUnder_eq_nil h, List.nil_append, gathered]
  congr 1
  refine List.map_congr_left fun r hr => ?_
  rw [rightsUnder_append, if_neg (h r hr).symm, List.append_nil]

/-- **Attaching one more right node** to gathered bundles gathers one more bundle. -/
theorem eq_gathered_of_attached {relation : Relation} {right : N} {args : Attrs}
    {next : List (Bundle N)} (h : Attached relation right args (gathered bundles) next) :
    next = gathered (bundles ++ [⟨relation, [(right, args)]⟩]) := by
  have nodup := gathered_nodup bundles
  have known : ∀ b ∈ gathered bundles, b.relation ∈ established bundles := by
    intro b hb
    obtain ⟨r, hr, rfl⟩ := List.mem_map.1 hb
    exact hr
  generalize hg : gathered bundles = g at h nodup known
  cases h with
  | @joined before after rights others accepted =>
    have hmem : relation ∈ established bundles :=
      known ⟨relation, rights⟩ (List.mem_append_right _ List.mem_cons_self)
    rw [List.map_append, List.map_cons, List.nodup_append, List.nodup_cons] at nodup
    -- Names differ, so the bundle that is joined is the only one that grows.
    have behind : ∀ b ∈ after, relation.name ≠ b.relation.name := fun b hb heq =>
      nodup.2.1.1 (List.mem_map.2 ⟨b, hb, heq.symm⟩)
    have same : ∀ bs : List (Bundle N), (∀ b ∈ bs, relation.name ≠ b.relation.name) →
        (bs.map fun b => (⟨b.relation,
          b.rights ++ if relation.name = b.relation.name then [(right, args)] else []⟩ :
            Bundle N)) = bs := by
      intro bs hbs
      refine (List.map_congr_left fun b hb => ?_).trans (List.map_id' bs)
      rw [if_neg (hbs b hb), List.append_nil]
    rw [gathered_append_known ⟨relation, hmem, rfl⟩, hg, List.map_append, List.map_cons,
      same before fun b hb => (others b hb).symm, same after behind, if_pos rfl]
  | started others accepted =>
    subst hg
    refine (gathered_append_new fun r hr => ?_).symm
    exact others ⟨r, rightsUnder bundles r.name⟩ (List.mem_map_of_mem hr)

/-- A bundle is gathered right node by right node. -/
theorem gathered_push (bundles : List (Bundle N)) (relation : Relation)
    (rights : List (N × Attrs)) (right : N × Attrs) :
    gathered (bundles ++ [⟨relation, rights⟩] ++ [⟨relation, [right]⟩]) =
      gathered (bundles ++ [⟨relation, rights ++ [right]⟩]) := by
  have same : established (bundles ++ [⟨relation, rights⟩] ++ [⟨relation, [right]⟩]) =
      established (bundles ++ [⟨relation, rights ++ [right]⟩]) := by
    have hlast : ∀ xs : List (N × Attrs), xs ≠ [] → established (bundles ++ [⟨relation, xs⟩]) =
        Relation.firstNamed (relations (bundles.filter (!·.isEmpty)) ++ [relation]) := by
      intro xs hxs
      rw [established_append, if_neg (by simpa [isEmpty] using hxs)]
    rw [hlast _ (List.append_ne_nil_of_right_ne_nil _ (List.cons_ne_nil _ _))]
    by_cases hrights : rights = []
    · rw [hrights, established_append]
      simp [isEmpty]
    · rw [established_append_known, hlast _ hrights]
      rw [hlast _ hrights]
      exact Relation.name_mem_firstNamed.2
        ⟨relation, List.mem_append_right _ List.mem_cons_self, rfl⟩
  rw [gathered, same, gathered]
  refine List.map_congr_left fun r _ => ?_
  rw [rightsUnder_append, rightsUnder_append, rightsUnder_append]
  by_cases hname : relation.name = r.name <;> simp [hname]

/-- A bundle without right nodes does not show. -/
theorem gathered_empty (bundles : List (Bundle N)) (relation : Relation) :
    gathered (bundles ++ [⟨relation, []⟩]) = gathered bundles := by
  have same : established (bundles ++ [⟨relation, []⟩]) = established bundles := by
    rw [established_append, established]
    simp [isEmpty]
  rw [gathered, same, gathered]
  refine List.map_congr_left fun r _ => ?_
  rw [rightsUnder_append]
  simp

end Bundle

/-! ## Descriptions -/

namespace Tree

mutual

/-- The normal form of a description. -/
def normal : Tree → Tree
  | ⟨kind, attrs, bundles⟩ => ⟨kind, attrs, Bundle.gathered (normalBundles bundles)⟩

/-- The bundles of a description, with normal forms for right nodes. -/
def normalBundles : List (Bundle Tree) → List (Bundle Tree)
  | [] => []
  | ⟨relation, rights⟩ :: more => ⟨relation, normalRights rights⟩ :: normalBundles more

/-- The right nodes of a description in normal form. -/
def normalRights : List (Tree × Attrs) → List (Tree × Attrs)
  | [] => []
  | (t, args) :: more => (normal t, args) :: normalRights more

end

end Tree

end TreeProtocol
