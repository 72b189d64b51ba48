import TreeProtocol.Proofs.BundleMap
import TreeProtocol.Proofs.Calls
import TreeProtocol.Tree

/-!
# Trees that can be built

* `Tree.induction` — what passes from the right nodes of a tree to the tree holds of every tree;
* `Tree.height` — how deep a tree is, `1` for a tree without right nodes;
* `Tree.Obtained` — the trees that runs of calls of the builder of trees return;
* `Tree.Sound` — the representation invariant of bundles, at the tree and everywhere below it;
* `Obtained.sound` — every tree that can be obtained is sound.
-/

namespace TreeProtocol

/-- The nodes that a call is made with. -/
def Call.nodes {N : Type} : Call N → List N
  | .make .. => []
  | .relate _ left right _ => [left, right]
  | .finish _ node => [node]
  | .prepare => []
  | .close _ => []

namespace Tree

/-! ## Induction -/

theorem sizeOf_right_lt {t : Tree} {b : Bundle Tree} (hb : b ∈ t.bundles) {r : Tree × Attrs}
    (hr : r ∈ b.rights) : sizeOf r.1 < sizeOf t := by
  obtain ⟨kind, attrs, bundles⟩ := t
  obtain ⟨relation, rights⟩ := b
  obtain ⟨child, args⟩ := r
  have hbundle := List.sizeOf_lt_of_mem hb
  have hright := List.sizeOf_lt_of_mem hr
  simp only [Tree.mk.sizeOf_spec, Bundle.mk.sizeOf_spec, Prod.mk.sizeOf_spec] at *
  omega

/-- **Induction over trees**, with the right nodes of a tree as its predecessors. -/
@[elab_as_elim]
theorem induction {P : Tree → Prop}
    (node : ∀ t : Tree, (∀ b ∈ t.bundles, ∀ r ∈ b.rights, P r.1) → P t) (t : Tree) : P t :=
  node t fun _ hb r hr =>
    have := sizeOf_right_lt hb hr
    induction node r.1
termination_by sizeOf t

/-! ## Height -/

mutual

/-- The number of nodes on the longest way down. -/
def height : Tree → Nat
  | ⟨_, _, bundles⟩ => heightBundles bundles + 1

/-- The height of the highest right node, over several bundles. -/
def heightBundles : List (Bundle Tree) → Nat
  | [] => 0
  | ⟨_, rights⟩ :: more => max (heightRights rights) (heightBundles more)

/-- The height of the highest right node. -/
def heightRights : List (Tree × Attrs) → Nat
  | [] => 0
  | (t, _) :: more => max (height t) (heightRights more)

end

theorem height_le_heightRights {rights : List (Tree × Attrs)} {r : Tree × Attrs}
    (hr : r ∈ rights) : r.1.height ≤ heightRights rights := by
  induction rights with
  | nil => cases hr
  | cons p more ih =>
    obtain ⟨t, args⟩ := p
    rw [heightRights]
    rcases List.mem_cons.1 hr with rfl | hmem
    · exact Nat.le_max_left _ _
    · exact Nat.le_trans (ih hmem) (Nat.le_max_right _ _)

theorem height_le_heightBundles {bundles : List (Bundle Tree)} {b : Bundle Tree} (hb : b ∈ bundles)
    {r : Tree × Attrs} (hr : r ∈ b.rights) : r.1.height ≤ heightBundles bundles := by
  induction bundles with
  | nil => cases hb
  | cons c more ih =>
    obtain ⟨relation, rights⟩ := c
    rw [heightBundles]
    rcases List.mem_cons.1 hb with rfl | hmem
    · exact Nat.le_trans (height_le_heightRights hr) (Nat.le_max_left _ _)
    · exact Nat.le_trans (ih hmem) (Nat.le_max_right _ _)

theorem height_pos (t : Tree) : 0 < t.height := by
  obtain ⟨kind, attrs, bundles⟩ := t
  rw [height]
  omega

theorem height_lt {t : Tree} {b : Bundle Tree} (hb : b ∈ t.bundles) {r : Tree × Attrs}
    (hr : r ∈ b.rights) : r.1.height < t.height := by
  obtain ⟨kind, attrs, bundles⟩ := t
  rw [height]
  exact Nat.lt_succ_of_le (height_le_heightBundles hb hr)

theorem heightRights_le {n : Nat} {rights : List (Tree × Attrs)}
    (h : ∀ r ∈ rights, r.1.height ≤ n) : heightRights rights ≤ n := by
  induction rights with
  | nil => exact Nat.zero_le n
  | cons r more ih =>
    obtain ⟨hhead, hmore⟩ := List.forall_mem_cons.1 h
    rw [heightRights]
    exact Nat.max_le.2 ⟨hhead, ih hmore⟩

theorem heightBundles_le {n : Nat} {bundles : List (Bundle Tree)}
    (h : ∀ b ∈ bundles, ∀ r ∈ b.rights, r.1.height ≤ n) : heightBundles bundles ≤ n := by
  induction bundles with
  | nil => exact Nat.zero_le n
  | cons b more ih =>
    obtain ⟨hhead, hmore⟩ := List.forall_mem_cons.1 h
    rw [heightBundles]
    exact Nat.max_le.2 ⟨heightRights_le hhead, ih hmore⟩

/-- A tree is at most one higher than its right nodes. -/
theorem height_le {t : Tree} {n : Nat} (h : ∀ b ∈ t.bundles, ∀ r ∈ b.rights, r.1.height ≤ n) :
    t.height ≤ n + 1 := by
  obtain ⟨kind, attrs, bundles⟩ := t
  rw [height]
  exact Nat.succ_le_succ (heightBundles_le h)

/-! ## Trees that can be obtained -/

/-- A tree that a run of calls of the builder of trees can return: it is returned by a call that is
made with trees that were returned before. -/
inductive Obtained : Tree → Prop
  | returned {c : Call Tree} {t : Tree} (nodes : ∀ n ∈ c.nodes, Obtained n)
      (result : (c.on (builder (W := Unit)) ()).outcome = .done (some t)) : Obtained t

theorem map_done {α β : Type} {o : Outcome α} {f : α → β} {b : β} (h : o.map f = .done b) :
    ∃ a, o = .done a ∧ f a = b := by
  cases o with
  | done a => exact ⟨a, rfl, Outcome.done.inj h⟩
  | failed e => cases h
  | crashed => cases h

/-- What the calls that return a tree are, if `P` holds of the trees that they are made with. -/
theorem returned_cases {P : Tree → Prop} {c : Call Tree} {t : Tree} (nodes : ∀ n ∈ c.nodes, P n)
    (result : (c.on (builder (W := Unit)) ()).outcome = .done (some t)) :
    (∃ kind attrs, t = make kind attrs) ∨
      (∃ relation left right args, P left ∧ P right ∧ relate relation left right args = .ok t) ∨
      ∃ kind node, P node ∧ finish kind node = .ok t := by
  cases c with
  | make kind attrs =>
    rw [Call.on, Action.map_outcome] at result
    obtain ⟨a, ha, hsome⟩ := map_done result
    refine .inl ⟨kind, attrs, ?_⟩
    rw [← Option.some.inj hsome]
    exact (Outcome.done.inj ha).symm
  | relate relation left right args =>
    rw [Call.on, Action.map_outcome] at result
    obtain ⟨a, ha, hsome⟩ := map_done result
    have hleft : P left := nodes left (by simp [Call.nodes])
    have hright : P right := nodes right (by simp [Call.nodes])
    refine .inr (.inl ⟨relation, left, right, args, hleft, hright, ?_⟩)
    rw [← Option.some.inj hsome]
    exact Action.ofExcept_done ha
  | finish kind node =>
    rw [Call.on, Action.map_outcome] at result
    obtain ⟨a, ha, hsome⟩ := map_done result
    refine .inr (.inr ⟨kind, node, nodes node (by simp [Call.nodes]), ?_⟩)
    rw [← Option.some.inj hsome]
    exact Action.ofExcept_done ha
  | prepare =>
    rw [Call.on, Action.map_outcome] at result
    obtain ⟨a, -, hsome⟩ := map_done result
    cases hsome
  | close ending =>
    rw [Call.on, Action.map_outcome] at result
    obtain ⟨a, -, hsome⟩ := map_done result
    cases hsome

theorem obtained_make (kind : Kind) (attrs : Attrs) : Obtained (make kind attrs) :=
  .returned (c := .make kind attrs) (fun _ hn => nomatch hn) rfl

theorem Obtained.relate {relation : Relation} {left right t : Tree} {args : Attrs}
    (hleft : Obtained left) (hright : Obtained right)
    (h : Tree.relate relation left right args = .ok t) : Obtained t := by
  refine .returned (c := .relate relation left right args) ?_ ?_
  · simp [Call.nodes, hleft, hright]
  · rw [Call.on, Action.map_outcome]
    show Outcome.map some (Outcome.ofExcept (Tree.relate relation left right args)) = _
    rw [h]
    rfl

theorem relate_eq_ok_iff {relation : Relation} {left right t : Tree} {args : Attrs} :
    relate relation left right args = .ok t ↔
      ∃ bundles, Bundle.Attached relation right args left.bundles bundles ∧
        t = { left with bundles } := by
  simp only [← Bundle.attach_eq_ok_iff left.attrs.bounds?]
  rw [relate]
  cases Bundle.attach relation right args left.attrs.bounds? left.bundles with
  | error e => simp
  | ok bundles => simp [eq_comm]

theorem finish_eq_ok_iff {kind : Kind} {node t : Tree} :
    finish kind node = .ok t ↔ node.kind = kind ∧ t = node := by
  rw [finish]
  split <;> simp_all [eq_comm]

/-! ## Soundness -/

/-- The bundles of the tree are well-formed, and so are all bundles below it. -/
inductive Sound : Tree → Prop
  | node {t : Tree} (wellFormed : Bundle.WellFormed t.bundles)
      (rights : ∀ b ∈ t.bundles, ∀ r ∈ b.rights, Sound r.1) : Sound t

theorem Sound.wellFormed {t : Tree} (h : t.Sound) : Bundle.WellFormed t.bundles := by
  cases h with
  | node wellFormed => exact wellFormed

theorem Sound.right {t : Tree} (h : t.Sound) {b : Bundle Tree} (hb : b ∈ t.bundles)
    {r : Tree × Attrs} (hr : r ∈ b.rights) : r.1.Sound := by
  cases h with
  | node _ rights => exact rights b hb r hr

theorem sound_make (kind : Kind) (attrs : Attrs) : Sound (make kind attrs) :=
  .node Bundle.wellFormed_nil fun _ hb => nomatch hb

/-- **Attaching a sound tree keeps soundness.** -/
theorem Sound.attached {t right : Tree} {relation : Relation} {args : Attrs}
    {bundles : List (Bundle Tree)} (ht : t.Sound) (hright : right.Sound)
    (h : Bundle.Attached relation right args t.bundles bundles) :
    Sound { t with bundles } := by
  refine .node (h.wellFormed ht.wellFormed) ?_
  intro b hb r hr
  rcases h.mem hb hr with ⟨b', hb', hr'⟩ | rfl
  · exact ht.right hb' hr'
  · exact hright

/-- **Every tree that can be obtained is sound.** Induction on how it was obtained. -/
theorem Obtained.sound {t : Tree} (h : Obtained t) : t.Sound := by
  induction h with
  | returned nodes result ih =>
    rcases returned_cases ih result with
      ⟨kind, attrs, rfl⟩ | ⟨relation, left, right, args, hleft, hright, heq⟩ |
        ⟨kind, node, hnode, heq⟩
    · exact sound_make kind attrs
    · obtain ⟨bundles, attached, rfl⟩ := relate_eq_ok_iff.1 heq
      exact hleft.attached hright attached
    · rw [(finish_eq_ok_iff.1 heq).2]
      exact hnode

end Tree

end TreeProtocol
