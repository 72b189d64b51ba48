import TreeProtocol.Counting
import TreeProtocol.Proofs.Arena.Outcomes
import TreeProtocol.Proofs.Composites

/-!
# Where the nodes of a description go

A description is built in an arena that may have nodes already. Its nodes are then the nodes behind
them, in depth-first order, since a node is made before the right nodes that belong to it, and these
are made one after the other, each with everything below it.

* `Tree.nodes` — the nodes of a description in depth-first order;
* `Tree.slotAt` — the slot of a node of a description, by its position: its right nodes are numbered
  from the next position on;
* `Tree.nodes_split` — behind every node of a description come those below it;
* `Begun` — how far building a node has come, as the right nodes are built and related;
* `build_allocates` — what the arena and the counts of calls are after a description was built.
-/

namespace TreeProtocol

open TreeProtocol.Action

/-! ## The nodes of a description -/

namespace Tree

mutual

/-- The nodes of a description, each before what is below it. -/
def nodes : Tree → List Tree
  | ⟨kind, attrs, bundles⟩ => ⟨kind, attrs, bundles⟩ :: nodesOfBundles bundles

/-- The right nodes of several relations, with everything below them. -/
def nodesOfBundles : List (Bundle Tree) → List Tree
  | [] => []
  | ⟨_, rights⟩ :: more => nodesOfRights rights ++ nodesOfBundles more

/-- Right nodes with everything below them. -/
def nodesOfRights : List (Tree × Attrs) → List Tree
  | [] => []
  | (t, _) :: more => nodes t ++ nodesOfRights more

end

/-- The right nodes of all relations. -/
def rights (t : Tree) : List (Tree × Attrs) := t.bundles.flatMap (·.rights)

/-- Handles for right nodes, if the first of them is at the position and each comes with everything
below it. -/
def numberedRights (first : Nat) : List (Tree × Attrs) → List (Handle × Attrs)
  | [] => []
  | (t, args) :: more => (⟨first⟩, args) :: numberedRights (first + t.nodes.length) more

/-- The same for the right nodes of several relations. -/
def numberedBundles (first : Nat) : List (Bundle Tree) → List (Bundle Handle)
  | [] => []
  | ⟨relation, rights⟩ :: more =>
    ⟨relation, numberedRights first rights⟩ ::
      numberedBundles (first + (nodesOfRights rights).length) more

/-- The handles of the right nodes of a node at the position, relation by relation. -/
def rightHandles (position : Nat) (t : Tree) : List Handle :=
  (numberedBundles (position + 1) t.bundles).flatMap fun b => b.rights.map (·.1)

/-- The slot of a node of a description at the position, after it was finished. -/
def slotAt (position : Nat) (t : Tree) : Slot :=
  { kind := t.kind
    attrs := t.attrs
    bundles := Bundle.gathered (numberedBundles (position + 1) t.bundles)
    finished := true }

/-- The slots of nodes at consecutive positions. -/
def slotsFrom (first : Nat) (nodes : List Tree) : List Slot :=
  nodes.mapIdx fun i t => t.slotAt (first + i)

variable {t : Tree} {nodes more : List Tree} {first : Nat}

theorem nodes_eq (t : Tree) : t.nodes = t :: nodesOfBundles t.bundles := by
  obtain ⟨kind, attrs, bundles⟩ := t
  rw [Tree.nodes]

theorem nodes_length (t : Tree) : t.nodes.length = (nodesOfBundles t.bundles).length + 1 := by
  rw [nodes_eq, List.length_cons]

theorem slotsFrom_length (first : Nat) (nodes : List Tree) :
    (slotsFrom first nodes).length = nodes.length :=
  List.length_mapIdx

theorem slotsFrom_cons :
    slotsFrom first (t :: more) = t.slotAt first :: slotsFrom (first + 1) more := by
  rw [slotsFrom, List.mapIdx_cons, slotsFrom]
  simp only [Nat.add_zero, Nat.add_assoc, Nat.add_comm 1]

theorem slotsFrom_append :
    slotsFrom first (nodes ++ more) =
      slotsFrom first nodes ++ slotsFrom (first + nodes.length) more := by
  rw [slotsFrom, List.mapIdx_append, slotsFrom, slotsFrom]
  simp only [Nat.add_assoc, Nat.add_comm nodes.length]

theorem nodesOfRights_append (xs ys : List (Tree × Attrs)) :
    nodesOfRights (xs ++ ys) = nodesOfRights xs ++ nodesOfRights ys := by
  induction xs with
  | nil => rfl
  | cons x more ih => rw [List.cons_append, nodesOfRights, nodesOfRights, ih, List.append_assoc]

theorem nodesOfBundles_eq (bundles : List (Bundle Tree)) :
    nodesOfBundles bundles = nodesOfRights (bundles.flatMap (·.rights)) := by
  induction bundles with
  | nil => rfl
  | cons b more ih =>
    rw [nodesOfBundles, ih, List.flatMap_cons, nodesOfRights_append]

theorem numberedRights_append (first : Nat) (xs ys : List (Tree × Attrs)) :
    numberedRights first (xs ++ ys) =
      numberedRights first xs ++ numberedRights (first + (nodesOfRights xs).length) ys := by
  induction xs generalizing first with
  | nil => rfl
  | cons x more ih =>
    rw [List.cons_append, numberedRights, ih, numberedRights, nodesOfRights, List.length_append,
      Nat.add_assoc, List.cons_append]

/-- Right nodes are numbered across relations. -/
theorem rightHandles_eq (position : Nat) (t : Tree) :
    t.rightHandles position = (numberedRights (position + 1) t.rights).map (·.1) := by
  have flat : ∀ (bundles : List (Bundle Tree)) (first : Nat),
      ((numberedBundles first bundles).flatMap fun b => b.rights.map (·.1)) =
        (numberedRights first (bundles.flatMap (·.rights))).map (·.1) := by
    intro bundles
    induction bundles with
    | nil => exact fun _ => rfl
    | cons b more ih =>
      intro first
      rw [numberedBundles, List.flatMap_cons, ih, List.flatMap_cons, numberedRights_append,
        List.map_append]
  exact flat t.bundles (position + 1)

/-- The nodes below one of several right nodes are one piece of all of them. -/
theorem nodesOfRights_split {rights : List (Tree × Attrs)}
    (ih : ∀ r ∈ rights, ∀ (i : Nat) (t : Tree), r.1.nodes[i]? = some t →
      ∃ before after, r.1.nodes = before ++ (t.nodes ++ after) ∧ before.length = i)
    (i : Nat) (t : Tree) (h : (nodesOfRights rights)[i]? = some t) :
    ∃ before after, nodesOfRights rights = before ++ (t.nodes ++ after) ∧ before.length = i := by
  induction rights generalizing i with
  | nil => cases h
  | cons r more ihmore =>
    obtain ⟨hhead, hmore⟩ := List.forall_mem_cons.1 ih
    rw [nodesOfRights] at h ⊢
    by_cases hi : i < r.1.nodes.length
    · rw [List.getElem?_append_left hi] at h
      obtain ⟨before, after, heq, hlength⟩ := hhead i t h
      refine ⟨before, after ++ nodesOfRights more, ?_, hlength⟩
      rw [heq, List.append_assoc, List.append_assoc]
    · rw [List.getElem?_append_right (Nat.le_of_not_lt hi)] at h
      obtain ⟨before, after, heq, hlength⟩ := ihmore hmore (i - r.1.nodes.length) h
      refine ⟨r.1.nodes ++ before, after, ?_, ?_⟩
      · rw [heq, List.append_assoc]
      · rw [List.length_append, hlength]
        omega

/-- **Behind every node come the nodes below it.** -/
theorem nodes_split (d : Tree) (i : Nat) (t : Tree) (h : d.nodes[i]? = some t) :
    ∃ before after, d.nodes = before ++ (t.nodes ++ after) ∧ before.length = i := by
  induction d using Tree.induction generalizing i t with
  | node d ih =>
    cases i with
    | zero =>
      rw [nodes_eq] at h
      obtain rfl : d = t := Option.some.inj h
      exact ⟨[], [], (List.append_nil _).symm, rfl⟩
    | succ i =>
      rw [nodes_eq, List.getElem?_cons_succ, nodesOfBundles_eq] at h
      have parts : ∀ r ∈ d.rights, ∀ (i : Nat) (t : Tree), r.1.nodes[i]? = some t →
          ∃ before after, r.1.nodes = before ++ (t.nodes ++ after) ∧ before.length = i := by
        intro r hr
        obtain ⟨b, hb, hr⟩ := List.mem_flatMap.1 hr
        exact ih b hb r hr
      obtain ⟨before, after, heq, hlength⟩ := nodesOfRights_split parts i t h
      refine ⟨d :: before, after, ?_, congrArg (· + 1) hlength⟩
      rw [nodes_eq, nodesOfBundles_eq, List.cons_append]
      exact congrArg (d :: ·) heq

/-- The handles of right nodes ascend. -/
theorem numberedRights_ascend (first : Nat) (rights : List (Tree × Attrs)) :
    (∀ h ∈ numberedRights first rights, first ≤ h.1.index) ∧
      (numberedRights first rights).Pairwise fun g h => g.1.index < h.1.index := by
  induction rights generalizing first with
  | nil => exact ⟨(fun h hh => nomatch hh), List.Pairwise.nil⟩
  | cons r more ih =>
    obtain ⟨t, args⟩ := r
    obtain ⟨later, ascend⟩ := ih (first + t.nodes.length)
    have behind : ∀ h ∈ numberedRights (first + t.nodes.length) more, first < h.1.index := by
      intro h hh
      have := later h hh
      have := nodes_length t
      omega
    rw [numberedRights]
    exact ⟨List.forall_mem_cons.2 ⟨Nat.le_refl _, fun h hh => Nat.le_of_lt (behind h hh)⟩,
      List.pairwise_cons.2 ⟨behind, ascend⟩⟩

/-- From the position on, the slots are those of the nodes. -/
def LaidOut (slots : List Slot) (position : Nat) (nodes : List Tree) : Prop :=
  slotsFrom position nodes <+: slots.drop position

theorem LaidOut.left {slots : List Slot} {position : Nat}
    (h : LaidOut slots position (nodes ++ more)) : LaidOut slots position nodes := by
  rw [LaidOut, slotsFrom_append] at h
  exact (List.prefix_append _ _).trans h

theorem LaidOut.right {slots : List Slot} {position : Nat}
    (h : LaidOut slots position (nodes ++ more)) :
    LaidOut slots (position + nodes.length) more := by
  rw [LaidOut, slotsFrom_append] at h
  obtain ⟨rest, heq⟩ := h
  refine ⟨rest, ?_⟩
  rw [List.append_assoc] at heq
  rw [← List.drop_drop, ← heq, ← slotsFrom_length position nodes, List.drop_left]

theorem LaidOut.there {slots : List Slot} {position : Nat}
    (h : LaidOut slots position t.nodes) : slots[position]? = some (t.slotAt position) := by
  rw [LaidOut, nodes_eq, slotsFrom_cons] at h
  obtain ⟨rest, heq⟩ := h
  have first := congrArg (·[0]?) heq
  rw [List.getElem?_drop] at first
  exact first.symm

/-- In slots where right nodes are laid out with everything below them, each is at its handle. -/
theorem LaidOut.numbered {slots : List Slot} (rights : List (Tree × Attrs))
    (h : LaidOut slots first (nodesOfRights rights)) :
    List.Forall₂ (fun h r => slots[h.1.index]? = some (r.1.slotAt h.1.index))
      (numberedRights first rights) rights := by
  induction rights generalizing first with
  | nil => exact .nil
  | cons r more ih =>
    obtain ⟨t, args⟩ := r
    exact .cons h.left.there (ih h.right)

end Tree

/-! ## Building -/

/-- The counts after more calls of the construction operations. -/
def Calls.built (c : Calls) (make relate finish : Nat) : Calls :=
  { c with make := c.make + make, relate := c.relate + relate, finish := c.finish + finish }

namespace Arena

/-- The builder of an arena that counts its calls. -/
def countedBuilder : Builder (Arena × Calls) Handle := .counted Lens.snd (builder Lens.fst)

variable {a : Arena} {w w' w'' : Arena × Calls} {kind : Kind} {attrs args : Attrs}
  {relation : Relation} {slot next : Slot} {below : List Tree} {d t : Tree} {n : Handle}

theorem slot?_between {before after : List Slot} (slots : a.slots = before ++ slot :: after) :
    a.slot? ⟨before.length⟩ = some slot := by
  rw [slot?, slots, List.getElem?_append_right (Nat.le_refl _), Nat.sub_self]
  rfl

theorem setSlot_between {before after : List Slot} (slots : a.slots = before ++ slot :: after)
    (h : Handle) (next : Slot) :
    ((a.touch h).setSlot ⟨before.length⟩ next).slots = before ++ next :: after := by
  rw [setSlot, slots_touch, slots, List.set_append_right _ _ (Nat.le_refl _), Nat.sub_self]
  rfl

/-- Since `w`, a node was made, which has the slot, and the nodes below it were built, each with one
relation that led to it. -/
structure Begun (w : Arena × Calls) (slot : Slot) (below : List Tree) (w' : Arena × Calls) :
    Prop where
  slots : w'.1.slots = w.1.slots ++ slot :: Tree.slotsFrom (w.1.size + 1) below
  calls : w'.2 = w.2.built (below.length + 1) below.length below.length

/-- Since `w`, the description was built. No relation leads to its root. -/
structure Allocated (w : Arena × Calls) (d : Tree) (w' : Arena × Calls) : Prop where
  slots : w'.1.slots = w.1.slots ++ Tree.slotsFrom w.1.size d.nodes
  calls : w'.2 = w.2.built d.nodes.length (d.nodes.length - 1) d.nodes.length

theorem Begun.size (h : Begun w slot below w') : w'.1.size = w.1.size + 1 + below.length := by
  rw [Arena.size, h.slots, List.length_append, List.length_cons, Tree.slotsFrom_length, Arena.size]
  omega

/-- A node that was made is the next one. -/
theorem begun_make (done : (countedBuilder.make kind attrs w).outcome = .done n) :
    n = ⟨w.1.size⟩ ∧
      Begun w { kind, attrs } [] (countedBuilder.make kind attrs w).state := by
  have outcome : (make kind attrs w.1).outcome = .done n := done
  have state : (countedBuilder.make kind attrs w).state =
      ((make kind attrs w.1).state, w.2.built 1 0 0) := rfl
  rw [state]
  rcases make_cases w.1 kind attrs with ⟨e, heq⟩ | heq
  · rw [heq] at outcome
    cases outcome
  · rw [heq] at outcome ⊢
    exact ⟨(Outcome.done.inj outcome).symm, rfl, rfl⟩

/-- **One more right node.** It was built behind everything else, and related to the node. -/
theorem Begun.relate (h : Begun w slot below w') (ht : Allocated w' t w'')
    (done : (countedBuilder.relate relation ⟨w.1.size⟩ ⟨w'.1.size⟩ args w'').outcome = .done n) :
    n = ⟨w.1.size⟩ ∧ ∃ bundles,
      Bundle.Attached relation ⟨w'.1.size⟩ args slot.bundles bundles ∧
      Begun w { slot with bundles } (below ++ t.nodes)
        (countedBuilder.relate relation ⟨w.1.size⟩ ⟨w'.1.size⟩ args w'').state := by
  have outcome : (Arena.relate relation ⟨w.1.size⟩ ⟨w'.1.size⟩ args w''.1).outcome = .done n := done
  have state : (countedBuilder.relate relation ⟨w.1.size⟩ ⟨w'.1.size⟩ args w'').state =
      ((Arena.relate relation ⟨w.1.size⟩ ⟨w'.1.size⟩ args w''.1).state, w''.2.built 0 1 0) := rfl
  have slots : w''.1.slots =
      w.1.slots ++ slot :: Tree.slotsFrom (w.1.size + 1) (below ++ t.nodes) := by
    rw [ht.slots, h.slots, h.size, Tree.slotsFrom_append, List.append_assoc, List.cons_append]
  have there : w''.1.slot? ⟨w.1.size⟩ = some slot := slot?_between slots
  obtain ⟨rfl, slot', bundles, there', -, -, -, attached, related⟩ := relate_done outcome
  obtain rfl : slot = slot' := Option.some.inj (there.symm.trans there')
  refine ⟨rfl, bundles, attached, ?_⟩
  rw [state, related]
  refine ⟨setSlot_between slots _ _, ?_⟩
  -- The relation to the right node makes up for its root, to which none led before.
  have positive := Tree.nodes_length t
  rw [ht.calls, h.calls, List.length_append]
  simp only [Calls.built, Calls.mk.injEq, and_true]
  omega

/-- **Finishing** the node completes the description. -/
theorem Begun.finish {bundles : List (Bundle Tree)}
    (h : Begun w ⟨kind, attrs, Bundle.gathered (Tree.numberedBundles (w.1.size + 1) bundles), false⟩
      (Tree.nodesOfBundles bundles) w')
    (done : (countedBuilder.finish kind ⟨w.1.size⟩ w').outcome = .done n) :
    n = ⟨w.1.size⟩ ∧ Allocated w ⟨kind, attrs, bundles⟩
      (countedBuilder.finish kind ⟨w.1.size⟩ w').state := by
  have outcome : (Arena.finish kind ⟨w.1.size⟩ w'.1).outcome = .done n := done
  have state : (countedBuilder.finish kind ⟨w.1.size⟩ w').state =
      ((Arena.finish kind ⟨w.1.size⟩ w'.1).state, w'.2.built 0 0 1) := rfl
  have there := slot?_between h.slots
  rcases finish_cases w'.1 kind ⟨w.1.size⟩ with ⟨e, heq⟩ | ⟨slot, there', -, heq⟩
  · rw [heq] at outcome
    cases outcome
  · obtain rfl := Option.some.inj (there.symm.trans there')
    rw [heq] at outcome
    refine ⟨(Outcome.done.inj outcome).symm, ?_⟩
    rw [state, heq]
    constructor
    · rw [Tree.nodes_eq, Tree.slotsFrom_cons]
      exact setSlot_between h.slots _ _
    · rw [h.calls, Tree.nodes_length]
      rfl

/-- The right nodes of one relation, one by one. Those in `before` are attached already. -/
theorem Begun.attachRights {done : List (Bundle Handle)} (rights : List (Tree × Attrs))
    (ih : ∀ r ∈ rights, ∀ w n, (countedBuilder.build r.1 w).outcome = .done n →
      n = ⟨w.1.size⟩ ∧ Allocated w r.1 (countedBuilder.build r.1 w).state)
    {before : List (Handle × Attrs)}
    (h : Begun w ⟨kind, attrs, Bundle.gathered (done ++ [⟨relation, before⟩]), false⟩ below w')
    (hdone : (countedBuilder.attachRights relation (countedBuilder.supplies rights) ⟨w.1.size⟩
      w').outcome = .done n) :
    n = ⟨w.1.size⟩ ∧ Begun w
      ⟨kind, attrs, Bundle.gathered (done ++ [⟨relation, before ++
        Tree.numberedRights (w.1.size + 1 + below.length) rights⟩]), false⟩
      (below ++ Tree.nodesOfRights rights)
      (countedBuilder.attachRights relation (countedBuilder.supplies rights) ⟨w.1.size⟩
        w').state := by
  induction rights generalizing before below w' with
  | nil =>
    rw [Builder.supplies, Builder.attachRights] at hdone ⊢
    rw [Tree.numberedRights, Tree.nodesOfRights, List.append_nil, List.append_nil]
    exact ⟨(Outcome.done.inj hdone).symm, h⟩
  | cons right more ihmore =>
    obtain ⟨t, args⟩ := right
    obtain ⟨hhead, htail⟩ := List.forall_mem_cons.1 ih
    rw [Builder.supplies, Builder.attachRights] at hdone ⊢
    obtain ⟨produced, hproduced, hdone, hstate⟩ := done_of_bind hdone
    obtain ⟨related, hrelated, hdone, hstate'⟩ := done_of_bind hdone
    rw [hstate, hstate']
    obtain ⟨rfl, allocated⟩ := hhead w' produced hproduced
    obtain ⟨rfl, bundles, attached, begun⟩ := h.relate allocated hrelated
    -- The invariant: the bundle of this relation is gathered as far as it is filled.
    have hgathered := Bundle.eq_gathered_of_attached attached
    rw [Bundle.gathered_push, h.size] at hgathered
    rw [hgathered] at begun
    have := ihmore htail begun hdone
    rw [Tree.numberedRights, Tree.nodesOfRights]
    rwa [List.append_assoc, List.append_assoc, List.length_append, ← Nat.add_assoc] at this

/-- The relations one by one. The bundles in `done` are there already, gathered. -/
theorem Begun.attachPlans (bundles : List (Bundle Tree))
    (ih : ∀ b ∈ bundles, ∀ r ∈ b.rights, ∀ w n, (countedBuilder.build r.1 w).outcome = .done n →
      n = ⟨w.1.size⟩ ∧ Allocated w r.1 (countedBuilder.build r.1 w).state)
    {done : List (Bundle Handle)}
    (h : Begun w ⟨kind, attrs, Bundle.gathered done, false⟩ below w')
    (hdone : (countedBuilder.attachPlans kind (countedBuilder.plans bundles) ⟨w.1.size⟩
      w').outcome = .done n) :
    n = ⟨w.1.size⟩ ∧ Begun w
      ⟨kind, attrs, Bundle.gathered (done ++
        Tree.numberedBundles (w.1.size + 1 + below.length) bundles), false⟩
      (below ++ Tree.nodesOfBundles bundles)
      (countedBuilder.attachPlans kind (countedBuilder.plans bundles) ⟨w.1.size⟩ w').state := by
  induction bundles generalizing done below w' with
  | nil =>
    rw [Builder.plans, Builder.attachPlans] at hdone ⊢
    rw [Tree.numberedBundles, Tree.nodesOfBundles, List.append_nil, List.append_nil]
    exact ⟨(Outcome.done.inj hdone).symm, h⟩
  | cons b more ihmore =>
    obtain ⟨relation, rights⟩ := b
    obtain ⟨hhead, htail⟩ := List.forall_mem_cons.1 ih
    rw [Builder.plans, Builder.attachPlans] at hdone ⊢
    obtain ⟨_, _, hdone, hstate⟩ := done_of_bind hdone
    obtain ⟨filled, hfilled, hdone, hstate'⟩ := done_of_bind hdone
    rw [hstate, hstate']
    rw [← Bundle.gathered_empty done relation] at h
    obtain ⟨rfl, begun⟩ := h.attachRights rights hhead hfilled
    have := ihmore htail begun hdone
    rw [Tree.numberedBundles, Tree.nodesOfBundles]
    rwa [List.nil_append, List.append_assoc, List.append_assoc, List.length_append,
      ← Nat.add_assoc] at this

/-- What was built is laid out from the end of the arena on. Induction over the description. -/
theorem allocated_build (d : Tree) (w : Arena × Calls) (n : Handle)
    (done : (countedBuilder.build d w).outcome = .done n) :
    n = ⟨w.1.size⟩ ∧ Allocated w d (countedBuilder.build d w).state := by
  induction d using Tree.induction generalizing w n with
  | node d ih =>
    obtain ⟨kind, attrs, bundles⟩ := d
    rw [Builder.build, Builder.composite] at done ⊢
    obtain ⟨_, _, done, hstate⟩ := done_of_bind done
    obtain ⟨made, hmade, done, hstate'⟩ := done_of_bind done
    obtain ⟨filled, hfilled, done, hstate''⟩ := done_of_bind done
    rw [hstate, hstate', hstate'']
    obtain ⟨rfl, begun⟩ := begun_make hmade
    have gathered : Begun w ⟨kind, attrs, Bundle.gathered [], false⟩ [] _ := begun
    obtain ⟨rfl, filled⟩ := gathered.attachPlans bundles (fun b hb r hr => ih b hb r hr) hfilled
    rw [List.nil_append, List.nil_append] at filled
    exact filled.finish done

/-- **Where the nodes of a description go.** If building a description of `k` nodes is done, in
whatever state of the arena, its nodes are the next `k` nodes of the arena, in depth-first order,
and the result is the first of them. Each is finished, as described, and comes before its right
nodes, which are numbered in the order described. The slots of all older nodes are as they were. Of
the calls, `k` made a node, `k` finished one, and `k - 1` related one. -/
theorem build_allocates (d : Tree) (w w' : Arena × Calls) (n : Handle) (events : List Event)
    (done : countedBuilder.build d w = ⟨.done n, w', events⟩) :
    n = ⟨w.1.size⟩ ∧
    w'.1.size = w.1.size + d.nodes.length ∧
    (∀ h : Handle, h.index < w.1.size → w'.1.slot? h = w.1.slot? h) ∧
    (∀ (i : Nat) (t : Tree), d.nodes[i]? = some t →
      w'.1.slot? ⟨w.1.size + i⟩ = some (t.slotAt (w.1.size + i)) ∧
      w'.1.isFinished ⟨w.1.size + i⟩ = true ∧
      (⟨w.1.size + i⟩ :: t.rightHandles (w.1.size + i)).Pairwise (·.index < ·.index) ∧
      List.Forall₂ (fun h r => w'.1.slot? h = some (r.1.slotAt h.index))
        (t.rightHandles (w.1.size + i)) t.rights) ∧
    w'.2 = w.2.built d.nodes.length (d.nodes.length - 1) d.nodes.length := by
  have outcome : (countedBuilder.build d w).outcome = .done n := congrArg Ran.outcome done
  obtain ⟨rfl, allocated⟩ := allocated_build d w n outcome
  have state : (countedBuilder.build d w).state = w' := congrArg Ran.state done
  rw [state] at allocated
  obtain ⟨slots, calls⟩ := allocated
  refine ⟨rfl, ?_, ?_, ?_, calls⟩
  · rw [Arena.size, slots, List.length_append, Tree.slotsFrom_length, Arena.size]
  · intro h old
    rw [slot?, slots, List.getElem?_append_left old, slot?]
  · intro i t ht
    have laid : Tree.LaidOut w'.1.slots w.1.size d.nodes := by
      rw [Tree.LaidOut, slots, Arena.size, List.drop_left]
    obtain ⟨before, after, split, rfl⟩ := Tree.nodes_split d i t ht
    rw [split] at laid
    have there : w'.1.slot? ⟨w.1.size + before.length⟩ =
        some (t.slotAt (w.1.size + before.length)) := laid.right.left.there
    refine ⟨there, ?_, ?_, ?_⟩
    · rw [isFinished, there]
      rfl
    · obtain ⟨later, ascend⟩ := Tree.numberedRights_ascend (w.1.size + before.length + 1) t.rights
      rw [Tree.rightHandles_eq]
      refine List.pairwise_cons.2 ⟨List.forall_mem_map.2 later, ?_⟩
      exact List.pairwise_map.2 ascend
    · have below : Tree.LaidOut w'.1.slots (w.1.size + before.length)
          ([t] ++ Tree.nodesOfRights t.rights) := by
        rw [List.singleton_append, Tree.rights, ← Tree.nodesOfBundles_eq, ← Tree.nodes_eq]
        exact laid.right.left
      rw [Tree.rightHandles_eq]
      exact List.forall₂_map_left_iff.2 (below.right.numbered t.rights)

/-- A row of two cells and a note, where the cells are described apart and one of them has a value,
and where a relation without right nodes stands in between. -/
def describedRow : Tree :=
  ⟨"row", ∅, [⟨⟨"cells", .many⟩, [(⟨"cell", ∅, [⟨⟨"value", .one⟩, [(Tree.make "literal" ∅, ∅)]⟩]⟩,
      ∅)]⟩, ⟨⟨"tags", .many⟩, []⟩, ⟨⟨"note", .optional⟩, [(Tree.make "text" ∅, ∅)]⟩,
    ⟨⟨"cells", .many⟩, [(Tree.make "cell" ∅, ∅)]⟩]⟩

/-- An arena with two nodes, one of them unfinished, in an open session, and some counts. -/
def startedArena : Arena × Calls :=
  ({ slots := [{ kind := "literal", attrs := ∅, finished := true }, { kind := "pair", attrs := ∅ }],
     marks := [{ length := 1 }] }, { make := 2, relate := 0, finish := 1, prepare := 1 })

/-- The row behind these nodes. -/
def builtRow : Slot where
  kind := "row"
  attrs := ∅
  bundles := [⟨⟨"cells", .many⟩, [(⟨3⟩, ∅), (⟨6⟩, ∅)]⟩, ⟨⟨"note", .optional⟩, [(⟨5⟩, ∅)]⟩]
  finished := true

/-- The row is the third node, its cells are the fourth and the seventh one, and its note comes
between them. -/
theorem build_allocates_row :
    ∃ w' events, countedBuilder.build describedRow startedArena = ⟨.done ⟨2⟩, w', events⟩ ∧
      w'.1.size = 7 ∧ w'.1.slot? ⟨1⟩ = some { kind := "pair", attrs := ∅ } ∧
      w'.1.slot? ⟨2⟩ = some builtRow ∧
      w'.2 = { make := 7, relate := 4, finish := 6, prepare := 1 } := by
  have done : countedBuilder.build describedRow startedArena =
      ⟨.done ⟨2⟩, (countedBuilder.build describedRow startedArena).state,
        (countedBuilder.build describedRow startedArena).events⟩ := rfl
  obtain ⟨-, size, older, new, calls⟩ := build_allocates describedRow startedArena _ _ _ done
  refine ⟨_, _, done, size, older ⟨1⟩ (by decide), ?_, calls⟩
  exact (new 0 describedRow rfl).1

end Arena

end TreeProtocol
