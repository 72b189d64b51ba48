import TreeProtocol.Proofs.Construction.Acceptance
import TreeProtocol.Proofs.Views

/-!
# What composite construction collects

When composite construction is done, every right node of every plan was produced and attached, with
the attributes that its plan gives it, and in the order of the plans. So the bundles of the node are
those of these attachments.

A tree is a value, which no producer can change. The slot of a node of an arena can be changed while
the node is under construction; what is said here is said for producers that leave it alone.

* `Builder.LeftAlone`: productions that are done leave the node under construction alone.
* `Builder.Collects`: what nodes have as they are made, related and finished.
* `Collects.composite`: a node that was constructed has what was attached to it.
* `Attachment.find?_bundles`, `Attachment.find?_between`: what is looked up under a name that stands
  for one relation.
-/

namespace TreeProtocol

variable {W N : Type}

/-! ## Looking up attachments -/

namespace Attachment

variable {log xs ys zs : List (Attachment N)} {r : Relation} {name : String}

theorem mem_demands {x : Attachment N} (hx : x ∈ log) : (x.relation, x.args) ∈ demands log :=
  List.mem_map_of_mem (f := fun x => (x.relation, x.args)) hx

theorem bundles_nodup (log : List (Attachment N)) :
    ((bundles log).map (·.relation.name)).Nodup := by
  rw [bundles_eq_gathered]
  exact Bundle.gathered_nodup _

/-- **A name that stands for one relation** finds all that was attached under it. -/
theorem find?_bundles (same : ∀ x ∈ log, x.relation.name = r.name → x.relation = r)
    (some : under log r.name ≠ []) :
    Bundle.find? (bundles log) r.name = .some ⟨r, under log r.name⟩ := by
  obtain ⟨right, hright⟩ := List.exists_mem_of_ne_nil _ some
  obtain ⟨x, hx, -⟩ := List.mem_map.1 hright
  obtain ⟨hmem, hname⟩ := List.mem_filter.1 hx
  obtain ⟨b, hb, named⟩ := exists_mem_bundles (mem_demands hmem)
  have hrelation : b.relation = r := by
    obtain ⟨⟨y, hy, hyb⟩, -⟩ := of_mem_bundles hb
    obtain ⟨z, hz, rfl⟩ := List.mem_map.1 hy
    rw [← hyb] at named ⊢
    exact same z hz (named.trans (eq_of_beq hname))
  have found : Bundle.find? (bundles log) b.relation.name = .some b :=
    Bundle.find?_of_mem (bundles_nodup log) hb
  obtain ⟨q, -, rfl⟩ := List.mem_map.1 hb
  obtain rfl : q = r := hrelation
  exact found

theorem under_append (xs ys : List (Attachment N)) (name : String) :
    under (xs ++ ys) name = under xs name ++ under ys name := by
  rw [under, List.filter_append, List.map_append]
  rfl

theorem under_of_none (h : ∀ x ∈ xs, x.relation.name ≠ name) : under xs name = [] := by
  have none : xs.filter (·.relation.name == name) = [] := by
    rw [List.filter_eq_nil_iff]
    exact fun x hx => by simpa using h x hx
  rw [under, none, List.map_nil]

theorem under_of_all (h : ∀ x ∈ xs, x.relation.name = name) :
    under xs name = xs.map fun x => (x.right, x.args) := by
  have all : xs.filter (·.relation.name == name) = xs :=
    List.filter_eq_self.2 fun x hx => by simpa using h x hx
  rw [under, all]

/-- **What was attached in one go** under a relation is found under its name, if nothing else was
attached under this name. -/
theorem find?_between (earlier : ∀ x ∈ xs, x.relation.name ≠ r.name)
    (these : ∀ y ∈ ys, y.relation = r) (later : ∀ z ∈ zs, z.relation.name ≠ r.name)
    (filled : ys ≠ []) :
    Bundle.find? (bundles (xs ++ (ys ++ zs))) r.name =
      .some ⟨r, ys.map fun y => (y.right, y.args)⟩ := by
  have all : under (xs ++ (ys ++ zs)) r.name = ys.map fun y => (y.right, y.args) := by
    rw [under_append, under_append, under_of_none earlier, under_of_none later, List.append_nil,
      List.nil_append, under_of_all fun y hy => congrArg Relation.name (these y hy)]
  have same : ∀ x ∈ xs ++ (ys ++ zs), x.relation.name = r.name → x.relation = r := by
    intro x hx hname
    rcases List.mem_append.1 hx with hx | hx
    · exact absurd hname (earlier x hx)
    · rcases List.mem_append.1 hx with hy | hz
      · exact these x hy
      · exact absurd hname (later x hz)
  rw [← all]
  refine find?_bundles same ?_
  rw [all]
  exact fun h => filled (List.map_eq_nil_iff.1 h)

/-- What was attached on demand of plans was attached under their relations. -/
theorem exists_plan {plans : List (RelationPlan W N)}
    (demanded : demands log = RelationPlan.demands plans) :
    ∀ x ∈ log, ∃ p ∈ plans, p.relation = x.relation := by
  intro x hx
  have hdemand := mem_demands hx
  rw [demanded] at hdemand
  obtain ⟨p, hp, -, hrelation⟩ := RelationPlan.mem_demands.1 ⟨_, hdemand, rfl⟩
  exact ⟨p, hp, hrelation⟩

end Attachment

theorem RelationPlan.demands_append (xs ys : List (RelationPlan W N)) :
    demands (xs ++ ys) = demands xs ++ demands ys :=
  List.flatMap_append

/-! ## Productions that leave the node alone -/

namespace Builder

/-- Whenever a right node is produced, the node under construction is left alone. `Kept` says what
this means of the node, the state before and the state after. -/
def LeftAlone (b : Builder W N) (Kept : N → W → W → Prop) :
    List (Relation × RightSupply W N) → N → W → Prop
  | [], _, _ => True
  | (relation, right) :: more, node, w =>
    ∀ produced, (right.produce w).outcome = .done produced →
      Kept node w (right.produce w).state ∧
      ∀ next, (b.relate relation node produced right.args (right.produce w).state).outcome =
          .done next →
        b.LeftAlone Kept more next
          (b.relate relation node produced right.args (right.produce w).state).state

/-- The node is left alone in the run of composite construction. -/
def LeavesAlone (b : Builder W N) (Kept : N → W → W → Prop) (kind : Kind) (attrs : Attrs)
    (plans : List (RelationPlan W N)) (w : W) : Prop :=
  ∀ node, (b.make kind attrs w).outcome = .done node →
    b.LeftAlone Kept (RelationPlan.requests plans) node (b.make kind attrs w).state

/-- `Has` says of a node in a state which bundles it has: none when it was made, and one more right
node whenever it was related. -/
structure Collects (b : Builder W N) (Kept : N → W → W → Prop)
    (Has : W → N → List (Bundle N) → Prop) : Prop where
  made : ∀ {kind attrs w node}, (b.make kind attrs w).outcome = .done node →
    Has (b.make kind attrs w).state node []
  kept : ∀ {w w' node bundles}, Has w node bundles → Kept node w w' → Has w' node bundles
  related : ∀ {w node bundles relation right args next}, Has w node bundles →
    (b.relate relation node right args w).outcome = .done next →
    ∃ bundles', Bundle.Attached relation right args bundles bundles' ∧
      Has (b.relate relation node right args w).state next bundles'
  finished : ∀ {w node bundles kind next}, Has w node bundles →
    (b.finish kind node w).outcome = .done next →
    Has (b.finish kind node w).state next bundles

end Builder

/-- The node that was produced, if the entry is of a production that was done. -/
def Entry.produced? : Entry W N → Option N
  | .carried (.produce _) (.done node) => some node
  | _ => none

/-- A script that is carried out to the end went through its first step. -/
theorem Script.Trace.step_done {b : Builder W N} {effect : Effect W N} {script : N → Script W N}
    {w w' : W} {log : List (Entry W N)} {n : N}
    (trace : Trace b (.step effect script) w log (.done n) w') :
    ∃ node rest, (effect.on b w).outcome = .done node ∧
      log = .carried effect (.done node) :: rest ∧
      Trace b (script node) (effect.on b w).state rest (.done n) w' := by
  generalize ho : Outcome.done n = o at trace
  cases trace with
  | next node h rest => exact ⟨node, _, h, rfl, rest⟩
  | cut _ _ h =>
    rw [← ho] at h
    cases h

namespace Builder

variable {b : Builder W N} {Kept : N → W → W → Prop} {Has : W → N → List (Bundle N) → Prop}

/-- **Run lemma.** A node that has been asked for some right nodes, and is asked for more, has all
of them in the end. Induction on those that are still to come. -/
theorem Collects.supplying (collects : b.Collects Kept Has) {kind : Kind}
    (requests : List (Relation × RightSupply W N)) (asked : List (Attachment N)) {node n : N}
    {w w' : W} {log : List (Entry W N)} (has : Has w node (Attachment.bundles asked))
    (alone : b.LeftAlone Kept requests node w)
    (trace : (Script.supplying kind requests node).Trace b w log (.done n) w') :
    ∃ made, Has w' n (Attachment.bundles (asked ++ made)) ∧
      Attachment.demands made = requests.map (fun x => (x.1, x.2.args)) ∧
      made.map (·.right) = log.filterMap Entry.produced? := by
  induction requests generalizing asked node w log with
  | nil =>
    rw [Script.supplying] at trace
    generalize ho : Outcome.done n = o at trace
    cases trace with
    | last effect w =>
      refine ⟨[], ?_, rfl, rfl⟩
      rw [List.append_nil]
      exact collects.finished has ho.symm
  | cons request more ih =>
    obtain ⟨relation, right⟩ := request
    rw [Script.supplying] at trace
    obtain ⟨produced, rest, hproduced, rfl, relating⟩ := trace.step_done
    obtain ⟨next, rest', hrelated, rfl, supplying⟩ := relating.step_done
    obtain ⟨kept, alone⟩ := alone produced hproduced
    obtain ⟨bundles, attached, has⟩ := collects.related (collects.kept has kept) hrelated
    rw [Attachment.bundles_of_attached attached] at has
    obtain ⟨made, has, hdemands, hproductions⟩ := ih _ has (alone next hrelated) supplying
    refine ⟨⟨relation, produced, right.args⟩ :: made, ?_, ?_, ?_⟩
    · rwa [List.append_assoc] at has
    · exact congrArg ((relation, right.args) :: ·) hdemands
    · exact congrArg (produced :: ·) hproductions

/-- **A node that was constructed** has one attachment for every right node of the plans, in their
order, with the attributes that were planned; the right nodes are those that were produced, in the
order of their production. -/
theorem Collects.composite (collects : b.Collects Kept Has) {kind : Kind} {attrs : Attrs}
    {plans : List (RelationPlan W N)} {w : W} {n : N}
    (alone : b.LeavesAlone Kept kind attrs plans w)
    (done : (b.composite kind attrs plans w).outcome = .done n) :
    ∃ made, Has (b.composite kind attrs plans w).state n (Attachment.bundles made) ∧
      Attachment.demands made = RelationPlan.demands plans ∧
      made.map (·.right) =
        (b.compositeWatched kind attrs plans (w, [])).state.2.filterMap Entry.produced? := by
  cases hplans : RelationPlan.checkAll plans with
  | error e =>
    rw [composite_of_refused b kind attrs hplans w] at done
    cases done
  | ok u =>
    obtain ⟨log, trace, -, state⟩ := performs_composite b kind attrs hplans w []
    rw [done, Script.composite] at trace
    obtain ⟨node, rest, hmade, rfl, supplying⟩ := trace.step_done
    obtain ⟨made, has, hdemands, hproductions⟩ := collects.supplying
      (RelationPlan.requests plans) [] (collects.made hmade) (alone node hmade) supplying
    refine ⟨made, has, ?_, ?_⟩
    · rw [hdemands, RelationPlan.demands_eq]
    · rw [hproductions, state]
      rfl

end Builder

/-! ## The two builders -/

theorem Builder.leftAlone_tree {requests : List (Relation × RightSupply W Tree)} {t : Tree}
    {w : W} : Tree.builder.LeftAlone (fun _ _ _ => True) requests t w := by
  induction requests generalizing t w with
  | nil => trivial
  | cons request more ih => exact fun _ _ => ⟨trivial, fun _ _ => ih⟩

theorem Tree.collects : (builder (W := W)).Collects (fun _ _ _ => True)
    fun _ t bundles => t.bundles = bundles where
  made done := by rw [← Outcome.done.inj done]; rfl
  kept has _ := has
  related := by
    rintro w t bundles relation right args next rfl done
    obtain ⟨bundles', attached, rfl⟩ := relate_eq_ok_iff.1 (Action.ofExcept_done done)
    exact ⟨bundles', attached, rfl⟩
  finished := by
    rintro w t bundles kind next rfl done
    rw [(finish_eq_ok_iff.1 (Action.ofExcept_done done)).2]

namespace Arena

/-- Production leaves the slot of the node under construction as it is. -/
def SlotKept (place : Lens W Arena) (node : Handle) (w w' : W) : Prop :=
  (place.get w').slot? node = (place.get w).slot? node

theorem collects (place : Lens W Arena) : (builder place).Collects (SlotKept place)
    fun w node bundles =>
      ∃ slot, (place.get w).slot? node = some slot ∧ slot.bundles = bundles where
  made := by
    intro kind attrs w node done
    have outcome : (make kind attrs (place.get w)).outcome = .done node := done
    show ∃ slot, (place.get ((make kind attrs).zoom place w).state).slot? node = some slot ∧ _
    rw [Action.get_zoom]
    rcases make_cases (place.get w) kind attrs with ⟨e, heq⟩ | heq
    · rw [heq] at outcome
      cases outcome
    · rw [heq] at outcome ⊢
      obtain rfl := Outcome.done.inj outcome
      exact ⟨{ kind, attrs }, by simp [slot?, size], rfl⟩
  kept := by
    rintro w w' node bundles ⟨slot, there, hbundles⟩ kept
    exact ⟨slot, kept.trans there, hbundles⟩
  related := by
    rintro w node bundles relation right args next ⟨slot, there, rfl⟩ done
    have outcome : (relate relation node right args (place.get w)).outcome = .done next := done
    obtain ⟨rfl, slot', bundles', there', -, -, -, attached, state⟩ := relate_done outcome
    obtain rfl : slot = slot' := Option.some.inj (there.symm.trans there')
    refine ⟨bundles', attached, ?_⟩
    show ∃ slot, (place.get ((relate relation next right args).zoom place w).state).slot? next =
      some slot ∧ _
    rw [Action.get_zoom, state]
    exact ⟨_, slot?_setSlot (slot?_lt there) { slot with bundles := bundles' }, rfl⟩
  finished := by
    rintro w node bundles kind next ⟨slot, there, rfl⟩ done
    have outcome : (finish kind node (place.get w)).outcome = .done next := done
    show ∃ slot, (place.get ((finish kind node).zoom place w).state).slot? next = some slot ∧ _
    rw [Action.get_zoom]
    rcases finish_cases (place.get w) kind node with ⟨e, heq⟩ | ⟨slot', there', -, heq⟩
    · rw [heq] at outcome
      cases outcome
    · rw [heq] at outcome ⊢
      obtain rfl := Outcome.done.inj outcome
      obtain rfl : slot = slot' := Option.some.inj (there.symm.trans there')
      exact ⟨_, slot?_setSlot (slot?_lt there) { slot with finished := true }, rfl⟩

end Arena

end TreeProtocol
