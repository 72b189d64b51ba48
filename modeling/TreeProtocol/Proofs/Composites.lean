import TreeProtocol.Construction.Composite
import TreeProtocol.Proofs.Arena.Holding
import TreeProtocol.Proofs.NormalForm

/-!
# Trees that are built from descriptions

`Builder.build` builds a description by composite construction, each right node by a producer that
builds the description below it. Whatever it builds stands for the normal form of the description.

What has to be known of a builder for this is little (`Builder.Represents`): what its nodes stand
for as they are made, related and finished, on the way from one state to another.

* `Represents.build` — if building is done, the node stands for the normal form, which is sound;
* `Tree.represents`, `Arena.represents` — the two builders.
-/

namespace TreeProtocol

open TreeProtocol.Action

variable {W N : Type}

namespace Builder

mutual

/-- Builds a description. -/
def build (b : Builder W N) : Tree → Action W N
  | ⟨kind, attrs, bundles⟩ => b.composite kind attrs (plans b bundles)

/-- The relations of a description as plans. -/
def plans (b : Builder W N) : List (Bundle Tree) → List (RelationPlan W N)
  | [] => []
  | ⟨relation, rights⟩ :: more => ⟨relation, supplies b rights⟩ :: plans b more

/-- The right nodes of a description as supplies. -/
def supplies (b : Builder W N) : List (Tree × Attrs) → List (RightSupply W N)
  | [] => []
  | (t, args) :: more => { produce := build b t, args } :: supplies b more

end

/-- The nodes of a builder stand for trees. `built w₀ w finished n t` is to say that `n` was made
since `w₀` and stands for `t` in `w`; the left node of a relation goes on standing for its tree while
the right node is built. -/
structure Represents (b : Builder W N) (built : W → W → Bool → N → Tree → Prop) : Prop where
  make {kind : Kind} {attrs : Attrs} {w : W} {n : N}
    (done : (b.make kind attrs w).outcome = .done n) :
    built w (b.make kind attrs w).state false n (Tree.make kind attrs)
  relate {relation : Relation} {args : Attrs} {w₀ w w' : W} {left right n : N} {t u : Tree}
    (hleft : built w₀ w false left t) (hright : built w w' true right u)
    (done : (b.relate relation left right args w').outcome = .done n) :
    ∃ t', Tree.relate relation t u args = .ok t' ∧
      built w₀ (b.relate relation left right args w').state false n t'
  finish {kind : Kind} {w₀ w : W} {n n' : N} {t : Tree} (hn : built w₀ w false n t)
    (done : (b.finish kind n w).outcome = .done n') :
    built w₀ (b.finish kind n w).state true n' t

variable {b : Builder W N} {built : W → W → Bool → N → Tree → Prop}

/-- In the state `w` the node stands for a sound tree, made since `w₀`. -/
def Made (built : W → W → Bool → N → Tree → Prop) (w₀ : W) (finished : Bool) (t : Tree) (w : W)
    (n : N) : Prop :=
  built w₀ w finished n t ∧ t.Sound

/-- The right nodes of one relation, one by one. Those in `before` are attached already. -/
theorem Represents.attachRights (hb : b.Represents built) {w₀ : W} {kind : Kind} {attrs : Attrs}
    {relation : Relation} {done : List (Bundle Tree)} (rights : List (Tree × Attrs))
    (ih : ∀ r ∈ rights, ∀ w n, (b.build r.1 w).outcome = .done n →
      Made built w true r.1.normal (b.build r.1 w).state n)
    {before : List (Tree × Attrs)} {w : W} {n n' : N}
    (hn : Made built w₀ false
      ⟨kind, attrs, Bundle.gathered (done ++ [⟨relation, before⟩])⟩ w n)
    (h : (b.attachRights relation (b.supplies rights) n w).outcome = .done n') :
    Made built w₀ false
      ⟨kind, attrs, Bundle.gathered (done ++ [⟨relation, before ++ Tree.normalRights rights⟩])⟩
      (b.attachRights relation (b.supplies rights) n w).state n' := by
  induction rights generalizing before w n with
  | nil =>
    rw [supplies, Builder.attachRights] at h ⊢
    rw [Tree.normalRights, List.append_nil, ← Outcome.done.inj h]
    exact hn
  | cons right more ihmore =>
    obtain ⟨t, args⟩ := right
    obtain ⟨hhead, htail⟩ := List.forall_mem_cons.1 ih
    rw [supplies, Builder.attachRights] at h ⊢
    obtain ⟨produced, hproduced, h, hstate⟩ := done_of_bind h
    obtain ⟨related, hrelated, h, hstate'⟩ := done_of_bind h
    rw [hstate, hstate']
    obtain ⟨hright, hsound⟩ := hhead w produced hproduced
    obtain ⟨t', hrelate, hleft⟩ := hb.relate hn.1 hright hrelated
    obtain ⟨bundles, attached, rfl⟩ := Tree.relate_eq_ok_iff.1 hrelate
    -- The invariant: the bundle of this relation is gathered as far as it is filled.
    have hgathered := Bundle.eq_gathered_of_attached attached
    rw [Bundle.gathered_push] at hgathered
    have hn' : Made built w₀ false ⟨kind, attrs, bundles⟩ _ related :=
      ⟨hleft, hn.2.attached hsound attached⟩
    rw [hgathered] at hn'
    have := ihmore htail hn' h
    rwa [List.append_assoc] at this

/-- The relations one by one. The bundles in `done` are there already, gathered. -/
theorem Represents.attachPlans (hb : b.Represents built) {w₀ : W} {kind : Kind} {attrs : Attrs}
    (bundles : List (Bundle Tree))
    (ih : ∀ c ∈ bundles, ∀ r ∈ c.rights, ∀ w n, (b.build r.1 w).outcome = .done n →
      Made built w true r.1.normal (b.build r.1 w).state n)
    {done : List (Bundle Tree)} {w : W} {n n' : N}
    (hn : Made built w₀ false ⟨kind, attrs, Bundle.gathered done⟩ w n)
    (h : (b.attachPlans kind (b.plans bundles) n w).outcome = .done n') :
    Made built w₀ false ⟨kind, attrs, Bundle.gathered (done ++ Tree.normalBundles bundles)⟩
      (b.attachPlans kind (b.plans bundles) n w).state n' := by
  induction bundles generalizing done w n with
  | nil =>
    rw [plans, Builder.attachPlans] at h ⊢
    rw [Tree.normalBundles, List.append_nil, ← Outcome.done.inj h]
    exact hn
  | cons c more ihmore =>
    obtain ⟨relation, rights⟩ := c
    obtain ⟨hhead, htail⟩ := List.forall_mem_cons.1 ih
    rw [plans, Builder.attachPlans] at h ⊢
    obtain ⟨_, _, h, hstate⟩ := done_of_bind h
    obtain ⟨filled, hfilled, h, hstate'⟩ := done_of_bind h
    rw [hstate, hstate']
    rw [← Bundle.gathered_empty done relation] at hn
    have hn' := hb.attachRights rights hhead hn hfilled
    have := ihmore htail hn' h
    rwa [List.nil_append, List.append_assoc] at this

/-- **What is built stands for the normal form** of its description. Induction over the
description. -/
theorem Represents.build (hb : b.Represents built) (d : Tree) {w : W} {n : N}
    (h : (b.build d w).outcome = .done n) :
    Made built w true d.normal (b.build d w).state n := by
  induction d using Tree.induction generalizing w n with
  | node d ih =>
    obtain ⟨kind, attrs, bundles⟩ := d
    rw [Builder.build, composite] at h ⊢
    obtain ⟨_, _, h, hstate⟩ := done_of_bind h
    obtain ⟨made, hmade, h, hstate'⟩ := done_of_bind h
    obtain ⟨filled, hfilled, h, hstate''⟩ := done_of_bind h
    rw [hstate, hstate', hstate'']
    have hn : Made built w false ⟨kind, attrs, Bundle.gathered []⟩ _ made :=
      ⟨hb.make hmade, Tree.sound_make kind attrs⟩
    obtain ⟨hbuilt, hsound⟩ := hb.attachPlans bundles (fun c hc r hr w n => ih c hc r hr) hn hfilled
    exact ⟨hb.finish hbuilt h, hsound⟩

end Builder

/-! ## The two builders -/

theorem Tree.represents : (builder : Builder W Tree).Represents fun _ _ _ n t => n = t where
  make done := (Outcome.done.inj done).symm
  relate := by
    rintro relation args w₀ w w' left right n t u rfl rfl done
    exact ⟨n, ofExcept_done done, rfl⟩
  finish := by
    rintro kind w₀ w n n' t rfl done
    exact (finish_eq_ok_iff.1 (ofExcept_done done)).2

namespace Arena

variable {a b c : Arena} {h left right : Handle} {finished : Bool} {t u : Tree}

/-- The node of the later arena is new and holds the tree; all nodes of the earlier one are as they
were. -/
structure Added (a b : Arena) (finished : Bool) (h : Handle) (t : Tree) : Prop where
  new : a.size ≤ h.index
  holds : b.Holds finished h t
  older : ∀ g, g.index < a.size → b.slot? g = a.slot? g

theorem Mirrors.done {run : Ran Arena Handle} {expected : Except BuildError Tree} {h' : Handle}
    (mirrors : a.Mirrors h finished expected run) (done : run.outcome = .done h') :
    h' = h ∧ ∃ t, expected = .ok t ∧ run.state.Holds finished h t ∧ SameBut h a run.state := by
  cases mirrors with
  | forbidden _ outcome => exact nomatch outcome.symm.trans done
  | refused _ outcome => exact nomatch outcome.symm.trans done
  | accepted result outcome holds others =>
    exact ⟨Outcome.done.inj (done.symm.trans outcome), _, result, holds, others⟩

theorem ne_of_new (new : a.size ≤ h.index) {g : Handle} (old : g.index < a.size) : g ≠ h := by
  rintro rfl
  omega

/-- A node that was added goes on through a call that changes its slot only. -/
theorem Added.changed (added : Added a b finished h t) {finished' : Bool} {t' : Tree}
    (holds : c.Holds finished' h t') (others : SameBut h b c) : Added a c finished' h t' where
  new := added.new
  holds := holds
  older g old := (others g (ne_of_new added.new old)).trans (added.older g old)

/-- What was added before stays when more is added. -/
theorem Added.before (added : Added a b finished h t) {g : Handle} {finished' : Bool}
    (next : Added b c finished' g u) : Added a c finished h t := by
  have hsize : ∀ k slot, b.slot? k = some slot → c.slot? k = some slot := fun k slot there =>
    (next.older k (slot?_lt there)).trans there
  refine ⟨added.new, ?_, ?_⟩
  · refine added.holds.frame (fun k slot there _ => hsize k slot there) ?_
    obtain ⟨slot, there, -⟩ := added.holds.there
    rw [there, hsize h slot there]
  · intro k old
    have hbetween := added.new
    have hthere := added.holds.lt
    exact (next.older k (by omega)).trans (added.older k old)

theorem represents (place : Lens W Arena) : (builder place).Represents fun w w' finished h t =>
    Added (place.get w) (place.get w') finished h t where
  make {kind attrs w n} done := by
    obtain ⟨rfl, t, result, holds, others⟩ := (make_mirrors (place.get w) kind attrs).done done
    rw [← Except.ok.inj result] at holds
    show Added _ (place.get ((make kind attrs).zoom place w).state) _ _ _
    rw [get_zoom]
    exact ⟨Nat.le_refl _, holds, fun g old => others g (ne_of_new (Nat.le_refl _) old)⟩
  relate {relation args w₀ w w' left right n t u} hleft hright done := by
    have hleft' := hleft.before hright
    obtain ⟨rfl, t', result, holds, others⟩ :=
      (relate_mirrors hleft'.holds hright.holds relation args).done done
    refine ⟨t', result, ?_⟩
    show Added _ (place.get ((relate relation n right args).zoom place w').state) _ _ _
    rw [get_zoom]
    exact hleft'.changed holds others
  finish {kind w₀ w n n' t} hn done := by
    obtain ⟨rfl, t', result, holds, others⟩ := (finish_mirrors hn.holds kind).done done
    obtain rfl : t' = t := (Tree.finish_eq_ok_iff.1 result).2
    show Added _ (place.get ((finish kind n').zoom place w).state) _ _ _
    rw [get_zoom]
    exact hn.changed holds others

end Arena

end TreeProtocol
